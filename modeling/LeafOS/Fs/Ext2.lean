import LeafOS.Drivers.Ata
import LeafOS.Fs.Basic
import LeafOS.Support.Inquiry

namespace leafos.fs.ext2

open leafos.drivers leafos.drivers.ata
open Prog (get set modify attempt mapErr zoom)
open Outcome (refuse okOr)

def SUPERBLOCK_OFFSET : Nat := 1024
def SUPERBLOCK_SIZE : Nat := 1024
def ROOT_INODE : Nat := 2
def DIRECT_BLOCKS : Nat := 12

theorem DIRECT_BLOCKS_pos : 0 < DIRECT_BLOCKS := by decide
def INODE_BLOCK_POINTERS_OFFSET : Nat := 40
def MAX_GROUPS : Nat := 4096
def FEATURE_COMPAT_EXT_ATTR : Nat := 0x0008
def FEATURE_COMPAT_RESIZE_INODE : Nat := 0x0010
def FEATURE_INCOMPAT_FILETYPE : Nat := 0x0002
def FEATURE_RO_COMPAT_SPARSE_SUPER : Nat := 0x0001
def FEATURE_RO_COMPAT_LARGE_FILE : Nat := 0x0002

inductive Ext2Error where
  | Disk (error : AtaError)
  | InvalidFilesystem
  | InvalidPath
  | NotFound
  | AlreadyExists
  | NotEmpty
  | NoSpace
  | AllocationFailed
  | FileTooLarge
  | RecoveryFailed
  | UnsupportedFeature
  | NotInitialized
deriving Repr, DecidableEq

open Ext2Error

structure Metadata where
  block_size : Nat
  blocks_count : Nat
  inodes_count : Nat
  first_data_block : Nat
  blocks_per_group : Nat
  inodes_per_group : Nat
  inode_size : Nat
  group_count : Nat
  incompat_features : Nat
deriving Repr, DecidableEq

structure Inode where
  mode : Nat
  links : Nat
  size : Nat
  allocated_blocks_512 : Nat
  blocks : Fin DIRECT_BLOCKS → Nat
  single_indirect : Nat
  double_indirect : Nat

/-- The content of the static `EXT2`: nothing before the first mount, then its outcome. -/
abbrev Mounted : Type := Option (Except Ext2Error Metadata)

/-- A part of the code that does not touch the disk. -/
abbrev Checked : Type → Type := Outcome Ext2Error

/-- What the code asks for: sectors of the disk, and room on the heap. -/
inductive Access where
  | read_sectors (request : Request)
  | try_reserve

/-- `try_reserve` is granted or ends the function with `AllocationFailed`, a failed read
ends it with `Disk`. -/
abbrev Accesses : Interface where
  Question := Access
  Answer
    | .read_sectors _ => ByteMap
    | .try_reserve => Unit

/-- A part of the code that only reads the disk. -/
abbrev Reader : Type → Type := Inquiry Accesses Ext2Error

/-- What the code works on: the drive, and the undo log of the transaction that was handed
down, newest entry first. Without a transaction there is no log. -/
structure Volume where
  drive : Drive
  undo : Option (List (Nat × Buffer))

abbrev Ext2M : Type → Type := Prog Volume Ext2Error

def le16 (bytes : Buffer) (offset : Nat) : Checked Nat := bytes.le16 offset

def le32 (bytes : Buffer) (offset : Nat) : Checked Nat := bytes.le32 offset

/-- Arithmetic that panics when it leaves the range of its type. -/
def unchecked (condition : Prop) [Decidable condition] : Checked Unit := Outcome.unchecked condition

/-- The arithmetic of `checked_usize`, for `u32`. -/
def checked_u32 (value : Nat) : Option Nat := if value < 2 ^ 32 then some value else none

/-- `checked_sub`. -/
def checked_sub (left right : Nat) : Option Nat := if right ≤ left then some (left - right) else none

/-- A request to the drive; its errors become `Ext2Error::Disk`. -/
def on_drive {α : Type} (program : Prog Drive AtaError α) : Ext2M α :=
  mapErr .Disk (zoom Volume.drive (fun drive volume => { volume with drive }) program)

/-- `try_reserve`, and its error. -/
def reserve : Ext2M Unit := do
  let operation ← zoom Volume.drive (fun drive volume => { volume with drive }) next_operation
  let volume ← get
  if volume.drive.faults.reserve operation then Prog.throw .AllocationFailed else return ()

/-- How a volume answers. -/
def answer : (access : Access) → Ext2M (Accesses.Answer access)
  | .read_sectors request => on_drive (ata.read_sectors request)
  | .try_reserve => reserve

instance : MonadLift Reader Ext2M where
  monadLift reader := reader.run answer

def read_sectors (request : Request) : Reader ByteMap :=
  Inquiry.question (E := Accesses) (Access.read_sectors request)

def try_reserve : Reader Unit := Inquiry.question (E := Accesses) Access.try_reserve

/-- The length of the buffers that `zeroed_block` makes. -/
def BUFFER_SIZE : Nat := 4096

def zeroed_block : Buffer := .zeroed BUFFER_SIZE

def disk_block_size (block_size : Nat) : Checked Nat :=
  okOr (if block_size / 512 < 2 ^ 8 then some (block_size / 512) else none) InvalidFilesystem

/-- The checks of `read_block` and `write_block`, and the request they lead to. -/
def locate_block (metadata : Metadata) (block buffer_len : Nat) : Checked Request := do
  refuse (metadata.blocks_count ≤ block || buffer_len < metadata.block_size) InvalidFilesystem
  let sectors ← disk_block_size metadata.block_size
  let lba ← okOr (checked_u32 (block * sectors)) InvalidFilesystem
  return ⟨lba, sectors, metadata.block_size⟩

/-- `read_block` into a buffer from `zeroed_block`, which stays zero past the block. -/
def read_block (metadata : Metadata) (block : Nat) : Reader Buffer := do
  let request ← locate_block metadata block zeroed_block.length
  unchecked (request.buffer_len ≤ zeroed_block.length)
  let bytes ← read_sectors request
  return { zeroed_block with bytes := bytes.below metadata.block_size }

def write_block (metadata : Metadata) (block : Nat) (input : Buffer) : Ext2M Unit := do
  let request ← locate_block metadata block input.length
  let input ← (input.slice 0 metadata.block_size : Checked Buffer)
  on_drive (ata.write_sectors request.lba request.count input)

namespace BlockTransaction

/-- The first write to a block in a transaction saves what it held. -/
def save_original (metadata : Metadata) (block : Nat) (undo : List (Nat × Buffer)) : Ext2M Unit :=
  if undo.any fun saved => saved.1 == block then
    return ()
  else do
    try_reserve
    let original ← read_block metadata block
    modify fun volume => { volume with undo := some ((block, original) :: undo) }

/-- The writes of `rollback`; says whether one of them failed. -/
def restore (metadata : Metadata) : List (Nat × Buffer) → Ext2M Bool
  | [] => return false
  | (block, contents) :: rest => do
    let result ← attempt (write_block metadata block contents)
    let failed ← restore metadata rest
    return failed || !result.isOk

def rollback (metadata : Metadata) (undo : List (Nat × Buffer)) : Ext2M Unit := do
  let failed ← restore metadata undo
  if failed then Prog.throw .RecoveryFailed else return ()

end BlockTransaction

/-- `match transaction`: `BlockTransaction::write` within a transaction, else `write_block`. -/
def write_through (metadata : Metadata) (block : Nat) (contents : Buffer) : Ext2M Unit := do
  let volume ← get
  match volume.undo with
  | some undo => do
    BlockTransaction.save_original metadata block undo
    write_block metadata block contents
  | none => write_block metadata block contents

/-- Run a program with a new `BlockTransaction`: its result, and the undo log. -/
def in_transaction {α : Type} (program : Ext2M α) : Ext2M (Except Ext2Error α × List (Nat × Buffer)) := do
  modify fun volume => { volume with undo := some [] }
  let result ← attempt program
  let volume ← get
  set { volume with undo := none }
  return (result, volume.undo.getD [])

end leafos.fs.ext2
