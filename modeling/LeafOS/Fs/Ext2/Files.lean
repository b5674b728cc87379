import LeafOS.Fs.Ext2.Allocation

namespace leafos.fs.ext2

open Ext2Error
open Outcome (refuse okOr)
open Prog (attempt)

/-- The turns of `read_inode_contents`. Every turn ends at the next block boundary, so the
fuel is enough when it exceeds the number of blocks. -/
def copy_blocks (metadata : Metadata) (inode : Inode) (block_count copy_len : Nat) :
    (fuel copied : Nat) → PointerCache → Buffer → Reader Buffer
  | 0, _, _, _ => .done .panic
  | fuel + 1, copied, cache, output =>
    if copied < copy_len then do
      unchecked (metadata.block_size ≠ 0)
      let block_index := copied / metadata.block_size
      let block_offset := copied % metadata.block_size
      refuse (block_count ≤ block_index) InvalidFilesystem
      let (block_number, cache) ← inode_data_block metadata inode block_index cache
      let amount := min (metadata.block_size - block_offset) (copy_len - copied)
      let source ← read_part metadata block_number block_offset amount
      let output ← (output.copy_from_slice copied source : Checked Buffer)
      copy_blocks metadata inode block_count copy_len fuel (copied + amount) cache output
    else
      return output
where
  /-- A part of a block; a block that is absent reads as zeros. -/
  read_part (metadata : Metadata) (block_number block_offset amount : Nat) : Reader (List UInt8) :=
    if block_number = 0 then
      return List.replicate amount 0
    else do
      let block ← read_block metadata block_number
      let part ← (block.slice block_offset (block_offset + amount) : Checked Buffer)
      return part.toList

/-- `read_inode_contents`: the output buffer, how much was copied, and the file's size. -/
def read_inode_contents (metadata : Metadata) (inode : Inode) (output : Buffer) :
    Reader (Buffer × Nat × Nat) := do
  let block_count ← inode_block_count metadata inode
  let copy_len := min inode.size output.length
  let output ← copy_blocks metadata inode block_count copy_len (block_count + 1) 0 PointerCache.new output
  return (output, copy_len, inode.size)

/-- `read_file`: on success the output buffer, how much was copied, and the file's size. -/
def read_file (ext2 : Mounted) (path : List UInt8) (output : Buffer) : Reader (Option (Buffer × Nat × Nat)) := do
  let metadata ← metadata ext2
  let found ← lookup ext2 path
  match found with
  | none => return none
  | some inode =>
    if inode.is_file then do
      let result ← read_inode_contents metadata inode output
      return some result
    else
      return none

/-- `read_file_vec` for a regular file. -/
def read_whole (metadata : Metadata) (inode : Inode) (max_size : Nat) : Reader (List UInt8) := do
  let size ← okOr (checked_usize inode.size) UnsupportedFeature
  refuse (max_size < size) FileTooLarge
  try_reserve
  let (contents, _, _) ← read_inode_contents metadata inode (.zeroed size)
  return contents.toList

def read_file_vec (ext2 : Mounted) (path : List UInt8) (max_size : Nat) : Reader (Option (List UInt8)) := do
  let metadata ← metadata ext2
  let found ← lookup ext2 path
  match found with
  | none => return none
  | some inode =>
    if inode.is_file then do
      let contents ← read_whole metadata inode max_size
      return some contents
    else
      return none

/-- What `write_file` has worked out when its first transaction starts. -/
structure FilePlan where
  parent : Parent
  existing : Option (Nat × Inode)
  old_blocks : List Nat
  tables : AllocationTables
  allocated_inode : Nat
  allocated_blocks : Nat

def write_block_bitmap (metadata : Metadata) (plan : FilePlan) : Ext2M Unit :=
  if plan.allocated_blocks ≠ 0 then
    write_through metadata plan.tables.block_bitmap_number plan.tables.block_bitmap
  else
    return ()

/-- `inode_bitmap[bit as usize / 8] |= 1 << (bit % 8)`. -/
def set_inode_bit (bitmap : Buffer) (inode_number : Nat) : Checked Buffer := do
  unchecked (1 ≤ inode_number)
  let bit := inode_number - 1
  let value ← bitmap.get (bit / 8)
  bitmap.set (bit / 8) (value ||| bit_mask bit)

def write_inode_bitmap (metadata : Metadata) (plan : FilePlan) : Ext2M Unit :=
  if plan.existing.isNone then do
    let inode_bitmap ← set_inode_bit plan.tables.inode_bitmap plan.allocated_inode
    write_through metadata plan.tables.inode_bitmap_number inode_bitmap
  else
    return ()

/-- The closure of `write_file` that runs in the first transaction. -/
def commit (metadata : Metadata) (plan : FilePlan) (inode : Inode) : Ext2M Unit := do
  write_block_bitmap metadata plan
  write_inode_bitmap metadata plan
  update_free_counters metadata plan.tables.descriptor (-plan.allocated_blocks)
    (if plan.existing.isNone then -1 else 0)
  write_inode_fields metadata plan.allocated_inode inode plan.existing.isNone
  if plan.existing.isNone then
    add_directory_entry metadata plan.parent.parent plan.parent.name plan.allocated_inode 1
  else
    return ()

/-- The end of `write_file` after a failed cleanup: both undo logs are rolled back. -/
def abandon (metadata : Metadata) (undo cleanup_undo : List (Nat × Buffer)) (error : Ext2Error) : Ext2M Unit := do
  let cleanup_rollback ← attempt (BlockTransaction.rollback metadata cleanup_undo)
  let commit_rollback ← attempt (BlockTransaction.rollback metadata undo)
  if !cleanup_rollback.isOk || !commit_rollback.isOk then Prog.throw RecoveryFailed else Prog.throw error

/-- The end of `write_file` after the commit: the blocks of a replaced file are freed. -/
def cleanup (metadata : Metadata) (plan : FilePlan) (undo : List (Nat × Buffer)) : Ext2M Unit := do
  let (result, cleanup_undo) ← in_transaction (free_data_blocks metadata plan.old_blocks)
  match result with
  | .ok _ => return ()
  | .error error => abandon metadata undo cleanup_undo error

/-- `write_file` from its first transaction on. -/
def commit_and_cleanup (metadata : Metadata) (plan : FilePlan) (inode : Inode) : Ext2M Unit := do
  let (result, undo) ← in_transaction (commit metadata plan inode)
  match result with
  | .ok _ => cleanup metadata plan undo
  | .error error => do
    BlockTransaction.rollback metadata undo
    Prog.throw error

end leafos.fs.ext2
