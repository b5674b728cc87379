import LeafOS.Fs.Ext2.Inodes
import LeafOS.Support.Scan

namespace leafos.fs.ext2

open Ext2Error
open Outcome (refuse okOr)

def safe_component (component : List UInt8) : Bool :=
  !component.isEmpty && component.length ≤ 255 && component != DOT && component != DOT_DOT &&
    component.all fun byte => is_ascii_alphanumeric byte || byte == 46 || byte == 95 || byte == 45

/-- The `incompat_features` bit that shortens the name length to one byte. -/
def Metadata.has_file_types (metadata : Metadata) : Bool :=
  metadata.incompat_features &&& FEATURE_INCOMPAT_FILETYPE != 0

/-- A record of a directory block: its offset, and the fields that every loop reads. -/
structure Record where
  offset : Nat
  inode : Nat
  record_len : Nat
  name_len : Nat
deriving DecidableEq

def read_name_len (metadata : Metadata) (block : Buffer) (offset : Nat) : Checked Nat :=
  if metadata.has_file_types then do
    let byte ← block.get (offset + 6)
    return byte.toNat
  else
    le16 block (offset + 6)

/-- The checks that every loop over records starts with. -/
def read_record (metadata : Metadata) (block : Buffer) (valid_bytes offset : Nat) : Checked Record := do
  let inode ← le32 block offset
  let record_len ← le16 block (offset + 4)
  refuse (record_len < 8 || record_len % 4 != 0 || valid_bytes < offset + record_len) InvalidFilesystem
  let name_len ← read_name_len metadata block offset
  unchecked (8 ≤ record_len)
  refuse (record_len - 8 < name_len) InvalidFilesystem
  return { offset, inode, record_len, name_len }

/-- `&block[offset + 8..offset + 8 + name_len]`. -/
def record_name (block : Buffer) (record : Record) : Checked (List UInt8) := do
  let name ← block.slice (record.offset + 8) (record.offset + 8 + record.name_len)
  return name.toList

section Loops

variable {σ ρ : Type} (metadata : Metadata) (body : Buffer → Record → σ → Reader (Turn σ ρ))

/-- `while offset + 8 <= valid_bytes`, over the records of one block. Every record has at
least 8 bytes, so the fuel is enough. -/
def scan (block : Buffer) (valid_bytes : Nat) : (fuel offset : Nat) → σ → Reader (Turn σ ρ)
  | 0, _, _ => .done .panic
  | fuel + 1, offset, state =>
    if offset + 8 ≤ valid_bytes then do
      let record ← read_record metadata block valid_bytes offset
      let turn ← body block record state
      match turn with
      | .finished result => return .finished result
      | .next state => scan block valid_bytes fuel (offset + record.record_len) state
    else
      return .next state

/-- `for logical_index in 0..block_count`, over the blocks of a directory. -/
def walk (directory : Inode) : (count logical_index remaining : Nat) → PointerCache → σ → Reader (Turn σ ρ)
  | 0, _, _, _, state => return .next state
  | count + 1, logical_index, remaining, cache, state => do
    let (block_number, cache) ← inode_data_block metadata directory logical_index cache
    refuse (block_number == 0) InvalidFilesystem
    let block ← read_block metadata block_number
    let turn ← scan metadata body block (min remaining metadata.block_size) BUFFER_SIZE 0 state
    match turn with
    | .finished result => return .finished result
    | .next state => walk directory count (logical_index + 1) (remaining - metadata.block_size) cache state

/-- The loops of `find_child` and `for_each_child`. -/
def walk_directory (directory : Inode) (state : σ) : Reader (Turn σ ρ) := do
  let block_count ← inode_block_count metadata directory
  let remaining ← okOr (checked_usize directory.size) UnsupportedFeature
  walk metadata body directory block_count 0 remaining PointerCache.new state

end Loops

/-- One turn of `find_child`. -/
def match_child (metadata : Metadata) (child : List UInt8) (block : Buffer) (record : Record) (_ : Unit) :
    Reader (Turn Unit Nat) := do
  let name ← record_name block record
  if record.inode ≠ 0 then do
    refuse (metadata.inodes_count < record.inode) InvalidFilesystem
    if name = child then return .finished record.inode else return .next ()
  else
    return .next ()

def find_child (metadata : Metadata) (directory : Inode) (child : List UInt8) : Reader (Option Nat) :=
  if directory.is_dir then do
    let turn ← walk_directory metadata (match_child metadata child) directory ()
    return turn.found?
  else
    return none

/-- The loop that `lookup` and `find_inode_number` share: the number and the inode that the
components lead to. -/
def walk_components (metadata : Metadata) : List (List UInt8) → Nat → Inode → Reader (Option (Nat × Inode))
  | [], inode_number, inode => return some (inode_number, inode)
  | component :: rest, inode_number, inode =>
    if component.isEmpty then
      walk_components metadata rest inode_number inode
    else if !safe_component component || !inode.is_dir then
      return none
    else do
      let child ← find_child metadata inode component
      match child with
      | none => return none
      | some child_number => do
        let inode ← read_inode metadata child_number
        walk_components metadata rest child_number inode

/-- `path.split('/')`. -/
def components (path : List UInt8) : List (List UInt8) := path.splitOn SLASH

def walk_path (metadata : Metadata) (path : List UInt8) : Reader (Option (Nat × Inode)) := do
  let inode ← read_inode metadata ROOT_INODE
  walk_components metadata (components path) ROOT_INODE inode

def lookup (ext2 : Mounted) (path : List UInt8) : Reader (Option Inode) := do
  let metadata ← metadata ext2
  let found ← walk_path metadata path
  return found.map Prod.snd

def find_inode_number (metadata : Metadata) (path : List UInt8) : Reader (Option Nat) := do
  let found ← walk_path metadata path
  return found.map Prod.fst

/-- What `resolve_parent` returns. -/
structure Parent where
  parent_number : Nat
  parent : Inode
  name : List UInt8

/-- What stands before the last separator. -/
def parent_path (path : List UInt8) : List UInt8 := ((path.reverse.dropWhile (· != SLASH)).drop 1).reverse

/-- What stands after it. -/
def last_component (path : List UInt8) : List UInt8 := (path.reverse.takeWhile (· != SLASH)).reverse

def resolve_parent_number (ext2 : Mounted) (metadata : Metadata) (parent_path : List UInt8) : Reader Nat :=
  if parent_path = [] ∨ parent_path = [SLASH] then
    return ROOT_INODE
  else do
    let found ← lookup ext2 parent_path
    let parent ← okOr found NotFound
    refuse (!parent.is_dir) InvalidPath
    let found ← find_inode_number metadata parent_path
    okOr found InvalidFilesystem

def resolve_parent (ext2 : Mounted) (metadata : Metadata) (path : List UInt8) : Reader Parent := do
  let name := last_component path
  refuse (!safe_component name) InvalidPath
  refuse ((components (parent_path path)).any fun component => !component.isEmpty && !safe_component component)
    InvalidPath
  let parent_number ← resolve_parent_number ext2 metadata (parent_path path)
  let parent ← read_inode metadata parent_number
  refuse (!parent.is_dir) InvalidPath
  return { parent_number, parent, name }

/-- A visited entry: its name, whether it is a directory, and its size. -/
structure Entry where
  name : List UInt8
  is_dir : Bool
  size : Nat
deriving DecidableEq

/-- The part of a turn of `for_each_child` for an entry that is visited. The names that pass
`safe_component` are ASCII, so `from_utf8` does not fail on them. -/
def visit_child (metadata : Metadata) (record : Record) (name : List UInt8) (visited : List Entry) :
    Reader (Turn (List Entry) Empty) := do
  refuse (!safe_component name) UnsupportedFeature
  let inode ← read_inode metadata record.inode
  refuse (!inode.is_dir && !inode.is_file) UnsupportedFeature
  return .next (visited ++ [⟨name, inode.is_dir, inode.size⟩])

/-- One turn of `for_each_child`. -/
def visit_record (metadata : Metadata) (block : Buffer) (record : Record) (visited : List Entry) :
    Reader (Turn (List Entry) Empty) :=
  if record.inode ≠ 0 then do
    refuse (metadata.inodes_count < record.inode) InvalidFilesystem
    let name ← record_name block record
    if name ≠ DOT ∧ name ≠ DOT_DOT then visit_child metadata record name visited else return .next visited
  else
    return .next visited

/-- `for_each_child`: the entries it visits, in order. -/
def for_each_child (ext2 : Mounted) (directory : Inode) : Reader (List Entry) := do
  let metadata ← metadata ext2
  if directory.is_dir then do
    let turn ← walk_directory metadata (visit_record metadata) directory []
    match turn with
    | .finished never => nomatch never
    | .next visited => return visited
  else
    return []

def for_each_entry (ext2 : Mounted) (path : List UInt8) : Reader (List Entry) := do
  let found ← lookup ext2 path
  match found with
  | some directory => if directory.is_dir then for_each_child ext2 directory else return []
  | none => return []

/-- The room a record needs for a name. -/
def padded_len (name_len : Nat) : Nat := (8 + name_len + 3) / 4 * 4

/-- Whether a new entry fits into a record. -/
def has_room (record : Record) (required : Nat) : Bool :=
  (record.inode == 0 && required ≤ record.record_len) ||
    (record.inode != 0 && required ≤ record.record_len - padded_len record.name_len)

/-- The record of a new entry. -/
def put_record (metadata : Metadata) (block : Buffer) (entry_offset entry_len inode_number : Nat)
    (name : List UInt8) (file_type : UInt8) : Checked Buffer := do
  let block ← block.clear entry_offset (entry_offset + entry_len)
  let block ← block.copy_from_slice entry_offset (Bytes.encode 4 inode_number)
  let block ← block.copy_from_slice (entry_offset + 4) (Bytes.encode 2 entry_len)
  let kind := if metadata.has_file_types then [UInt8.ofNat name.length, file_type] else Bytes.encode 2 name.length
  let block ← block.copy_from_slice (entry_offset + 6) kind
  block.copy_from_slice (entry_offset + 8) name

/-- Put a new entry into a record that has room for it: over an unused record, or behind
the name of a used one. -/
def fill_record (metadata : Metadata) (block : Buffer) (record : Record) (inode_number : Nat)
    (name : List UInt8) (file_type : UInt8) : Checked Buffer :=
  if record.inode = 0 then
    put_record metadata block record.offset record.record_len inode_number name file_type
  else do
    let used_len := padded_len record.name_len
    refuse (2 ^ 16 ≤ used_len) InvalidFilesystem
    let block ← block.copy_from_slice (record.offset + 4) (Bytes.encode 2 used_len)
    unchecked (used_len ≤ record.record_len)
    put_record metadata block (record.offset + used_len) (record.record_len - used_len) inode_number name file_type

/-- One turn of `add_directory_entry`. -/
def add_record (metadata : Metadata) (name : List UInt8) (inode_number : Nat) (file_type : UInt8)
    (block : Buffer) (record : Record) (_ : Unit) : Reader (Turn Unit Buffer) := do
  unchecked (record.inode ≠ 0 → padded_len record.name_len ≤ record.record_len)
  if has_room record (padded_len name.length) then do
    let block ← fill_record metadata block record inode_number name file_type
    return .finished block
  else
    return .next ()

/-- The block of a directory that the code can change: it has exactly one. -/
def single_block (metadata : Metadata) (directory : Inode) (absent : Ext2Error) : Checked Nat := do
  refuse (!directory.is_dir) UnsupportedFeature
  let block_count ← inode_block_count metadata directory
  refuse (block_count != 1) UnsupportedFeature
  let block_number := directory.blocks ⟨0, DIRECT_BLOCKS_pos⟩
  refuse (block_number == 0) absent
  return block_number

/-- The directory's block with the new entry. -/
def insert_entry (metadata : Metadata) (block : Buffer) (name : List UInt8) (inode_number : Nat)
    (file_type : UInt8) : Reader Buffer := do
  let turn ← scan metadata (add_record metadata name inode_number file_type) block metadata.block_size BUFFER_SIZE 0 ()
  okOr turn.found? NoSpace

def add_directory_entry (metadata : Metadata) (directory : Inode) (name : List UInt8) (inode_number : Nat)
    (file_type : UInt8) : Ext2M Unit := do
  let block_number ← single_block metadata directory InvalidFilesystem
  let block ← read_block metadata block_number
  let block ← insert_entry metadata block name inode_number file_type
  write_through metadata block_number block

end leafos.fs.ext2
