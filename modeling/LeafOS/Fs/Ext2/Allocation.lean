import LeafOS.Fs.Ext2.Directories

namespace leafos.fs.ext2

open Ext2Error
open Outcome (refuse okOr)

/-- `1 << (bit % 8)`. -/
def bit_mask (bit : Nat) : UInt8 := 1 <<< UInt8.ofNat (bit % 8)

/-- Set or clear a bit that is not so yet. -/
def flip_bit (bitmap : Buffer) (bit : Nat) (allocated : Bool) : Checked Buffer := do
  let mask := bit_mask bit
  let value ← bitmap.get (bit / 8)
  refuse ((value &&& mask != 0) == allocated) InvalidFilesystem
  bitmap.set (bit / 8) (if allocated then value ||| mask else value &&& ~~~mask)

def update_block_bitmap (metadata : Metadata) (bitmap : Buffer) (block_number : Nat) (allocated : Bool) :
    Checked Buffer := do
  refuse (block_number < metadata.first_data_block || metadata.blocks_count ≤ block_number) InvalidFilesystem
  flip_bit bitmap (block_number - metadata.first_data_block) allocated

/-- `for &block in blocks { update_block_bitmap(metadata, bitmap, block, false)?; }`. -/
def release_blocks (metadata : Metadata) : Buffer → List Nat → Checked Buffer
  | bitmap, [] => return bitmap
  | bitmap, block :: rest => do
    let bitmap ← update_block_bitmap metadata bitmap block false
    release_blocks metadata bitmap rest

def single_indirect_capacity (metadata : Metadata) : Checked Nat :=
  okOr (checked_usize (DIRECT_BLOCKS + metadata.block_size / 4)) UnsupportedFeature

def double_indirect_capacity (metadata : Metadata) : Checked Nat := do
  let pointers_per_block := metadata.block_size / 4
  let single_capacity ← single_indirect_capacity metadata
  let leaves ← okOr (checked_usize (pointers_per_block * pointers_per_block)) UnsupportedFeature
  okOr (checked_usize (single_capacity + leaves)) UnsupportedFeature

/-- What `read_allocation_tables` returns. -/
structure AllocationTables where
  block_bitmap_number : Nat
  inode_bitmap_number : Nat
  descriptor : Buffer
  block_bitmap : Buffer
  inode_bitmap : Buffer

def read_allocation_tables (metadata : Metadata) : Reader AllocationTables := do
  unchecked (metadata.first_data_block + 1 < 2 ^ 32)
  let descriptor ← read_block metadata (metadata.first_data_block + 1)
  let block_bitmap_number ← le32 descriptor 0
  let inode_bitmap_number ← le32 descriptor 4
  refuse (metadata.blocks_count ≤ block_bitmap_number || metadata.blocks_count ≤ inode_bitmap_number)
    InvalidFilesystem
  let block_bitmap ← read_block metadata block_bitmap_number
  let inode_bitmap ← read_block metadata inode_bitmap_number
  return { block_bitmap_number, inode_bitmap_number, descriptor, block_bitmap, inode_bitmap }

/-- A signed sum that must fit into an unsigned type of the given size. -/
def shifted (count : Nat) (delta : Int) (bound : Nat) : Option Nat :=
  if 0 ≤ (count : Int) + delta ∧ (count : Int) + delta < bound then some ((count : Int) + delta).toNat else none

/-- Two neighbouring counters of the given width, changed by two deltas. -/
def shift_counters (block : Buffer) (offset width : Nat) (counts : Nat × Nat) (blocks_delta inodes_delta : Int) :
    Checked Buffer := do
  let blocks ← okOr (shifted counts.1 blocks_delta (256 ^ width)) InvalidFilesystem
  let inodes ← okOr (shifted counts.2 inodes_delta (256 ^ width)) InvalidFilesystem
  let block ← block.copy_from_slice offset (Bytes.encode width blocks)
  block.copy_from_slice (offset + width) (Bytes.encode width inodes)

def shift_descriptor (descriptor : Buffer) (blocks_delta inodes_delta : Int) : Checked Buffer := do
  let blocks ← le16 descriptor 12
  let inodes ← le16 descriptor 14
  shift_counters descriptor 12 2 (blocks, inodes) blocks_delta inodes_delta

def shift_superblock (superblock : Buffer) (blocks_delta inodes_delta : Int) : Checked Buffer := do
  let blocks ← le32 superblock 12
  let inodes ← le32 superblock 16
  shift_counters superblock 12 4 (blocks, inodes) blocks_delta inodes_delta

def update_free_counters (metadata : Metadata) (descriptor : Buffer) (blocks_delta inodes_delta : Int) :
    Ext2M Unit :=
  if blocks_delta = 0 ∧ inodes_delta = 0 then
    return ()
  else do
    let descriptor ← shift_descriptor descriptor blocks_delta inodes_delta
    let superblock ← read_block metadata metadata.first_data_block
    let superblock ← shift_superblock superblock blocks_delta inodes_delta
    unchecked (metadata.first_data_block + 1 < 2 ^ 32)
    write_through metadata (metadata.first_data_block + 1) descriptor
    write_through metadata metadata.first_data_block superblock

/-- `i32::try_from`. -/
def checked_i32 (value : Nat) : Option Nat := if value < 2 ^ 31 then some value else none

def free_data_blocks (metadata : Metadata) (blocks : List Nat) : Ext2M Unit :=
  if blocks = [] then
    return ()
  else do
    let tables ← read_allocation_tables metadata
    let block_bitmap ← release_blocks metadata tables.block_bitmap blocks
    write_through metadata tables.block_bitmap_number block_bitmap
    let count ← okOr (checked_i32 blocks.length) InvalidFilesystem
    update_free_counters metadata tables.descriptor count 0

def push_unique_block (blocks : List Nat) (block : Nat) : Checked (List Nat) := do
  refuse (blocks.contains block) InvalidFilesystem
  return blocks ++ [block]

/-- The turns over a list of pointers: those that are not absent are collected. -/
def push_pointers (metadata : Metadata) : List Nat → List Nat → Checked (List Nat)
  | blocks, [] => return blocks
  | blocks, block :: rest =>
    if block = 0 then
      push_pointers metadata blocks rest
    else do
      refuse (metadata.blocks_count ≤ block) InvalidFilesystem
      let blocks ← push_unique_block blocks block
      push_pointers metadata blocks rest

/-- `le32(&pointers, index * 4)` for every index up to the capacity of a block. -/
def pointers_of (metadata : Metadata) (pointers : Buffer) : Checked (List Nat) := do
  unchecked (metadata.block_size / 4 * 4 ≤ pointers.length)
  return (List.range (metadata.block_size / 4)).map fun index => pointers.bytes.word32 (index * 4)

/-- Collect a pointer block: what it points to, then the block itself. -/
def push_indirect (metadata : Metadata) (blocks : List Nat) (indirect : Nat) : Reader (List Nat) :=
  if indirect = 0 then
    return blocks
  else do
    refuse (metadata.blocks_count ≤ indirect) InvalidFilesystem
    let pointers ← read_block metadata indirect
    let pointers ← pointers_of metadata pointers
    let blocks ← push_pointers metadata blocks pointers
    push_unique_block blocks indirect

/-- Collect pointer blocks one after another. -/
def push_leaves (metadata : Metadata) : List Nat → List Nat → Reader (List Nat)
  | blocks, [] => return blocks
  | blocks, leaf :: rest => do
    let blocks ← push_indirect metadata blocks leaf
    push_leaves metadata blocks rest

def push_double_indirect (metadata : Metadata) (blocks : List Nat) (double_indirect : Nat) : Reader (List Nat) :=
  if double_indirect = 0 then
    return blocks
  else do
    refuse (metadata.blocks_count ≤ double_indirect) InvalidFilesystem
    let root ← read_block metadata double_indirect
    let leaves ← pointers_of metadata root
    let blocks ← push_leaves metadata blocks leaves
    push_unique_block blocks double_indirect

/-- The room that `collect_file_allocations` asks for. -/
def allocation_capacity (metadata : Metadata) (inode : Inode) : Checked Nat := do
  let pointer_capacity := metadata.block_size / 4
  let with_single := DIRECT_BLOCKS + (if inode.single_indirect ≠ 0 then pointer_capacity + 1 else 0)
  let with_single ← okOr (checked_usize with_single) AllocationFailed
  okOr (checked_usize (with_single +
    (if inode.double_indirect ≠ 0 then pointer_capacity * pointer_capacity + (pointer_capacity + 1) else 0)))
    AllocationFailed

/-- `inode.size > (double_indirect_capacity(metadata)? * metadata.block_size) as u64`. -/
def check_file_size (metadata : Metadata) (inode : Inode) : Checked Unit := do
  let capacity ← double_indirect_capacity metadata
  unchecked (capacity * metadata.block_size < 2 ^ 64)
  refuse (capacity * metadata.block_size < inode.size) UnsupportedFeature

def collect_file_allocations (metadata : Metadata) (inode : Inode) : Reader (List Nat) := do
  check_file_size metadata inode
  let _ ← allocation_capacity metadata inode
  try_reserve
  let blocks ← push_pointers metadata [] (List.ofFn inode.blocks)
  let blocks ← push_indirect metadata blocks inode.single_indirect
  push_double_indirect metadata blocks inode.double_indirect

end leafos.fs.ext2
