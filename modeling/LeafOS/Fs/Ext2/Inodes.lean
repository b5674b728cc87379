import LeafOS.Fs.Ext2.Mount

namespace leafos.fs.ext2

open leafos.drivers.ata Ext2Error
open Outcome (refuse okOr)

def Inode.is_dir (inode : Inode) : Bool := inode.mode &&& 0xf000 == 0x4000

def Inode.is_file (inode : Inode) : Bool := inode.mode &&& 0xf000 == 0x8000

/-- Where the code finds an inode: its block, and its offset there. -/
structure InodePlace where
  block_number : Nat
  within_block : Nat

/-- The block of a group's descriptor and the offset of the descriptor there. -/
def descriptor_place (metadata : Metadata) (group : Nat) : Checked InodePlace := do
  refuse (metadata.group_count ≤ group) InvalidFilesystem
  let descriptor_table ← okOr (checked_u32 (metadata.first_data_block + 1)) InvalidFilesystem
  let byte_offset ← okOr (checked_usize (group * 32)) InvalidFilesystem
  unchecked (metadata.block_size ≠ 0)
  let block_offset ← okOr (checked_u32 (byte_offset / metadata.block_size)) InvalidFilesystem
  let descriptor_block ← okOr (checked_u32 (descriptor_table + block_offset)) InvalidFilesystem
  return ⟨descriptor_block, byte_offset % metadata.block_size⟩

/-- The number of the first block of a group's inode table. -/
def read_group_descriptor (metadata : Metadata) (group : Nat) : Reader Nat := do
  let place ← descriptor_place metadata group
  let output ← read_block metadata place.block_number
  let inode_table ← le32 output (place.within_block + 8)
  refuse (metadata.blocks_count ≤ inode_table) InvalidFilesystem
  return inode_table

/-- The whole inode table lies on the disk. -/
def check_inode_table (metadata : Metadata) (inode_table : Nat) : Checked Unit := do
  unchecked (1 ≤ metadata.block_size)
  let table_bytes ← okOr (checked_usize (metadata.inodes_per_group * metadata.inode_size)) InvalidFilesystem
  let rounded ← okOr (checked_usize (table_bytes + (metadata.block_size - 1))) InvalidFilesystem
  let table_end ← okOr (checked_usize (inode_table + rounded / metadata.block_size)) InvalidFilesystem
  refuse (metadata.blocks_count < table_end) InvalidFilesystem

def inode_place (metadata : Metadata) (inode_table local_index : Nat) : Checked InodePlace := do
  let inode_offset ← okOr (checked_usize (local_index * metadata.inode_size)) InvalidFilesystem
  unchecked (metadata.block_size ≠ 0)
  let block_delta ← okOr (checked_u32 (inode_offset / metadata.block_size)) InvalidFilesystem
  let block_number ← okOr (checked_u32 (inode_table + block_delta)) InvalidFilesystem
  return ⟨block_number, inode_offset % metadata.block_size⟩

/-- A block pointer that is neither absent nor on the disk. -/
def out_of_range (metadata : Metadata) (block : Nat) : Bool := block != 0 && metadata.blocks_count ≤ block

/-- Only regular files have the upper half of their size in the inode. -/
def raw_size (metadata : Metadata) (raw : Buffer) : Checked Nat := do
  let low_size ← le32 raw 4
  let mode ← le16 raw 0
  if mode &&& 0xf000 = 0x8000 ∧ 112 ≤ metadata.inode_size then do
    let high_size ← le32 raw 108
    return low_size + high_size * 2 ^ 32
  else
    return low_size

/-- The direct block pointers. -/
def raw_pointers (metadata : Metadata) (raw : Buffer) : Checked (Fin DIRECT_BLOCKS → Nat) := do
  unchecked (INODE_BLOCK_POINTERS_OFFSET + DIRECT_BLOCKS * 4 ≤ raw.length)
  let blocks := fun index : Fin DIRECT_BLOCKS => raw.bytes.word32 (INODE_BLOCK_POINTERS_OFFSET + index * 4)
  refuse ((List.finRange DIRECT_BLOCKS).any fun index => out_of_range metadata (blocks index)) InvalidFilesystem
  return blocks

/-- `read_inode` once the inode's bytes are there. -/
def parse_inode (metadata : Metadata) (raw : Buffer) : Checked Inode := do
  let size ← raw_size metadata raw
  let blocks ← raw_pointers metadata raw
  let single_indirect ← le32 raw (INODE_BLOCK_POINTERS_OFFSET + DIRECT_BLOCKS * 4)
  refuse (out_of_range metadata single_indirect) InvalidFilesystem
  let double_indirect ← le32 raw (INODE_BLOCK_POINTERS_OFFSET + (DIRECT_BLOCKS + 1) * 4)
  refuse (out_of_range metadata double_indirect) InvalidFilesystem
  let mode ← le16 raw 0
  let links ← le16 raw 26
  let allocated_blocks_512 ← le32 raw 28
  return { mode, links, size, allocated_blocks_512, blocks, single_indirect, double_indirect }

def read_inode (metadata : Metadata) (inode_number : Nat) : Reader Inode := do
  refuse (inode_number == 0 || metadata.inodes_count < inode_number) InvalidFilesystem
  let inode_index := inode_number - 1
  unchecked (metadata.inodes_per_group ≠ 0)
  let inode_table ← read_group_descriptor metadata (inode_index / metadata.inodes_per_group)
  check_inode_table metadata inode_table
  let place ← inode_place metadata inode_table (inode_index % metadata.inodes_per_group)
  let block ← read_block metadata place.block_number
  unchecked (place.within_block + metadata.inode_size < 2 ^ 64)
  refuse (metadata.block_size < place.within_block + metadata.inode_size) InvalidFilesystem
  let raw ← (block.slice place.within_block (place.within_block + metadata.inode_size) : Checked Buffer)
  parse_inode metadata raw

/-- `if condition { buffer[first..last].fill(0) }`. -/
def clear_if (condition : Bool) (buffer : Buffer) (first last : Nat) : Checked Buffer :=
  if condition then buffer.clear first last else pure buffer

/-- The bytes that `write_inode_fields` leaves in an inode. -/
def set_inode_fields (metadata : Metadata) (raw : Buffer) (inode : Inode) (is_new : Bool) : Checked Buffer := do
  let raw ← clear_if is_new raw 0 raw.length
  let raw ← raw.copy_from_slice 0 (Bytes.encode 2 inode.mode)
  let raw ← raw.copy_from_slice 4 (Bytes.encode 4 inode.size)
  let raw ← raw.copy_from_slice 26 (Bytes.encode 2 inode.links)
  let raw ← clear_if (112 ≤ metadata.inode_size) raw 108 112
  let raw ← raw.copy_from_slice 28 (Bytes.encode 4 inode.allocated_blocks_512)
  let raw ← raw.put_words INODE_BLOCK_POINTERS_OFFSET (List.ofFn inode.blocks)
  let single_offset := INODE_BLOCK_POINTERS_OFFSET + DIRECT_BLOCKS * 4
  let raw ← raw.copy_from_slice single_offset (Bytes.encode 4 inode.single_indirect)
  raw.copy_from_slice (single_offset + 4) (Bytes.encode 4 inode.double_indirect)

/-- The block that `write_inode_fields` writes, and its new bytes. -/
def patch_inode_block (metadata : Metadata) (inode_number : Nat) (inode : Inode) (is_new : Bool) :
    Reader (Nat × Buffer) := do
  let inode_index ← okOr (checked_sub inode_number 1) InvalidFilesystem
  unchecked (metadata.inodes_per_group ≠ 0)
  let inode_table ← read_group_descriptor metadata (inode_index / metadata.inodes_per_group)
  let place ← inode_place metadata inode_table (inode_index % metadata.inodes_per_group)
  unchecked (place.within_block + metadata.inode_size < 2 ^ 64)
  refuse (metadata.block_size < place.within_block + metadata.inode_size) InvalidFilesystem
  let block ← read_block metadata place.block_number
  let raw ← (block.slice place.within_block (place.within_block + metadata.inode_size) : Checked Buffer)
  let raw ← set_inode_fields metadata raw inode is_new
  return (place.block_number, block.splice place.within_block raw)

/-- `write_inode_fields`; the fields to write come as an `Inode`. -/
def write_inode_fields (metadata : Metadata) (inode_number : Nat) (inode : Inode) (is_new : Bool) :
    Ext2M Unit := do
  let (block_number, block) ← patch_inode_block metadata inode_number inode is_new
  write_through metadata block_number block

def inode_block_count (metadata : Metadata) (inode : Inode) : Checked Nat := do
  let size ← okOr (checked_usize inode.size) UnsupportedFeature
  unchecked (metadata.block_size ≠ 0)
  let block_count := size / metadata.block_size + (if size % metadata.block_size ≠ 0 then 1 else 0)
  let pointers_per_block := metadata.block_size / 4
  let max_blocks ← okOr
    (checked_usize (DIRECT_BLOCKS + pointers_per_block + pointers_per_block * pointers_per_block)) UnsupportedFeature
  refuse (max_blocks < block_count) UnsupportedFeature
  return block_count

/-- The pointer blocks that a walk over an inode's blocks has read last, and their numbers. -/
structure PointerCache where
  indirect_data : Buffer
  cached_indirect_block : Nat
  double_indirect_data : Buffer
  cached_double_indirect_block : Nat

def PointerCache.new : PointerCache := ⟨zeroed_block, 0, zeroed_block, 0⟩

def PointerCache.load_indirect (metadata : Metadata) (cache : PointerCache) (block : Nat) : Reader PointerCache :=
  if cache.cached_indirect_block ≠ block then do
    let indirect_data ← read_block metadata block
    return { cache with indirect_data, cached_indirect_block := block }
  else
    return cache

def PointerCache.load_double_indirect (metadata : Metadata) (cache : PointerCache) (block : Nat) :
    Reader PointerCache :=
  if cache.cached_double_indirect_block ≠ block then do
    let double_indirect_data ← read_block metadata block
    return { cache with double_indirect_data, cached_double_indirect_block := block, cached_indirect_block := 0 }
  else
    return cache

def single_indirect_data_block (metadata : Metadata) (inode : Inode) (indirect_index : Nat)
    (cache : PointerCache) : Reader (Nat × PointerCache) :=
  if inode.single_indirect = 0 then
    return (0, cache)
  else do
    let cache ← cache.load_indirect metadata inode.single_indirect
    let block ← le32 cache.indirect_data (indirect_index * 4)
    return (block, cache)

/-- A pointer block found in a double-indirect block. -/
def leaf_data_block (metadata : Metadata) (indirect_block inner_index : Nat) (cache : PointerCache) :
    Reader (Nat × PointerCache) :=
  if indirect_block = 0 then
    return (0, cache)
  else do
    refuse (metadata.blocks_count ≤ indirect_block) InvalidFilesystem
    let cache ← cache.load_indirect metadata indirect_block
    let block ← le32 cache.indirect_data (inner_index * 4)
    return (block, cache)

def double_indirect_data_block (metadata : Metadata) (inode : Inode) (outer_index inner_index : Nat)
    (cache : PointerCache) : Reader (Nat × PointerCache) := do
  refuse (metadata.block_size / 4 ≤ outer_index) UnsupportedFeature
  if inode.double_indirect = 0 then
    return (0, cache)
  else do
    let cache ← cache.load_double_indirect metadata inode.double_indirect
    let indirect_block ← le32 cache.double_indirect_data (outer_index * 4)
    leaf_data_block metadata indirect_block inner_index cache

/-- The part of `inode_data_block` past the direct blocks. -/
def indirect_data_block (metadata : Metadata) (inode : Inode) (indirect_index : Nat) (cache : PointerCache) :
    Reader (Nat × PointerCache) :=
  let pointers_per_block := metadata.block_size / 4
  if indirect_index < pointers_per_block then
    single_indirect_data_block metadata inode indirect_index cache
  else do
    unchecked (pointers_per_block ≠ 0)
    let double_index := indirect_index - pointers_per_block
    double_indirect_data_block metadata inode (double_index / pointers_per_block)
      (double_index % pointers_per_block) cache

def inode_data_block (metadata : Metadata) (inode : Inode) (logical_index : Nat) (cache : PointerCache) :
    Reader (Nat × PointerCache) :=
  if hindex : logical_index < DIRECT_BLOCKS then
    return (inode.blocks ⟨logical_index, hindex⟩, cache)
  else do
    let (block, cache) ← indirect_data_block metadata inode (logical_index - DIRECT_BLOCKS) cache
    refuse (out_of_range metadata block) InvalidFilesystem
    return (block, cache)

end leafos.fs.ext2
