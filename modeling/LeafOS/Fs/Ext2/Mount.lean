import LeafOS.Fs.Ext2

namespace leafos.fs.ext2

open leafos.drivers.ata Ext2Error
open Outcome (refuse okOr)

/-- The fields of the superblock that depend on its revision are read as 0 in revision 0. -/
def revision_field (superblock : Buffer) (revision offset : Nat) : Checked Nat :=
  if revision = 0 then pure 0 else le32 superblock offset

def superblock_inode_size (superblock : Buffer) (revision : Nat) : Checked Nat :=
  if revision = 0 then pure 128 else le16 superblock 88

/-- `value & !known` on `u32`. -/
def unknown_bits (value known : Nat) : Nat := value &&& (0xffffffff ^^^ known)

/-- `blocks_count - first_data_block` and `inodes_count` in groups, rounded up. -/
def groups_of (count per_group : Nat) : Checked Nat := do
  unchecked (1 ≤ per_group)
  let rounded ← okOr (checked_u32 (count + (per_group - 1))) InvalidFilesystem
  return rounded / per_group

/-- `mount` once the superblock has been read. -/
def parse_superblock (superblock : Buffer) : Checked Metadata := do
  let magic ← le16 superblock 56
  refuse (magic != 0xef53) InvalidFilesystem
  let log_block_size ← le32 superblock 24
  let log_fragment_size ← le32 superblock 28
  refuse (2 < log_block_size) UnsupportedFeature
  refuse (log_fragment_size != log_block_size) UnsupportedFeature
  let block_size := 1024 <<< log_block_size
  let blocks_count ← le32 superblock 4
  let inodes_count ← le32 superblock 0
  let first_data_block ← le32 superblock 20
  let blocks_per_group ← le32 superblock 32
  let inodes_per_group ← le32 superblock 40
  let revision ← le32 superblock 76
  let inode_size ← superblock_inode_size superblock revision
  let incompat_features ← revision_field superblock revision 96
  let compat_features ← revision_field superblock revision 92
  let read_only_features ← revision_field superblock revision 100
  unchecked (block_size * 8 < 2 ^ 32)
  refuse (blocks_count == 0 || inodes_count < ROOT_INODE || blocks_per_group == 0 || inodes_per_group == 0 ||
    first_data_block ≥ blocks_count || block_size * 8 < blocks_per_group || block_size * 8 < inodes_per_group ||
    !(128 ≤ inode_size && inode_size ≤ block_size) || block_size % inode_size != 0 || 1 < revision ||
    (block_size == 1024 && first_data_block != 1) || (1024 < block_size && first_data_block != 0)) InvalidFilesystem
  refuse (unknown_bits incompat_features FEATURE_INCOMPAT_FILETYPE != 0 ||
    unknown_bits compat_features (FEATURE_COMPAT_EXT_ATTR ||| FEATURE_COMPAT_RESIZE_INODE) != 0 ||
    unknown_bits read_only_features (FEATURE_RO_COMPAT_SPARSE_SUPER ||| FEATURE_RO_COMPAT_LARGE_FILE) != 0)
    UnsupportedFeature
  let data_blocks ← okOr (checked_sub blocks_count first_data_block) InvalidFilesystem
  let block_groups ← groups_of data_blocks blocks_per_group
  let inode_groups ← groups_of inodes_count inodes_per_group
  let group_count := max block_groups inode_groups
  refuse (group_count == 0 || MAX_GROUPS < group_count) UnsupportedFeature
  unchecked (1 ≤ block_size)
  let descriptor_bytes ← okOr (checked_u32 (group_count * 32 + (block_size - 1))) InvalidFilesystem
  let descriptor_blocks := descriptor_bytes / block_size
  let descriptor_end ← okOr (checked_u32 (first_data_block + 1 + descriptor_blocks)) InvalidFilesystem
  refuse (blocks_count < descriptor_end) InvalidFilesystem
  let sectors_per_block ← disk_block_size block_size
  let disk_sectors ← okOr (checked_u32 (blocks_count * sectors_per_block)) InvalidFilesystem
  refuse (0x10000000 < disk_sectors) UnsupportedFeature
  return { block_size, blocks_count, inodes_count, first_data_block, blocks_per_group, inodes_per_group,
           inode_size, group_count, incompat_features }

def mount : Reader Metadata := do
  let superblock_lba := SUPERBLOCK_OFFSET / 512
  let bytes ← read_sectors ⟨superblock_lba, 2, SUPERBLOCK_SIZE⟩
  parse_superblock ⟨SUPERBLOCK_SIZE, bytes⟩

def metadata (ext2 : Mounted) : Checked Metadata := do
  let result ← okOr ext2 NotInitialized
  match result with
  | .ok metadata => return metadata
  | .error error => .err error

end leafos.fs.ext2
