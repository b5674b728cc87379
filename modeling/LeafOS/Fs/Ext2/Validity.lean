import LeafOS.Fs.Ext2.Files
import Mathlib.Tactic.IntervalCases

namespace leafos.fs.ext2

open leafos.drivers.ata Ext2Error
open Outcome (refuse okOr)

variable {offset : Nat} {Q : Nat → Prop} {superblock : Buffer} {revision : Nat}

/-- What a successful `mount` has checked. -/
structure Metadata.Valid (metadata : Metadata) : Prop where
  block_size : metadata.block_size = 1024 ∨ metadata.block_size = 2048 ∨ metadata.block_size = 4096
  disk_sectors : metadata.blocks_count * (metadata.block_size / 512) ≤ 0x10000000
  first_data_block : metadata.first_data_block ≤ 1
  descriptors : metadata.first_data_block + 1 < metadata.blocks_count
  inodes_count : metadata.inodes_count < 2 ^ 32
  blocks_per_group : 1 ≤ metadata.blocks_per_group ∧ metadata.blocks_per_group ≤ metadata.block_size * 8
  inodes_per_group : 1 ≤ metadata.inodes_per_group ∧ metadata.inodes_per_group ≤ metadata.block_size * 8
  inode_size : 128 ≤ metadata.inode_size ∧ metadata.inode_size ≤ metadata.block_size
  inode_size_dvd : metadata.inode_size ∣ metadata.block_size

/-- Whatever the device answers to it, an access does no harm. -/
def Access.Allowed : Access → Prop
  | .read_sectors request => validate_request request = .ok ()
  | .try_reserve => True

/-- The error of a request that the driver does not accept. -/
def Refused (error : Ext2Error) : Prop := error = .Disk .InvalidRequest

/-- An error that the code itself reports. -/
class Ext2Error.Harmless (error : Ext2Error) : Prop where
  ne_refused : ¬ Refused error

namespace Ext2Error

theorem ne_refused (error : Ext2Error) [error.Harmless] : ¬ Refused error := Harmless.ne_refused

instance : Harmless InvalidFilesystem := ⟨nofun⟩
instance : Harmless InvalidPath := ⟨nofun⟩
instance : Harmless NotFound := ⟨nofun⟩
instance : Harmless FileTooLarge := ⟨nofun⟩
instance : Harmless UnsupportedFeature := ⟨nofun⟩
instance : Harmless NotInitialized := ⟨nofun⟩

end Ext2Error

/-- A part of the code that never panics, nor reports a refused request. -/
abbrev Checked.Safe {α : Type} (Q : α → Prop) (checked : Checked α) : Prop := Outcome.Safe Refused Q checked

/-- A reader that never panics and only sends requests that the driver accepts. -/
abbrev Reader.Safe {α : Type} (Q : α → Prop) (reader : Reader α) : Prop :=
  Inquiry.Safe Access.Allowed Refused Q reader

section Arithmetic

variable {error : Ext2Error} {buffer : Buffer}

@[simp] theorem safe_refuse {condition : Bool} [error.Harmless] {Q : Unit → Prop} :
    Outcome.Safe Refused Q (refuse condition error) ↔ (condition = false → Q ()) :=
  Outcome.safe_refuse error.ne_refused

@[simp] theorem safe_okOr {α : Type} {value : Option α} [error.Harmless] {Q : α → Prop} :
    Outcome.Safe Refused Q (okOr value error) ↔ ∀ result, value = some result → Q result :=
  Outcome.safe_okOr error.ne_refused

@[simp] theorem checked_u32_eq_some {value result : Nat} :
    checked_u32 value = some result ↔ value < 2 ^ 32 ∧ value = result := by
  simp [checked_u32]

@[simp] theorem safe_le16 : (le16 buffer offset).Safe Q ↔ offset + 2 ≤ buffer.length ∧ Q (buffer.bytes.word16 offset) :=
  Buffer.safe_le16

@[simp] theorem safe_le32 : (le32 buffer offset).Safe Q ↔ offset + 4 ≤ buffer.length ∧ Q (buffer.bytes.word32 offset) :=
  Buffer.safe_le32

@[simp] theorem safe_unchecked {condition : Prop} [Decidable condition] {Q : Unit → Prop} :
    (unchecked condition).Safe Q ↔ condition ∧ Q () :=
  Outcome.safe_unchecked

end Arithmetic

theorem safe_revision_field (hfits : offset + 4 ≤ superblock.length)
    (hvalue : ∀ value, value < 2 ^ 32 → Q value) : (revision_field superblock revision offset).Safe Q := by
  unfold revision_field
  split
  · exact hvalue 0 (by decide)
  · exact safe_le32.mpr ⟨hfits, hvalue _ (ByteMap.word32_lt _ _)⟩

theorem safe_superblock_inode_size (hfits : 90 ≤ superblock.length) (hvalue : ∀ value, Q value) :
    (superblock_inode_size superblock revision).Safe Q := by
  unfold superblock_inode_size
  split
  · exact hvalue 128
  · exact safe_le16.mpr ⟨hfits, hvalue _⟩

theorem safe_groups_of {count per_group : Nat} (hgroup : 1 ≤ per_group)
    (hvalue : ∀ value, Q value) : (groups_of count per_group).Safe Q := by
  simp [groups_of, hgroup, hvalue]

theorem safe_disk_block_size {block_size : Nat} (hvalue : Q (block_size / 512)) :
    (disk_block_size block_size).Safe Q := by
  simp only [disk_block_size, safe_okOr]
  intro sectors hsectors
  split at hsectors
  · cases hsectors
    exact hvalue
  · cases hsectors

theorem shifted_block_size {log_block_size : Nat} (hlog : decide (2 < log_block_size) = false) :
    1024 <<< log_block_size = 1024 ∨ 1024 <<< log_block_size = 2048 ∨ 1024 <<< log_block_size = 4096 := by
  have hle : log_block_size ≤ 2 := by simpa using hlog
  interval_cases log_block_size <;> simp

/-- `mount` accepts only metadata that the rest of the code can rely on. -/
theorem parse_superblock_safe (hlength : superblock.length = 1024) :
    (parse_superblock superblock).Safe Metadata.Valid := by
  have hinodes := superblock.bytes.word32_lt 0
  simp only [parse_superblock, Outcome.safe_bind, safe_le16, safe_le32, safe_refuse, hlength]
  refine ⟨by decide, fun _ => ⟨by decide, by decide, fun hlog _ => ⟨by decide, by decide, by decide, by decide,
    by decide, by decide, ?_⟩⟩⟩
  refine safe_superblock_inode_size (by omega) fun inode_size => ?_
  refine safe_revision_field (by omega) fun incompat _ => ?_
  refine safe_revision_field (by omega) fun compat _ => ?_
  refine safe_revision_field (by omega) fun read_only _ => ?_
  have hblock_size := shifted_block_size hlog
  generalize 1024 <<< superblock.bytes.word32 24 = block_size at hblock_size ⊢
  simp only [safe_unchecked, safe_okOr, Bool.or_eq_false_iff, Bool.not_eq_false', Bool.and_eq_true,
    decide_eq_true_eq, decide_eq_false_iff_not, beq_eq_false_iff_ne, bne_eq_false_iff_eq, ge_iff_le]
  refine ⟨by omega, ?_⟩
  rintro ⟨⟨⟨⟨⟨⟨⟨⟨⟨⟨⟨hblocks, hroot⟩, hblock_group⟩, hinode_group⟩, hfirst⟩, hblock_group_le⟩, hinode_group_le⟩,
    hinode_size⟩, hmultiple⟩, hrevision⟩, hfirst_small⟩, hfirst_large⟩ - data_blocks -
  refine safe_groups_of (by omega) fun block_groups => safe_groups_of (by omega) fun inode_groups => ?_
  intro hgroups
  refine ⟨by omega, fun descriptor_bytes hbytes descriptor_end hend hfits => ?_⟩
  rw [checked_u32_eq_some] at hbytes hend
  refine safe_disk_block_size fun disk_sectors hsectors hdisk => ?_
  rw [checked_u32_eq_some] at hsectors
  have hdescriptor_blocks : 1 ≤ descriptor_bytes / block_size :=
    (Nat.one_le_div_iff (by omega)).mpr (by omega)
  have hfirst_le : superblock.bytes.word32 20 ≤ 1 := by
    simp only [Bool.and_eq_false_iff, beq_eq_false_iff_ne, bne_eq_false_iff_eq, decide_eq_false_iff_not]
      at hfirst_small hfirst_large
    omega
  have hdisk_le : superblock.bytes.word32 4 * (block_size / 512) ≤ 0x10000000 := by omega
  have hdescriptors : superblock.bytes.word32 20 + 1 < superblock.bytes.word32 4 := by omega
  exact ⟨hblock_size, hdisk_le, hfirst_le, hdescriptors, hinodes,
    ⟨Nat.one_le_iff_ne_zero.mpr hblock_group, Nat.not_lt.mp hblock_group_le⟩,
    ⟨Nat.one_le_iff_ne_zero.mpr hinode_group, Nat.not_lt.mp hinode_group_le⟩, hinode_size,
    Nat.dvd_of_mod_eq_zero hmultiple⟩

theorem mount_safe : Reader.Safe Metadata.Valid mount :=
  ⟨rfl, fun _ => parse_superblock_safe rfl⟩

end leafos.fs.ext2
