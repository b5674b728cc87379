import LeafOS.Fs.Ext2.Contents

namespace leafos.fs.ext2

open Ext2Error
open Outcome (ok_bind refuse_false safe_pure)
open Outcome (refuse okOr)

variable {next : List Nat → Reader (List Nat)}

section Meaning

variable (metadata : Metadata) (disk : ByteMap) (inode : Inode)

/-- The pointers of a pointer block that are not absent. An absent block has none. -/
def table_pointers (block : Nat) : List Nat :=
  ((List.range (metadata.block_size / 4)).map (pointer metadata disk block)).filter (· ≠ 0)

/-- A pointer block with what it points to. -/
def table_blocks (block : Nat) : List Nat :=
  if block = 0 then [] else table_pointers metadata disk block ++ [block]

/-- All pointers that are reachable from an inode, as often as they occur: the direct ones, those of the
single-indirect block and its own, and for the double-indirect block the same of each leaf table. Where the file ends
makes no difference. -/
def reachable_pointers : List Nat :=
  (List.ofFn inode.blocks).filter (· ≠ 0) ++ (table_blocks metadata disk inode.single_indirect ++
    if inode.double_indirect = 0 then []
    else (table_pointers metadata disk inode.double_indirect).flatMap (table_blocks metadata disk) ++
      [inode.double_indirect])

end Meaning

/-- What collecting more blocks comes to: it succeeds when they are on the disk and new. -/
def collected (metadata : Metadata) (blocks found : List Nat) : Checked (List Nat) :=
  if (∀ block ∈ found, block < metadata.blocks_count ∧ block ∉ blocks) ∧ found.Nodup then .ok (blocks ++ found)
  else .err InvalidFilesystem

section Collecting

variable {metadata : Metadata} {disk : ByteMap} {blocks : List Nat} {block : Nat} {found : List Nat}

theorem collected_nil : collected metadata blocks [] = .ok blocks := by simp [collected]

/-- Blocks that are collected one part after the other. -/
theorem collected_append (first second : List Nat) :
    collected metadata blocks (first ++ second) =
      collected metadata blocks first >>= fun blocks => collected metadata blocks second := by
  unfold collected
  by_cases hfirst : (∀ block ∈ first, block < metadata.blocks_count ∧ block ∉ blocks) ∧ first.Nodup
  · rw [if_pos hfirst, ok_bind, List.append_assoc]
    congr 1
    obtain ⟨hfresh, hnodup⟩ := hfirst
    simp only [List.mem_append, List.nodup_append, eq_iff_iff]
    constructor
    · rintro ⟨hall, -, hsecond, hapart⟩
      refine ⟨fun block hblock => ⟨(hall block (.inr hblock)).1, ?_⟩, hsecond⟩
      rintro (hold | hnew)
      · exact (hall block (.inr hblock)).2 hold
      · exact hapart block hnew block hblock rfl
    · rintro ⟨hall, hsecond⟩
      refine ⟨?_, hnodup, hsecond, ?_⟩
      · rintro block (hblock | hblock)
        · exact hfresh block hblock
        · exact ⟨(hall block hblock).1, fun hold => (hall block hblock).2 (.inl hold)⟩
      · rintro block hblock other hother rfl
        exact (hall block hother).2 (.inr hblock)
  · rw [if_neg hfirst, if_neg]
    · rfl
    · rintro ⟨hall, hnodup⟩
      exact hfirst ⟨fun block hblock => hall block (List.mem_append_left _ hblock), (List.nodup_append.mp hnodup).1⟩

/-- A block that is not on the disk cannot be collected. -/
theorem collected_of_past (hmem : block ∈ found)
    (hpast : metadata.blocks_count ≤ block) : collected metadata blocks found = .err InvalidFilesystem := by
  apply if_neg
  rintro ⟨hall, -⟩
  have hblock := (hall block hmem).1
  omega

theorem push_unique_block_eq (hblock : block < metadata.blocks_count) :
    push_unique_block blocks block = collected metadata blocks [block] := by
  unfold push_unique_block collected
  by_cases hold : block ∈ blocks
  · rw [if_neg (by simp [hold])]
    simp [refuse, hold]
  · rw [if_pos (by simp [hold, hblock])]
    simp [refuse, hold, pure]

theorem push_pointers_eq (pointers : List Nat) :
    push_pointers metadata blocks pointers = collected metadata blocks (pointers.filter (· ≠ 0)) := by
  induction pointers generalizing blocks with
  | nil => exact collected_nil.symm
  | cons block rest ih =>
    unfold push_pointers
    by_cases habsent : block = 0
    · rw [if_pos habsent, ih, List.filter_cons_of_neg (by simpa using habsent)]
    · rw [if_neg habsent, List.filter_cons_of_pos (by simpa using habsent)]
      by_cases hpast : metadata.blocks_count ≤ block
      · rw [decide_eq_true hpast, collected_of_past List.mem_cons_self hpast]
        rfl
      · rw [decide_eq_false hpast, refuse_false, ok_bind, push_unique_block_eq (Nat.not_le.mp hpast)]
        simp only [ih]
        exact (collected_append [block] _).symm

variable (hvalid : metadata.Valid)
include hvalid

/-- The pointers that are read from a block on the disk. -/
theorem pointers_of_disk_block (hblock : block ≠ 0) :
    pointers_of metadata (disk_block metadata disk block) =
      .ok ((List.range (metadata.block_size / 4)).map (pointer metadata disk block)) := by
  have hsize := hvalid.block_size
  have hlength : (disk_block metadata disk block).length = 4096 := rfl
  rw [pointers_of, unchecked, Outcome.unchecked, Outcome.guarded, if_pos (by omega), ok_bind]
  refine congrArg Outcome.ok (List.map_congr_left fun index hindex => ?_)
  rw [List.mem_range] at hindex
  rw [word32_disk_block (by omega), pointer, if_neg hblock]

/-- A pointer block that is collected: something is done with its pointers, and then it is added itself. -/
theorem read_table_on_disk (hblock : block ≠ 0)
    (hnext : on_disk disk (next ((List.range (metadata.block_size / 4)).map (pointer metadata disk block))) =
      collected metadata blocks found) :
    on_disk disk (do
      refuse (metadata.blocks_count ≤ block) InvalidFilesystem
      let pointers ← read_block metadata block
      let pointers ← pointers_of metadata pointers
      let blocks ← next pointers
      push_unique_block blocks block) = collected metadata blocks (found ++ [block]) := by
  simp only [on_disk_bind, on_disk_lift, read_block_on_disk hvalid]
  by_cases hpast : metadata.blocks_count ≤ block
  · rw [decide_eq_true hpast, collected_of_past (List.mem_append_right _ List.mem_cons_self) hpast]
    rfl
  · rw [decide_eq_false hpast, refuse_false, ok_bind, if_pos (Nat.not_le.mp hpast), ok_bind,
      pointers_of_disk_block hvalid hblock, ok_bind, hnext, collected_append]
    simp only [push_unique_block_eq (Nat.not_le.mp hpast)]

theorem push_indirect_on_disk (indirect : Nat) :
    on_disk disk (push_indirect metadata blocks indirect) =
      collected metadata blocks (table_blocks metadata disk indirect) := by
  unfold push_indirect table_blocks
  split_ifs with habsent
  · exact collected_nil.symm
  · exact read_table_on_disk hvalid habsent (push_pointers_eq _)

theorem push_leaves_on_disk (leaves : List Nat) :
    on_disk disk (push_leaves metadata blocks leaves) =
      collected metadata blocks ((leaves.filter (· ≠ 0)).flatMap (table_blocks metadata disk)) := by
  induction leaves generalizing blocks with
  | nil => exact collected_nil.symm
  | cons leaf rest ih =>
    simp only [push_leaves, on_disk_bind, push_indirect_on_disk hvalid, ih]
    by_cases habsent : leaf = 0
    · rw [List.filter_cons_of_neg (by simpa using habsent), table_blocks, if_pos habsent, collected_nil, ok_bind]
    · rw [List.filter_cons_of_pos (by simpa using habsent), List.flatMap_cons, collected_append]

theorem push_double_indirect_on_disk (double_indirect : Nat) :
    on_disk disk (push_double_indirect metadata blocks double_indirect) =
      collected metadata blocks (if double_indirect = 0 then []
        else (table_pointers metadata disk double_indirect).flatMap (table_blocks metadata disk) ++ [double_indirect]) := by
  unfold push_double_indirect
  split_ifs with habsent
  · exact collected_nil.symm
  · exact read_table_on_disk hvalid habsent (push_leaves_on_disk hvalid _)

end Collecting

section Safety

variable {metadata : Metadata}

theorem push_unique_block_safe (blocks : List Nat) (block : Nat) :
    (push_unique_block blocks block).Safe fun _ => True := by
  simp only [push_unique_block, Outcome.safe_bind, safe_refuse, safe_pure]
  exact fun _ => trivial

theorem push_pointers_safe (pointers blocks : List Nat) :
    (push_pointers metadata blocks pointers).Safe fun _ => True := by
  induction pointers generalizing blocks with
  | nil => trivial
  | cons block rest ih =>
    unfold push_pointers
    split
    · exact ih blocks
    · simp only [Outcome.safe_bind, safe_refuse]
      exact fun _ => (push_unique_block_safe blocks block).mono fun _ _ => ih _

variable (hvalid : metadata.Valid)
include hvalid

theorem read_pointers_safe (block : Nat) (hnext : ∀ pointers, Reader.Safe (fun _ => True) (next pointers)) :
    Reader.Safe (fun _ => True) (do
      refuse (metadata.blocks_count ≤ block) InvalidFilesystem
      let pointers ← read_block metadata block
      let pointers ← pointers_of metadata pointers
      next pointers) := by
  have hsize := hvalid.block_size
  simp only [Reader.Safe, Inquiry.safe_bind, Inquiry.safe_lift, safe_refuse, pointers_of, Outcome.safe_bind,
    safe_unchecked, safe_pure]
  exact fun _ => (read_block_safe hvalid block).mono fun _ hlength => ⟨by omega, hnext _⟩

theorem push_indirect_safe (blocks : List Nat) (indirect : Nat) :
    Reader.Safe (fun _ => True) (push_indirect metadata blocks indirect) := by
  unfold push_indirect
  split
  · trivial
  · refine read_pointers_safe hvalid indirect fun pointers => ?_
    simp only [Reader.Safe, Inquiry.safe_bind, Inquiry.safe_lift]
    exact (push_pointers_safe pointers blocks).mono fun _ _ => push_unique_block_safe _ _

theorem push_leaves_safe (leaves blocks : List Nat) :
    Reader.Safe (fun _ => True) (push_leaves metadata blocks leaves) := by
  induction leaves generalizing blocks with
  | nil => trivial
  | cons leaf rest ih =>
    exact Inquiry.safe_bind.mpr ((push_indirect_safe hvalid blocks leaf).mono fun _ _ => ih _)

theorem push_double_indirect_safe (blocks : List Nat) (double_indirect : Nat) :
    Reader.Safe (fun _ => True) (push_double_indirect metadata blocks double_indirect) := by
  unfold push_double_indirect
  split
  · trivial
  · refine read_pointers_safe hvalid double_indirect fun leaves => ?_
    simp only [Reader.Safe, Inquiry.safe_bind, Inquiry.safe_lift]
    exact (push_leaves_safe hvalid leaves blocks).mono fun _ _ => push_unique_block_safe _ _

end Safety

section File

variable {metadata : Metadata} {inode : Inode}

/-- The number of blocks that the pointers of an inode can name. -/
def file_capacity (metadata : Metadata) : Nat :=
  DIRECT_BLOCKS + metadata.block_size / 4 + metadata.block_size / 4 * (metadata.block_size / 4)

variable (hvalid : metadata.Valid)
include hvalid

theorem double_indirect_capacity_eq : double_indirect_capacity metadata = .ok (file_capacity metadata) := by
  unfold double_indirect_capacity single_indirect_capacity file_capacity
  rcases hvalid.block_size with hsize | hsize | hsize <;> rw [hsize] <;> rfl

theorem allocation_capacity_ok (inode : Inode) : ∃ capacity, allocation_capacity metadata inode = .ok capacity := by
  unfold allocation_capacity
  rcases hvalid.block_size with hsize | hsize | hsize <;> rw [hsize] <;>
    by_cases hsingle : inode.single_indirect = 0 <;> by_cases hdouble : inode.double_indirect = 0 <;>
    simp [hsingle, hdouble, checked_usize, DIRECT_BLOCKS]

variable (hsize : inode.size ≤ file_capacity metadata * metadata.block_size)
include hsize

theorem check_file_size_ok : check_file_size metadata inode = .ok () := by
  have hbound : file_capacity metadata * metadata.block_size < 2 ^ 64 := by
    unfold file_capacity
    rcases hvalid.block_size with hblock | hblock | hblock <;> rw [hblock] <;> decide
  rw [check_file_size, double_indirect_capacity_eq hvalid, ok_bind, unchecked, Outcome.unchecked,
    Outcome.guarded, if_pos hbound, ok_bind, decide_eq_false (Nat.not_lt.mpr hsize)]
  rfl

theorem collect_file_allocations_on_disk (disk : ByteMap) :
    on_disk disk (collect_file_allocations metadata inode) =
      collected metadata [] (reachable_pointers metadata disk inode) := by
  obtain ⟨capacity, hcapacity⟩ := allocation_capacity_ok hvalid inode
  simp only [collect_file_allocations, on_disk_bind, on_disk_lift, check_file_size_ok hvalid hsize, hcapacity,
    try_reserve_on_disk, ok_bind, push_pointers_eq, push_indirect_on_disk hvalid,
    push_double_indirect_on_disk hvalid, reachable_pointers, collected_append]

theorem collect_file_allocations_safe : Reader.Safe (fun _ => True) (collect_file_allocations metadata inode) := by
  obtain ⟨capacity, hcapacity⟩ := allocation_capacity_ok hvalid inode
  simp only [collect_file_allocations, Reader.Safe, Inquiry.safe_bind, Inquiry.safe_lift,
    check_file_size_ok hvalid hsize, hcapacity, try_reserve]
  refine ⟨trivial, fun _ => (push_pointers_safe _ _).mono fun blocks _ => ?_⟩
  exact (push_indirect_safe hvalid _ _).mono fun blocks _ => push_double_indirect_safe hvalid _ _

end File

/-- `collect_file_allocations` returns exactly the blocks of a file. On a disk without faults, for every inode whose
size the pointers can cover, it succeeds when all reachable pointers are on the disk and no two of them are
the same, and then it returns each of them once. -/
theorem collect_file_allocations_exact {metadata : Metadata} (hvalid : metadata.Valid) {volume : Volume}
    (hfaults : volume.drive.faults = .none) {inode : Inode}
    (hsize : inode.size ≤ file_capacity metadata * metadata.block_size) :
    let reachable := reachable_pointers metadata volume.drive.bytes inode
    let result := ((collect_file_allocations metadata inode).run answer volume).1
    ((∃ blocks, result = .ok blocks) ↔ (∀ block ∈ reachable, block < metadata.blocks_count) ∧ reachable.Nodup) ∧
      ∀ blocks, result = .ok blocks → blocks.Nodup ∧ ∀ block, block ∈ blocks ↔ block ∈ reachable := by
  intro reachable result
  have hresult : result = collected metadata [] reachable :=
    (read_faultless (collect_file_allocations_safe hvalid hsize) hfaults).trans
      (collect_file_allocations_on_disk hvalid hsize volume.drive.bytes)
  rw [hresult, collected]
  simp only [List.not_mem_nil, not_false_eq_true, and_true, List.nil_append]
  split_ifs with haccepted
  · refine ⟨⟨fun _ => haccepted, fun _ => ⟨reachable, rfl⟩⟩, fun blocks hblocks => ?_⟩
    obtain rfl := Outcome.ok.inj hblocks
    exact ⟨haccepted.2, fun _ => Iff.rfl⟩
  · refine ⟨⟨?_, fun hall => absurd hall haccepted⟩, ?_⟩
    · rintro ⟨_, ⟨⟩⟩
    · rintro _ ⟨⟩

/-- One direct block and a pointer block are collected; where two ways lead to the same block the file is refused. -/
theorem collect_file_allocations_sample :
    (∃ blocks, ((collect_file_allocations sample_metadata
      { sample_file with blocks := first_block 30, double_indirect := 0 }).run answer sample_pointers).1 = .ok blocks) ∧
      ¬ ∃ blocks, ((collect_file_allocations sample_metadata sample_file).run answer sample_pointers).1 = .ok blocks := by
  have hfaults : sample_pointers.drive.faults = .none := rfl
  constructor
  all_goals
    rw [(collect_file_allocations_exact sample_metadata_valid hfaults (by decide)).1]
    decide +kernel

end leafos.fs.ext2
