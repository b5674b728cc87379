import LeafOS.Memory.Heap
import LeafOS.Memory.FrameRuns
import Mathlib.Order.Interval.Finset.Nat

namespace leafos.memory

open Outcome

variable {lo hi a b c start : Nat} {Later : Nat → Prop}

/-- The sweep over intervals that are sorted by their starts. Past the cursor `c`, the points
that the next interval or a later one covers are those of the next one, and those of the later
ones past its end. -/
theorem card_sweep [DecidablePred Later] (hlater : ∀ k, Later k → a ≤ k) :
    ((Finset.Ico lo hi).filter fun k => c ≤ k ∧ (a ≤ k ∧ k < b ∨ Later k)).card =
      (min hi b - max (max lo a) c) + ((Finset.Ico lo hi).filter fun k => max c (min hi b) ≤ k ∧ Later k).card := by
  have hsplit : ((Finset.Ico lo hi).filter fun k => c ≤ k ∧ (a ≤ k ∧ k < b ∨ Later k)) =
      Finset.Ico (max (max lo a) c) (min hi b) ∪
        (Finset.Ico lo hi).filter fun k => max c (min hi b) ≤ k ∧ Later k := by
    ext k
    have hk := hlater k
    simp only [Finset.mem_filter, Finset.mem_union, Finset.mem_Ico, max_le_iff, lt_min_iff]
    by_cases hcovered : Later k
    · have hle := hk hcovered
      simp only [hcovered, or_true, and_true]
      omega
    · simp only [hcovered, or_false, and_false]
      omega
  rw [hsplit, Finset.card_union_of_disjoint, Nat.card_Ico]
  rw [Finset.disjoint_left]
  intro k hk hrest
  rw [Finset.mem_Ico] at hk
  rw [Finset.mem_filter] at hrest
  have := hrest.2.1
  omega

/-- An interval that does not meet the range leaves the cursor where it is. -/
theorem filter_of_apart [DecidablePred Later] (hlater : ∀ k, Later k → a ≤ k) (hapart : ¬ max lo a < min hi b) :
    ((Finset.Ico lo hi).filter fun k => max c (min hi b) ≤ k ∧ Later k) =
      (Finset.Ico lo hi).filter fun k => c ≤ k ∧ Later k := by
  apply Finset.filter_congr
  intro k hk
  rw [Finset.mem_Ico] at hk
  constructor
  · rintro ⟨hle, hcovered⟩
    exact ⟨by omega, hcovered⟩
  · rintro ⟨hle, hcovered⟩
    have := hlater k hcovered
    exact ⟨by omega, hcovered⟩

namespace BootInfoFrameAllocator

variable {ranges : List PhysicalRange} {boot self : BootInfoFrameAllocator}
  {pool : Pool PhysFrame RECLAIMED_FRAME_CAPACITY}

/-- The page is in one of the ranges. -/
def reserved (ranges : List PhysicalRange) (page : Nat) : Bool :=
  ranges.any fun range => range.contains (page * PAGE_SIZE)

theorem reserved_cons {stop page : Nat} :
    reserved (⟨start * PAGE_SIZE, stop * PAGE_SIZE⟩ :: ranges) page = true ↔
      start ≤ page ∧ page < stop ∨ reserved ranges page = true := by
  have hpositive : 0 < PAGE_SIZE := by decide
  simp only [reserved, List.any_cons, Bool.or_eq_true, PhysicalRange.contains, Bool.and_eq_true, decide_eq_true_eq,
    Nat.mul_le_mul_right_iff hpositive, Nat.mul_lt_mul_right hpositive]

/-- The inner loop of `available_frame_count` takes off the reserved pages past the cursor, each
of them once. -/
theorem unreserved_pages_eq (lo hi pages cursor : Nat)
    (hsorted : ranges.Pairwise fun range other => range.start ≤ other.start)
    (haligned : ∀ range ∈ ranges, range.start % PAGE_SIZE = 0 ∧ range.stop % PAGE_SIZE = 0) :
    unreserved_pages ⟨lo * PAGE_SIZE, hi * PAGE_SIZE⟩ ranges pages (cursor * PAGE_SIZE) =
      pages - ((Finset.Ico lo hi).filter fun page => cursor ≤ page ∧ reserved ranges page = true).card := by
  induction ranges generalizing pages cursor with
  | nil => simp [unreserved_pages, reserved]
  | cons range ranges ih =>
    obtain ⟨hfirst, hrest⟩ := List.pairwise_cons.mp hsorted
    obtain ⟨⟨hstart, hstop⟩, halignedRest⟩ := List.forall_mem_cons.mp haligned
    obtain ⟨start, stop⟩ := range
    obtain ⟨start, rfl⟩ := Nat.dvd_of_mod_eq_zero hstart
    obtain ⟨stop, rfl⟩ := Nat.dvd_of_mod_eq_zero hstop
    rw [Nat.mul_comm PAGE_SIZE start, Nat.mul_comm PAGE_SIZE stop] at hfirst ⊢
    have hpositive : 0 < PAGE_SIZE := by decide
    -- The later ranges start no earlier.
    have hlater : ∀ page, reserved ranges page = true → start ≤ page := by
      intro page hpage
      obtain ⟨other, hother, hcontains⟩ := List.any_eq_true.mp hpage
      have hle := hfirst other hother
      simp only [PhysicalRange.contains, Bool.and_eq_true, decide_eq_true_eq] at hcontains
      exact Nat.le_of_mul_le_mul_right (Nat.le_trans hle hcontains.1) hpositive
    simp only [unreserved_pages, reserved_cons, card_sweep hlater, Nat.mul_max_mul_right, Nat.mul_min_mul_right,
      Nat.mul_lt_mul_right hpositive, ← Nat.sub_mul, Nat.mul_div_cancel _ hpositive]
    split
    · rw [ih _ _ hrest halignedRest, ← Nat.sub_sub]
      congr 1
      split
      · rfl
      · omega
    · next hapart =>
      rw [ih _ _ hrest halignedRest, filter_of_apart hlater hapart]
      omega

theorem card_filter_Ico (lo hi : Nat) (test : Nat → Bool) :
    ((Finset.Ico lo hi).filter fun page => test page = true).card = (List.range' lo (hi - lo)).countP test := by
  rw [List.countP_eq_length_filter]
  simp [Finset.card, Finset.filter, Nat.Ico_eq_range']

section Counting

/-- The frames of a conventional descriptor are its pages from `first_page` on that are not
reserved. -/
theorem frames_from_length (hmapped : self.Mapped) {index first_page : Nat} {descriptor : EfiMemoryDescriptor}
    (hindex : index < self.descriptor_count)
    (hread : read_descriptor self.memory_map self.descriptor_size index = some descriptor)
    (htype : descriptor.memory_type = EFI_CONVENTIONAL_MEMORY) (hstart : descriptor.physical_start = start * PAGE_SIZE) :
    (self.frames_from index first_page).length = descriptor.number_of_pages - first_page -
      ((Finset.Ico (start + first_page) (start + descriptor.number_of_pages)).filter
        fun page => reserved self.reserved_ranges page = true).card := by
  have husable : ∀ page ∈ List.range' first_page (descriptor.number_of_pages - first_page),
      self.usable (descriptor.physical_start + page * PAGE_SIZE) = !reserved self.reserved_ranges (start + page) := by
    intro page hpage
    obtain ⟨hpast, hlast⟩ := List.mem_range'_1.mp hpage
    have hinside := (cursor_address hmapped hindex hread (show page < descriptor.number_of_pages by omega)).2.1
    have hpositive : 0 < PAGE_SIZE := by decide
    have hlimit : descriptor.physical_start + page * PAGE_SIZE < self.physical_limit := by omega
    rw [usable, hstart, ← Nat.add_mul] at *
    simp only [hlimit, decide_true, Bool.true_and, reserved]
  have hcount : (self.frames_from index first_page).length =
      (List.range' (start + first_page) (descriptor.number_of_pages - first_page)).countP
        fun page => !reserved self.reserved_ranges page := by
    simp only [frames_from, hread, if_pos htype, List.filter_map, List.length_map, ← List.countP_eq_length_filter]
    rw [← List.map_add_range', List.countP_map]
    exact List.countP_congr fun page hpage => by simp only [Function.comp_apply, husable page hpage]
  have hsplit := List.length_eq_countP_add_countP (reserved self.reserved_ranges)
    (l := List.range' (start + first_page) (descriptor.number_of_pages - first_page))
  have hsame : start + descriptor.number_of_pages - (start + first_page) = descriptor.number_of_pages - first_page := by
    omega
  rw [List.length_range'] at hsplit
  simp only [Bool.not_eq_true, Bool.decide_eq_false] at hsplit
  rw [card_filter_Ico, hcount, hsame]
  omega

/-- The loop over the descriptors adds up their frames. -/
theorem count_eq (hmapped : self.Mapped) {ε : Type} (hperm : ranges.Perm self.reserved_ranges)
    (hsorted : ranges.Pairwise fun range other => range.start ≤ other.start) {indices : List Nat} {total : Nat}
    (hindices : ∀ index ∈ indices, index < self.descriptor_count) (hbound : total + (indices.flatMap fun index =>
      self.frames_from index (if index = self.descriptor_index then self.page_index else 0)).length < 2 ^ 64) :
    (available_frame_count.count self ranges indices total : Outcome ε Nat) =
      .ok (total + (indices.flatMap fun index =>
        self.frames_from index (if index = self.descriptor_index then self.page_index else 0)).length) := by
  induction indices generalizing total with
  | nil => rfl
  | cons index rest ih =>
    obtain ⟨hindex, hrest⟩ := List.forall_mem_cons.mp hindices
    obtain ⟨descriptor, hread, haligned, hregion⟩ := hmapped.readable index hindex
    have hlimit := hmapped.limit_le
    rw [List.flatMap_cons, List.length_append] at hbound ⊢
    generalize hfirst : (if index = self.descriptor_index then self.page_index else 0) = first_page at hbound ⊢
    simp only [available_frame_count.count, hread, hfirst, expect, bind, Outcome.bind]
    by_cases hskip : descriptor.memory_type ≠ EFI_CONVENTIONAL_MEMORY ∨ descriptor.number_of_pages ≤ first_page
    · have hnone : self.frames_from index first_page = [] := by
        simp only [frames_from, hread]
        rcases hskip with htype | hpages
        · rw [if_neg htype]
        · simp [Nat.sub_eq_zero_of_le hpages]
      rw [if_pos hskip, hnone, List.length_nil, Nat.zero_add]
      rw [hnone, List.length_nil, Nat.zero_add] at hbound
      exact ih hrest hbound
    · simp only [not_or, not_not, Nat.not_le] at hskip
      obtain ⟨start, hstart⟩ := Nat.dvd_of_mod_eq_zero haligned
      rw [Nat.mul_comm] at hstart
      have hinside : first_page * PAGE_SIZE ≤ descriptor.number_of_pages * PAGE_SIZE :=
        Nat.mul_le_mul_right _ (Nat.le_of_lt hskip.2)
      have hoffset : checked_mul first_page PAGE_SIZE = some (first_page * PAGE_SIZE) :=
        checked_mul_eq_some.mpr ⟨by omega, rfl⟩
      have hbegin : checked_add descriptor.physical_start (first_page * PAGE_SIZE) =
          some ((start + first_page) * PAGE_SIZE) :=
        checked_add_eq_some.mpr ⟨by omega, by rw [hstart, Nat.add_mul]⟩
      have hsize : checked_mul descriptor.number_of_pages PAGE_SIZE =
          some (descriptor.number_of_pages * PAGE_SIZE) := checked_mul_eq_some.mpr ⟨by omega, rfl⟩
      have hstop : checked_add descriptor.physical_start (descriptor.number_of_pages * PAGE_SIZE) =
          some ((start + descriptor.number_of_pages) * PAGE_SIZE) :=
        checked_add_eq_some.mpr ⟨by omega, by rw [hstart, Nat.add_mul]⟩
      have halignedRanges : ∀ range ∈ ranges, range.start % PAGE_SIZE = 0 ∧ range.stop % PAGE_SIZE = 0 :=
        fun range hrange => hmapped.reserved_aligned range (hperm.mem_iff.mp hrange)
      have hreserved : reserved ranges = reserved self.reserved_ranges := by
        funext page
        exact hperm.any_eq
      -- Every page of the range is past the cursor the loop starts with.
      have hpast : ((Finset.Ico (start + first_page) (start + descriptor.number_of_pages)).filter
          fun page => start + first_page ≤ page ∧ reserved ranges page = true) =
          (Finset.Ico (start + first_page) (start + descriptor.number_of_pages)).filter
            fun page => reserved self.reserved_ranges page = true := by
        apply Finset.filter_congr
        intro page hpage
        rw [hreserved]
        exact and_iff_right (Finset.mem_Ico.mp hpage).1
      have hpages := unreserved_pages_eq (start + first_page) (start + descriptor.number_of_pages)
        (descriptor.number_of_pages - first_page) (start + first_page) hsorted halignedRanges
      rw [hpast, ← frames_from_length hmapped hindex hread hskip.1 hstart] at hpages
      rw [if_neg (by simp [hskip])]
      simp only [hoffset, hbegin, hsize, hstop, hpages]
      rw [Nat.min_eq_left (by omega), ih hrest (by omega), Nat.add_assoc]

/-- A frame is below the limit, so the frames ahead of the cursor are few. -/
theorem unvisited_length_le (hmapped : self.Mapped) : self.unvisited.length ≤ self.physical_limit := by
  have hbelow : self.unvisited ⊆ List.range self.physical_limit := by
    intro frame hframe
    obtain ⟨index, first_page, _, hfrom⟩ := mem_unvisited hframe
    obtain ⟨_, _, _, _, _, _, husable⟩ := mem_frames_from hfrom
    simp only [usable, Bool.and_eq_true, decide_eq_true_eq] at husable
    exact List.mem_range.mpr husable.1
  simpa using (List.subperm_of_subset (unvisited_nodup hmapped) hbelow).length_le

/-- The count is the number of frames in the pool. -/
theorem Refines.available_frame_count (hrefines : self.Refines boot pool) (ε : Type) :
    (self.available_frame_count : Outcome ε Nat) = .ok pool.free.length := by
  have hfew := unvisited_length_le hrefines.mapped
  have hlimit := hrefines.mapped.limit_le
  have hstacked := hrefines.stacked.count_le
  have hcapacity : RECLAIMED_FRAME_CAPACITY = 260 := rfl
  have hindices : ∀ index ∈ List.range' self.descriptor_index (self.descriptor_count - self.descriptor_index),
      index < self.descriptor_count := by
    intro index hindex
    obtain ⟨hlow, hhigh⟩ := List.mem_range'_1.mp hindex
    omega
  have hsorted : (self.reserved_ranges.insertionSort fun range other => range.start ≤ other.start).Pairwise
      fun range other => range.start ≤ other.start := List.pairwise_insertionSort _ _
  rw [BootInfoFrameAllocator.available_frame_count,
    count_eq hrefines.mapped (List.perm_insertionSort _ _) hsorted hindices ?_]
  · rw [Pool.free, List.length_append, hrefines.returned_length, hrefines.fresh]
    rfl
  · show self.reclaimed_count + self.unvisited.length < 2 ^ 64
    omega

end Counting

/-- `calls` consecutive calls of `allocate_frame` return a frame, and the next returns none. -/
def Yields : Nat → BootInfoFrameAllocator → Prop
  | 0, self => (allocate_frame self).1 = .ok none
  | calls + 1, self => (∃ frame, (allocate_frame self).1 = .ok (some frame)) ∧ Yields calls (allocate_frame self).2

/-- A pool yields what is in it. -/
theorem Refines.yields (hrefines : self.Refines boot pool) : Yields pool.free.length self := by
  generalize hlength : pool.free.length = calls
  induction calls generalizing self pool with
  | zero =>
    obtain ⟨frame, rest, _, htake, _⟩ | ⟨_, after, hallocate, _⟩ := hrefines.allocate_frame
    · simp [Pool.take_free htake] at hlength
    · rw [Yields, hallocate]
  | succ calls ih =>
    obtain ⟨frame, rest, after, htake, hallocate, hafter⟩ | ⟨htake, _⟩ := hrefines.allocate_frame
    · rw [Pool.take_free htake, List.length_cons, Nat.succ_inj] at hlength
      rw [Yields, hallocate]
      exact ⟨⟨frame, rfl⟩, ih hafter hlength⟩
    · simp [Pool.take_eq_none htake] at hlength

/-- The calls that change the allocator. -/
inductive FrameCall where
  | allocate_frame
  | reclaim_frame (frame : PhysFrame)

def FrameCall.make : FrameCall → BootInfoFrameAllocator → BootInfoFrameAllocator
  | allocate_frame, self => (BootInfoFrameAllocator.allocate_frame self).2
  | reclaim_frame frame, self => (self.reclaim_frame frame).2

/-- Whatever is called, the allocator stays a pool. -/
theorem Refines.make
    (hrefines : self.Refines boot pool) (call : FrameCall) : ∃ rest, (call.make self).Refines boot rest := by
  cases call with
  | allocate_frame =>
    obtain ⟨_, rest, after, _, hallocate, hafter⟩ | ⟨_, after, hallocate, hafter⟩ := hrefines.allocate_frame
    · exact ⟨rest, by rw [FrameCall.make, hallocate]; exact hafter⟩
    · exact ⟨pool, by rw [FrameCall.make, hallocate]; exact hafter⟩
  | reclaim_frame frame =>
    obtain ⟨rest, after, _, hreclaim, hafter⟩ | ⟨_, hreclaim⟩ := hrefines.reclaim_frame frame
    · exact ⟨rest, by rw [FrameCall.make, hreclaim]; exact hafter⟩
    · exact ⟨pool, by rw [FrameCall.make, hreclaim]; exact hrefines⟩

theorem Refines.calls (hrefines : self.Refines boot pool) (calls : List FrameCall) :
    ∃ rest, (calls.foldl (fun self call => call.make self) self).Refines boot rest := by
  induction calls generalizing self pool with
  | nil => exact ⟨pool, hrefines⟩
  | cons call rest ih =>
    obtain ⟨after, hafter⟩ := hrefines.make call
    exact ih hafter

/-- `available_frame_count` is exact. Over every accepted map and any page-aligned reserved ranges,
after any calls of `allocate_frame` and `reclaim_frame`, it is the number of calls of
`allocate_frame` that return a frame before the first that returns none. A limit that
`physical_address_limit` returns is at most 52 bits wide. -/
theorem available_frame_count_exact (memory_map : List UInt8)
    (descriptor_size physical_limit descriptor_count : Nat) (reserved_ranges : List PhysicalRange)
    (calls : List FrameCall) (hlimit : physical_limit ≤ 2 ^ 52)
    (hvalid : validate_memory_map memory_map descriptor_size physical_limit = .ok descriptor_count)
    (haligned : ∀ range ∈ reserved_ranges, range.start % PAGE_SIZE = 0 ∧ range.stop % PAGE_SIZE = 0) :
    ∃ available, (BootInfoFrameAllocator.available_frame_count (calls.foldl (fun self call => call.make self)
        (of_map memory_map descriptor_size descriptor_count physical_limit reserved_ranges)) :
          Outcome MemoryError Nat) = .ok available ∧
      Yields available (calls.foldl (fun self call => call.make self)
        (of_map memory_map descriptor_size descriptor_count physical_limit reserved_ranges)) := by
  have hmapped := of_map_mapped hlimit hvalid haligned
  have hstart : (of_map memory_map descriptor_size descriptor_count physical_limit reserved_ranges).Refines
      (of_map memory_map descriptor_size descriptor_count physical_limit reserved_ranges)
      ⟨(of_map memory_map descriptor_size descriptor_count physical_limit reserved_ranges).unvisited, [],
        Nat.zero_le _⟩ := by
    exact ⟨.refl _, hmapped, ⟨Nat.zero_le _, by simp [of_map]⟩, rfl, rfl⟩
  obtain ⟨rest, hrest⟩ := hstart.calls calls
  exact ⟨rest.free.length, hrest.available_frame_count _, hrest.yields⟩

/-- Ranges that overlap each other, end past the region, lie outside it or are empty. -/
def sample_reserved : List PhysicalRange :=
  [⟨0x240000, 0x300000⟩, ⟨0x200000, 0x280000⟩, ⟨0x280000, 0x281000⟩, ⟨0, 0⟩, ⟨0x101000, 0x102000⟩, ⟨0x3ff000, 0x500000⟩]

theorem available_frame_count_exact_overlapping :
    Yields 254 ([.allocate_frame, .allocate_frame, .reclaim_frame 0x300000].foldl (fun self call => FrameCall.make call self)
      (of_map sample_map 40 1 (2 ^ 32) sample_reserved)) := by
  obtain ⟨available, hcount, hyields⟩ := available_frame_count_exact sample_map 40 (2 ^ 32) 1 sample_reserved
    [.allocate_frame, .allocate_frame, .reclaim_frame 0x300000] (by decide) (by decide +kernel) (by decide)
  have hvalue : (BootInfoFrameAllocator.available_frame_count
      ([.allocate_frame, .allocate_frame, .reclaim_frame 0x300000].foldl (fun self call => FrameCall.make call self)
        (of_map sample_map 40 1 (2 ^ 32) sample_reserved)) : Outcome MemoryError Nat) = .ok 254 := by decide +kernel
  rw [hvalue] at hcount
  obtain rfl := Outcome.ok.inj hcount
  exact hyields

end BootInfoFrameAllocator

end leafos.memory
