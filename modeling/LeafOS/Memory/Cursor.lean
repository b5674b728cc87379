import LeafOS.Memory.FrameAllocator
import LeafOS.Support.Pool

namespace leafos.memory.BootInfoFrameAllocator

open leafos.memory

/-- The test that the cursor applies to an address before it hands it out. -/
def usable (self : BootInfoFrameAllocator) (address : Nat) : Bool :=
  address < self.physical_limit && !self.reserved_ranges.any fun range => range.contains address

/-- The usable frames of one descriptor from a page on. -/
def frames_from (self : BootInfoFrameAllocator) (index first_page : Nat) : List PhysFrame :=
  match read_descriptor self.memory_map self.descriptor_size index with
  | some descriptor =>
    if descriptor.memory_type = EFI_CONVENTIONAL_MEMORY then
      ((List.range' first_page (descriptor.number_of_pages - first_page)).map
        fun page => descriptor.physical_start + page * PAGE_SIZE).filter self.usable
    else
      []
  | none => []

/-- The frames ahead of the cursor, in the order in which it reaches them. -/
def unvisited (self : BootInfoFrameAllocator) : List PhysFrame :=
  (List.range' self.descriptor_index (self.descriptor_count - self.descriptor_index)).flatMap
    fun index => self.frames_from index (if index = self.descriptor_index then self.page_index else 0)

/-- The allocator with its cursor somewhere else. -/
def moved (self : BootInfoFrameAllocator) (descriptor_index page_index : Nat) : BootInfoFrameAllocator :=
  { self with descriptor_index, page_index }

/-- The reclaimed frames in the first `count` slots, the last one first. -/
def stack_upto (frames : Fin RECLAIMED_FRAME_CAPACITY → Option PhysFrame) : Nat → List PhysFrame
  | 0 => []
  | count + 1 =>
    (if bound : count < RECLAIMED_FRAME_CAPACITY then (frames ⟨count, bound⟩).toList else []) ++
      stack_upto frames count

def stack (self : BootInfoFrameAllocator) : List PhysFrame :=
  stack_upto self.reclaimed_frames self.reclaimed_count

/-- Every descriptor of the map can be read, and the end of its region is a 64-bit number. -/
def Readable (allocator : BootInfoFrameAllocator) : Prop :=
  ∀ index < allocator.descriptor_count, ∃ descriptor,
    read_descriptor allocator.memory_map allocator.descriptor_size index = some descriptor ∧
      descriptor.physical_start + descriptor.number_of_pages * PAGE_SIZE < 2 ^ 64

/-- What construction establishes about the map and the reserved ranges, and
every later call leaves alone. -/
structure Mapped (allocator : BootInfoFrameAllocator) : Prop where
  limit_le : allocator.physical_limit ≤ 2 ^ 52
  readable : ∀ index < allocator.descriptor_count, ∃ descriptor,
    read_descriptor allocator.memory_map allocator.descriptor_size index = some descriptor ∧
      descriptor.physical_start % PAGE_SIZE = 0 ∧
      descriptor.physical_start + descriptor.number_of_pages * PAGE_SIZE ≤ allocator.physical_limit
  disjoint : ∀ index < allocator.descriptor_count, ∀ other < index, ∀ descriptor sibling,
    read_descriptor allocator.memory_map allocator.descriptor_size index = some descriptor →
    read_descriptor allocator.memory_map allocator.descriptor_size other = some sibling →
      descriptor.physical_start + descriptor.number_of_pages * PAGE_SIZE ≤ sibling.physical_start ∨
        sibling.physical_start + sibling.number_of_pages * PAGE_SIZE ≤ descriptor.physical_start
  reserved_aligned : ∀ range ∈ allocator.reserved_ranges,
    range.start % PAGE_SIZE = 0 ∧ range.stop % PAGE_SIZE = 0

theorem Mapped.in_range {allocator : BootInfoFrameAllocator} (hmapped : allocator.Mapped) : allocator.Readable := by
  intro index hindex
  obtain ⟨descriptor, hread, _, hend⟩ := hmapped.readable index hindex
  have hlimit := hmapped.limit_le
  exact ⟨descriptor, hread, by omega⟩

/-- Every slot below the count of reclaimed frames is filled. -/
structure Stacked (allocator : BootInfoFrameAllocator) : Prop where
  count_le : allocator.reclaimed_count ≤ RECLAIMED_FRAME_CAPACITY
  filled : ∀ slot : Fin RECLAIMED_FRAME_CAPACITY, slot.val < allocator.reclaimed_count →
    (allocator.reclaimed_frames slot).isSome

section Cursor

variable {self : BootInfoFrameAllocator} {descriptor : EfiMemoryDescriptor} {turns : Nat}

theorem moved_mapped (hmapped : self.Mapped) (descriptor_index page_index : Nat) :
    (self.moved descriptor_index page_index).Mapped :=
  { hmapped with }

theorem unvisited_of_done (hdone : ¬ self.descriptor_index < self.descriptor_count) : self.unvisited = [] := by
  have hzero : self.descriptor_count - self.descriptor_index = 0 := by omega
  simp [unvisited, hzero]

/-- The frames ahead are those of the current descriptor and those of the rest. -/
theorem unvisited_step (hindex : self.descriptor_index < self.descriptor_count) :
    self.unvisited = self.frames_from self.descriptor_index self.page_index ++
      (self.moved (self.descriptor_index + 1) 0).unvisited := by
  have hlength : self.descriptor_count - self.descriptor_index =
      self.descriptor_count - (self.descriptor_index + 1) + 1 := by omega
  rw [unvisited, hlength, List.range'_succ, List.flatMap_cons, if_pos rfl]
  congr 1
  refine List.flatMap_congr fun index hmem => ?_
  have hlow := (List.mem_range'_1.mp hmem).1
  rw [if_neg (by omega)]
  show _ = self.frames_from index (if index = self.descriptor_index + 1 then 0 else 0)
  rw [ite_self]

theorem frames_from_skip
    (hread : read_descriptor self.memory_map self.descriptor_size self.descriptor_index = some descriptor)
    (hskip : descriptor.memory_type ≠ EFI_CONVENTIONAL_MEMORY ∨ descriptor.number_of_pages ≤ self.page_index) :
    self.frames_from self.descriptor_index self.page_index = [] := by
  simp only [frames_from, hread]
  obtain htype | hpages := hskip
  · rw [if_neg htype]
  · simp [Nat.sub_eq_zero_of_le hpages]

section Page

variable (hread : read_descriptor self.memory_map self.descriptor_size self.descriptor_index = some descriptor)
  (htype : descriptor.memory_type = EFI_CONVENTIONAL_MEMORY) (hpage : self.page_index < descriptor.number_of_pages)
include hread htype hpage

theorem frames_from_page : self.frames_from self.descriptor_index self.page_index =
      [descriptor.physical_start + self.page_index * PAGE_SIZE].filter self.usable ++
        self.frames_from self.descriptor_index (self.page_index + 1) := by
  have hlength : descriptor.number_of_pages - self.page_index =
      descriptor.number_of_pages - (self.page_index + 1) + 1 := by omega
  simp only [frames_from, hread, if_pos htype, hlength, List.range'_succ, List.map_cons]
  rw [← List.filter_append, List.singleton_append]

/-- Passing one page of a conventional descriptor. -/
theorem unvisited_page (hindex : self.descriptor_index < self.descriptor_count) :
    self.unvisited = [descriptor.physical_start + self.page_index * PAGE_SIZE].filter self.usable ++
      (self.moved self.descriptor_index (self.page_index + 1)).unvisited := by
  have hrest : (self.moved self.descriptor_index (self.page_index + 1)).unvisited =
      self.frames_from self.descriptor_index (self.page_index + 1) ++
        (self.moved (self.descriptor_index + 1) 0).unvisited := unvisited_step hindex
  rw [unvisited_step hindex, frames_from_page hread htype hpage, hrest, List.append_assoc]

end Page

/-- The address under the cursor is computed without overflow, is aligned, and its
page ends below the limit. -/
theorem cursor_address (hmapped : self.Mapped) {index page : Nat} (hindex : index < self.descriptor_count)
    (hread : read_descriptor self.memory_map self.descriptor_size index = some descriptor)
    (hpage : page < descriptor.number_of_pages) :
    (checked_mul page PAGE_SIZE).bind (checked_add descriptor.physical_start) =
        some (descriptor.physical_start + page * PAGE_SIZE) ∧
      descriptor.physical_start + page * PAGE_SIZE + PAGE_SIZE ≤ self.physical_limit ∧
      (descriptor.physical_start + page * PAGE_SIZE) % PAGE_SIZE = 0 := by
  obtain ⟨found, hfound, haligned, hend⟩ := hmapped.readable index hindex
  obtain rfl := Option.mem_unique hread hfound
  have hlimit := hmapped.limit_le
  have hinside : descriptor.physical_start + page * PAGE_SIZE + PAGE_SIZE ≤ self.physical_limit := by
    have hpages : (page + 1) * PAGE_SIZE ≤ descriptor.number_of_pages * PAGE_SIZE :=
      Nat.mul_le_mul_right _ hpage
    rw [Nat.succ_mul] at hpages
    omega
  refine ⟨?_, hinside, ?_⟩
  · have hpositive : 0 < PAGE_SIZE := by decide
    rw [checked_mul, if_pos (by omega), Option.bind_some, checked_add, if_pos (by omega)]
  · rw [Nat.add_mul_mod_self_right, haligned]

/-- The turns left from a state of the loop: what `turns` says, less the pages of
the current descriptor that were passed. -/
def TurnsLeft (self : BootInfoFrameAllocator) (turns : Nat) : Prop :=
  self.turns ≤ turns + if self.descriptor_index < self.descriptor_count then
    min self.page_index (self.pages_of self.descriptor_index) else 0

section Turn

variable (hindex : self.descriptor_index < self.descriptor_count)
include hindex

theorem turns_step : self.turns = self.pages_of self.descriptor_index + 1 +
      (self.moved (self.descriptor_index + 1) 0).turns := by
  have hlength : self.descriptor_count - self.descriptor_index =
      self.descriptor_count - (self.descriptor_index + 1) + 1 := by omega
  rw [turns, hlength, List.range'_succ, List.map_cons, List.sum_cons, Nat.add_assoc]
  rfl

theorem TurnsLeft.skip (hturns : self.TurnsLeft (turns + 1)) :
    (self.moved (self.descriptor_index + 1) 0).TurnsLeft turns := by
  rw [TurnsLeft, if_pos hindex, turns_step hindex] at hturns
  have hmin := Nat.min_le_right self.page_index (self.pages_of self.descriptor_index)
  exact Nat.le_trans (by omega) (Nat.le_add_right turns _)

theorem TurnsLeft.page (hturns : self.TurnsLeft (turns + 1))
    (hpage : self.page_index < self.pages_of self.descriptor_index) :
    (self.moved self.descriptor_index (self.page_index + 1)).TurnsLeft turns := by
  rw [TurnsLeft, if_pos hindex, Nat.min_eq_left (Nat.le_of_lt hpage)] at hturns
  have hmin : min (self.page_index + 1) (self.pages_of self.descriptor_index) = self.page_index + 1 :=
    Nat.min_eq_left hpage
  show self.turns ≤ turns + if self.descriptor_index < self.descriptor_count then
    min (self.page_index + 1) (self.pages_of self.descriptor_index) else 0
  rw [if_pos hindex, hmin]
  omega

end Turn

/-- There is always a turn left for the final test. -/
theorem TurnsLeft.pos (hturns : self.TurnsLeft turns) : 0 < turns := by
  rw [TurnsLeft] at hturns
  by_cases hindex : self.descriptor_index < self.descriptor_count
  · rw [if_pos hindex, turns_step hindex] at hturns
    omega
  · rw [if_neg hindex, BootInfoFrameAllocator.turns] at hturns
    omega

/-- The loop hands out the first frame ahead of the cursor and moves the cursor
just past it; it never panics. -/
theorem advance_spec (hturns : self.TurnsLeft turns) (hmapped : self.Mapped) :
    ∃ descriptor_index page_index, advance turns self =
      (.ok self.unvisited.head?, self.moved descriptor_index page_index) ∧
        (self.moved descriptor_index page_index).unvisited = self.unvisited.tail := by
  induction turns generalizing self with
  | zero => exact absurd hturns.pos (Nat.lt_irrefl 0)
  | succ turns ih =>
    by_cases hindex : self.descriptor_index < self.descriptor_count
    swap
    · refine ⟨self.descriptor_index, self.page_index, ?_, ?_⟩
      · rw [unvisited_of_done hindex, advance, if_neg hindex]
        rfl
      · rw [unvisited_of_done hindex, unvisited_of_done]
        · rfl
        · exact hindex
    obtain ⟨descriptor, hread, _⟩ := hmapped.readable _ hindex
    have hpages : self.pages_of self.descriptor_index = descriptor.number_of_pages := by
      simp [pages_of, hread]
    simp only [advance, if_pos hindex, hread]
    by_cases hskip : descriptor.memory_type ≠ EFI_CONVENTIONAL_MEMORY ∨
        descriptor.number_of_pages ≤ self.page_index
    · rw [if_pos hskip]
      have hunvisited : self.unvisited = (self.moved (self.descriptor_index + 1) 0).unvisited := by
        rw [unvisited_step hindex, frames_from_skip hread hskip, List.nil_append]
      rw [hunvisited]
      exact ih (hturns.skip hindex) (moved_mapped hmapped _ _)
    · rw [if_neg hskip]
      simp only [not_or, not_not, Nat.not_le] at hskip
      obtain ⟨haddress, hbelow, haligned⟩ := cursor_address hmapped hindex hread hskip.2
      have hlimit := hmapped.limit_le
      simp only [haddress]
      by_cases hrefused : self.physical_limit ≤ descriptor.physical_start + self.page_index * PAGE_SIZE ∨
          (self.reserved_ranges.any fun range =>
            range.contains (descriptor.physical_start + self.page_index * PAGE_SIZE)) = true
      · rw [if_pos hrefused]
        have hunusable : self.usable (descriptor.physical_start + self.page_index * PAGE_SIZE) = false := by
          rw [usable, Bool.and_eq_false_iff, decide_eq_false_iff_not, Nat.not_lt, Bool.not_eq_false']
          exact hrefused
        have hunvisited : self.unvisited =
            (self.moved self.descriptor_index (self.page_index + 1)).unvisited := by
          rw [unvisited_page hread hskip.1 hskip.2 hindex, List.filter_cons_of_neg (by simp [hunusable])]
          rfl
        rw [hunvisited]
        exact ih (hturns.page hindex (hpages ▸ hskip.2)) (moved_mapped hmapped _ _)
      · rw [if_neg hrefused]
        have hpositive : 0 < PAGE_SIZE := by decide
        have husable : self.usable (descriptor.physical_start + self.page_index * PAGE_SIZE) = true := by
          simp only [not_or, Nat.not_le, Bool.not_eq_true] at hrefused
          simp [usable, hrefused]
        have hunvisited : self.unvisited = (descriptor.physical_start + self.page_index * PAGE_SIZE) ::
            (self.moved self.descriptor_index (self.page_index + 1)).unvisited := by
          rw [unvisited_page hread hskip.1 hskip.2 hindex, List.filter_cons_of_pos husable]
          rfl
        rw [if_neg (by omega), if_pos haligned, hunvisited]
        exact ⟨self.descriptor_index, self.page_index + 1, rfl, rfl⟩

theorem turnsLeft_turns (self : BootInfoFrameAllocator) : self.TurnsLeft self.turns :=
  Nat.le_add_right _ _

/-- What the frames of a descriptor are. -/
theorem mem_frames_from {frame : PhysFrame} {index first_page : Nat}
    (hframe : frame ∈ self.frames_from index first_page) :
    ∃ descriptor page, read_descriptor self.memory_map self.descriptor_size index = some descriptor ∧
      descriptor.memory_type = EFI_CONVENTIONAL_MEMORY ∧ page < descriptor.number_of_pages ∧
      frame = descriptor.physical_start + page * PAGE_SIZE ∧ self.usable frame = true := by
  unfold frames_from at hframe
  cases hread : read_descriptor self.memory_map self.descriptor_size index with
  | none => simp [hread] at hframe
  | some descriptor =>
    simp only [hread] at hframe
    by_cases htype : descriptor.memory_type = EFI_CONVENTIONAL_MEMORY
    · rw [if_pos htype, List.mem_filter, List.mem_map] at hframe
      obtain ⟨⟨page, hpage, rfl⟩, husable⟩ := hframe
      obtain ⟨hlow, hhigh⟩ := List.mem_range'_1.mp hpage
      exact ⟨descriptor, page, rfl, htype, by omega, rfl, husable⟩
    · simp [if_neg htype] at hframe

theorem mem_unvisited {frame : PhysFrame} (hmem : frame ∈ self.unvisited) :
    ∃ index first_page, index < self.descriptor_count ∧ frame ∈ self.frames_from index first_page := by
  obtain ⟨index, hindex, hframe⟩ := List.mem_flatMap.mp hmem
  obtain ⟨hlow, hhigh⟩ := List.mem_range'_1.mp hindex
  exact ⟨index, _, by omega, hframe⟩

theorem frames_from_nodup (index first_page : Nat) : (self.frames_from index first_page).Nodup := by
  unfold frames_from
  cases read_descriptor self.memory_map self.descriptor_size index with
  | none => exact List.nodup_nil
  | some descriptor =>
    by_cases htype : descriptor.memory_type = EFI_CONVENTIONAL_MEMORY
    · simp only [if_pos htype]
      refine (List.Nodup.map ?_ (List.nodup_range' 1)).filter _
      intro page other hsame
      have hpositive : 0 < PAGE_SIZE := by decide
      exact Nat.eq_of_mul_eq_mul_right hpositive (Nat.add_left_cancel hsame)
    · simp [if_neg htype]

/-- The cursor never meets a frame twice. -/
theorem unvisited_nodup (hmapped : self.Mapped) : self.unvisited.Nodup := by
  refine List.nodup_flatMap.mpr ⟨fun index _ => frames_from_nodup _ _, ?_⟩
  refine List.Pairwise.imp_of_mem ?_ (List.pairwise_lt_range' 1)
  intro index other hindex hother hlt frame hleft hright
  obtain ⟨descriptor, page, hread, _, hpage, rfl, _⟩ := mem_frames_from hleft
  obtain ⟨sibling, page', hsibling, _, hpage', hsame, _⟩ := mem_frames_from hright
  obtain ⟨hlow, hhigh⟩ := List.mem_range'_1.mp hother
  have hframe : descriptor.physical_start + page * PAGE_SIZE =
      sibling.physical_start + page' * PAGE_SIZE := hsame
  have hpositive : 0 < PAGE_SIZE := by decide
  have hinside := Nat.mul_lt_mul_of_pos_right hpage hpositive
  have hinside' := Nat.mul_lt_mul_of_pos_right hpage' hpositive
  obtain hapart | hapart := hmapped.disjoint other (by omega) index hlt sibling descriptor hsibling hread
  all_goals omega

end Cursor

end leafos.memory.BootInfoFrameAllocator
