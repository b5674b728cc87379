import LeafOS.Memory.Construction

namespace leafos.memory

open Outcome

namespace BootInfoFrameAllocator

variable {count : Nat} {self : BootInfoFrameAllocator}

section Stack

variable {frames : Fin RECLAIMED_FRAME_CAPACITY → Option PhysFrame}

/-- Slots at or above the count do not matter. -/
theorem stack_upto_update (slot : Fin RECLAIMED_FRAME_CAPACITY) (frame : Option PhysFrame) (hcount : count ≤ slot.val) :
    stack_upto (Function.update frames slot frame) count = stack_upto frames count := by
  induction count with
  | zero => rfl
  | succ count ih =>
    rw [stack_upto, stack_upto, ih (Nat.le_of_succ_le hcount)]
    by_cases hbound : count < RECLAIMED_FRAME_CAPACITY
    · have hne : (⟨count, hbound⟩ : Fin RECLAIMED_FRAME_CAPACITY) ≠ slot := by
        intro hsame
        have hvalue := congrArg Fin.val hsame
        simp only at hvalue
        omega
      simp only [hbound, dite_true, Function.update_of_ne hne]
    · simp only [hbound, dite_false]

theorem stack_upto_length (hcount : count ≤ RECLAIMED_FRAME_CAPACITY)
    (hfilled : ∀ slot : Fin RECLAIMED_FRAME_CAPACITY, slot.val < count → (frames slot).isSome) :
    (stack_upto frames count).length = count := by
  induction count with
  | zero => rfl
  | succ count ih =>
    obtain ⟨frame, hframe⟩ := Option.isSome_iff_exists.mp (hfilled ⟨count, hcount⟩ (Nat.lt_succ_self _))
    have hrest := ih (Nat.le_of_succ_le hcount) fun slot hslot => hfilled slot (Nat.lt_succ_of_lt hslot)
    have hbound : count < RECLAIMED_FRAME_CAPACITY := hcount
    simp [stack_upto, hbound, hframe, hrest]

/-- The filled part of the reclaim array, popped. -/
theorem stack_pop (hstacked : self.Stacked) (hcount : self.reclaimed_count = count + 1) :
    ∃ bound frame, self.reclaimed_frames ⟨count, bound⟩ = some frame ∧
      self.stack = frame :: stack_upto self.reclaimed_frames count := by
  have hbound : count < RECLAIMED_FRAME_CAPACITY := by
    have hle := hstacked.count_le
    omega
  obtain ⟨frame, hframe⟩ :=
    Option.isSome_iff_exists.mp (hstacked.filled ⟨count, hbound⟩ (hcount ▸ Nat.lt_succ_self count))
  exact ⟨hbound, frame, hframe, by simp [stack, hcount, stack_upto, hbound, hframe]⟩

end Stack

/-- Two states of one allocator: the memory map and what was computed from it at
boot are the same. -/
structure SameMap (allocator boot : BootInfoFrameAllocator) : Prop where
  memory_map : allocator.memory_map = boot.memory_map
  descriptor_size : allocator.descriptor_size = boot.descriptor_size
  descriptor_count : allocator.descriptor_count = boot.descriptor_count
  physical_limit : allocator.physical_limit = boot.physical_limit
  reserved_ranges : allocator.reserved_ranges = boot.reserved_ranges

theorem SameMap.refl (allocator : BootInfoFrameAllocator) : allocator.SameMap allocator :=
  ⟨rfl, rfl, rfl, rfl, rfl⟩

/-- The allocator, as booted, implements a pool: the frames ahead of the cursor are
the fresh ones, the reclaim array is the stack of returned ones. -/
structure Refines (allocator boot : BootInfoFrameAllocator)
    (pool : Pool PhysFrame RECLAIMED_FRAME_CAPACITY) : Prop where
  same : allocator.SameMap boot
  mapped : allocator.Mapped
  stacked : allocator.Stacked
  fresh : pool.fresh = allocator.unvisited
  returned : pool.returned = allocator.stack

/-- The free frames of an allocator. -/
def free_frames (self : BootInfoFrameAllocator) : List PhysFrame := self.stack ++ self.unvisited

section Refinement

variable {boot : BootInfoFrameAllocator} {pool : Pool PhysFrame RECLAIMED_FRAME_CAPACITY}

theorem Refines.free_frames (hrefines : self.Refines boot pool) : self.free_frames = pool.free := by
  rw [BootInfoFrameAllocator.free_frames, Pool.free, hrefines.returned, hrefines.fresh]

theorem Refines.returned_length (hrefines : self.Refines boot pool) : pool.returned.length = self.reclaimed_count := by
  rw [hrefines.returned]
  exact stack_upto_length hrefines.stacked.count_le hrefines.stacked.filled

/-- An allocator over a well-formed map implements a pool. -/
theorem refines_self (hmapped : self.Mapped) (hstacked : self.Stacked) :
    self.Refines self ⟨self.unvisited, self.stack,
      Nat.le_trans (Nat.le_of_eq (stack_upto_length hstacked.count_le hstacked.filled)) hstacked.count_le⟩ :=
  ⟨.refl self, hmapped, hstacked, rfl, rfl⟩

variable (hrefines : self.Refines boot pool)
include hrefines

/-- Taking from the reclaim array. -/
theorem Refines.pop (hcount : self.reclaimed_count = count + 1) :
    ∃ frame rest after, pool.take = some (frame, rest) ∧
      allocate_frame self = (.ok (some frame), after) ∧ after.Refines boot rest := by
  obtain ⟨hbound, frame, hframe, hstack⟩ := stack_pop hrefines.stacked hcount
  have hpool : pool.returned = frame :: stack_upto self.reclaimed_frames count :=
    hrefines.returned.trans hstack
  have hroom : (stack_upto self.reclaimed_frames count).length ≤ RECLAIMED_FRAME_CAPACITY := by
    have hlength := pool.bound
    rw [hpool] at hlength
    exact Nat.le_of_succ_le hlength
  refine ⟨frame, ⟨pool.fresh, stack_upto self.reclaimed_frames count, hroom⟩, { self with
    reclaimed_count := count
    reclaimed_frames := Function.update self.reclaimed_frames ⟨count, hbound⟩ none }, ?_, ?_, ?_⟩
  · obtain ⟨fresh, returned, _⟩ := pool
    subst hpool
    rfl
  · have hnonzero : self.reclaimed_count ≠ 0 := by omega
    have hpred : self.reclaimed_count - 1 = count := by omega
    simp only [allocate_frame, next_usable_frame, hnonzero, ne_eq, not_false_eq_true, if_true, hpred,
      hbound, dite_true, hframe]
  · refine ⟨{ hrefines.same with }, { hrefines.mapped with },
      ⟨Nat.le_of_lt hbound, ?_⟩, hrefines.fresh, ?_⟩
    · intro slot hslot
      have hne : slot ≠ ⟨count, hbound⟩ := fun hsame => absurd hslot (by simp [hsame])
      simp only [Function.update_of_ne hne]
      exact hrefines.stacked.filled slot (by simp only at hslot; omega)
    · simp only [stack]
      rw [stack_upto_update ⟨count, hbound⟩ none (Nat.le_refl _)]

/-- Taking from the cursor. -/
theorem Refines.advance (hcount : self.reclaimed_count = 0) :
    (∃ frame rest after, pool.take = some (frame, rest) ∧
      allocate_frame self = (.ok (some frame), after) ∧ after.Refines boot rest) ∨
    (pool.take = none ∧ ∃ after, allocate_frame self = (.ok none, after) ∧ after.Refines boot pool) := by
  obtain ⟨descriptor_index, page_index, hadvance, hrest⟩ := advance_spec self.turnsLeft_turns hrefines.mapped
  have hallocate : allocate_frame self =
      (.ok self.unvisited.head?, self.moved descriptor_index page_index) := by
    simp [allocate_frame, next_usable_frame, hcount, hadvance]
  have hempty : self.stack = [] := by simp [stack, hcount, stack_upto]
  have hsame : (self.moved descriptor_index page_index).SameMap boot :=
    { hrefines.same with }
  have hmoved := moved_mapped hrefines.mapped descriptor_index page_index
  have hstacked : (self.moved descriptor_index page_index).Stacked :=
    { hrefines.stacked with }
  have hpool : pool = ⟨self.unvisited, [], Nat.zero_le _⟩ := by
    obtain ⟨fresh, returned, _⟩ := pool
    obtain ⟨_, _, _, rfl, hreturned⟩ := hrefines
    obtain rfl : returned = [] := hreturned.trans hempty
    rfl
  subst hpool
  rw [hallocate]
  cases hunvisited : self.unvisited with
  | nil =>
    rw [hunvisited] at hrest
    exact .inr ⟨rfl, _, rfl, hsame, hmoved, hstacked, hrest.symm, hempty.symm⟩
  | cons frame frames =>
    rw [hunvisited] at hrest
    exact .inl ⟨frame, ⟨frames, [], Nat.zero_le _⟩, _, rfl, rfl, hsame, hmoved, hstacked, hrest.symm,
      hempty.symm⟩

/-- `allocate_frame` takes from the pool and never panics. -/
theorem Refines.allocate_frame :
    (∃ frame rest after, pool.take = some (frame, rest) ∧
      BootInfoFrameAllocator.allocate_frame self = (.ok (some frame), after) ∧ after.Refines boot rest) ∨
    (pool.take = none ∧ ∃ after,
      BootInfoFrameAllocator.allocate_frame self = (.ok none, after) ∧ after.Refines boot pool) := by
  cases hcount : self.reclaimed_count with
  | zero => exact hrefines.advance hcount
  | succ count => exact .inl (hrefines.pop hcount)

/-- `reclaim_frame` puts into the pool. -/
theorem Refines.reclaim_frame (frame : PhysFrame) :
    (∃ rest after, pool.put frame = some rest ∧ self.reclaim_frame frame = (true, after) ∧
      after.Refines boot rest) ∨
    (pool.put frame = none ∧ self.reclaim_frame frame = (false, self)) := by
  have hlength := hrefines.returned_length
  by_cases hbound : self.reclaimed_count < RECLAIMED_FRAME_CAPACITY
  · left
    have hroom : pool.returned.length < RECLAIMED_FRAME_CAPACITY := hlength ▸ hbound
    refine ⟨⟨pool.fresh, frame :: pool.returned, hroom⟩, { self with
      reclaimed_frames :=
        Function.update self.reclaimed_frames ⟨self.reclaimed_count, hbound⟩ (some frame)
      reclaimed_count := self.reclaimed_count + 1 }, by simp [Pool.put, hroom],
      by simp [BootInfoFrameAllocator.reclaim_frame, hbound], ?_⟩
    refine ⟨{ hrefines.same with }, { hrefines.mapped with },
      ⟨hbound, ?_⟩, hrefines.fresh, ?_⟩
    · intro slot hslot
      by_cases hlast : slot = ⟨self.reclaimed_count, hbound⟩
      · simp [hlast]
      · have hne : slot.val ≠ self.reclaimed_count := fun hsame => hlast (Fin.ext hsame)
        simp only [Function.update_of_ne hlast]
        exact hrefines.stacked.filled slot (by simp only at hslot; omega)
    · simp only [stack, stack_upto, hbound, dite_true, Function.update_self, Option.toList_some,
        List.singleton_append]
      rw [stack_upto_update _ _ (Nat.le_refl _), hrefines.returned]
      rfl
  · right
    have hfull : ¬ pool.returned.length < RECLAIMED_FRAME_CAPACITY := hlength ▸ hbound
    exact ⟨by simp [Pool.put, hfull], by simp [BootInfoFrameAllocator.reclaim_frame, hbound]⟩

end Refinement

/-- A conventional descriptor whose region holds an address. -/
def Covers (self : BootInfoFrameAllocator) (index address : Nat) : Prop :=
  ∃ descriptor, read_descriptor self.memory_map self.descriptor_size index = some descriptor ∧
    descriptor.memory_type = EFI_CONVENTIONAL_MEMORY ∧ descriptor.physical_start ≤ address ∧
    address < descriptor.physical_start + descriptor.number_of_pages * PAGE_SIZE

/-- The scan of the map answers without a panic, and finds a covering descriptor
if there is one. -/
theorem any_descriptor_spec (hreadable : self.Readable) (frame : PhysFrame)
    (indices : List Nat) (hindices : ∀ index ∈ indices, index < self.descriptor_count) :
    ∃ found, is_allocatable_frame.any_descriptor self frame indices = .ok found ∧
      ((∃ index ∈ indices, self.Covers index frame) → found = true) := by
  induction indices with
  | nil => exact ⟨false, rfl, by simp⟩
  | cons index rest ih =>
    obtain ⟨hindex, hrest⟩ := List.forall_mem_cons.mp hindices
    obtain ⟨found, hfound, hcovered⟩ := ih hrest
    obtain ⟨descriptor, hread, hend⟩ := hreadable index hindex
    have hmul : checked_mul descriptor.number_of_pages PAGE_SIZE =
        some (descriptor.number_of_pages * PAGE_SIZE) := checked_mul_eq_some.mpr ⟨by omega, rfl⟩
    have hadd : checked_add descriptor.physical_start (descriptor.number_of_pages * PAGE_SIZE) =
        some (descriptor.physical_start + descriptor.number_of_pages * PAGE_SIZE) :=
      checked_add_eq_some.mpr ⟨by omega, rfl⟩
    simp only [is_allocatable_frame.any_descriptor, hread, hmul, hadd, expect, bind, Outcome.bind]
    by_cases hbegins : descriptor.memory_type = EFI_CONVENTIONAL_MEMORY ∧ descriptor.physical_start ≤ frame
    · rw [if_pos hbegins]
      by_cases hends : frame < descriptor.physical_start + descriptor.number_of_pages * PAGE_SIZE
      · exact ⟨true, by rw [if_pos hends]; rfl, fun _ => rfl⟩
      · refine ⟨found, by rw [if_neg hends]; exact hfound, ?_⟩
        rintro ⟨other, hother, hcovers⟩
        obtain rfl | hother := List.mem_cons.mp hother
        · obtain ⟨sibling, hsibling, _, _, hlt⟩ := hcovers
          obtain rfl := Option.mem_unique hread hsibling
          exact absurd hlt hends
        · exact hcovered ⟨other, hother, hcovers⟩
    · refine ⟨found, by rw [if_neg hbegins]; exact hfound, ?_⟩
      rintro ⟨other, hother, hcovers⟩
      obtain rfl | hother := List.mem_cons.mp hother
      · obtain ⟨sibling, hsibling, htype, hle, _⟩ := hcovers
        obtain rfl := Option.mem_unique hread hsibling
        exact absurd ⟨htype, hle⟩ hbegins
      · exact hcovered ⟨other, hother, hcovers⟩

/-- Ownership is a matter of the map alone. -/
theorem SameMap.is_allocatable_frame {boot : BootInfoFrameAllocator} (hsame : self.SameMap boot)
    (frame : PhysFrame) : self.is_allocatable_frame frame = boot.is_allocatable_frame frame := by
  have hscan : ∀ indices, is_allocatable_frame.any_descriptor self frame indices =
      is_allocatable_frame.any_descriptor boot frame indices := by
    intro indices
    induction indices with
    | nil => rfl
    | cons index rest ih =>
      simp only [is_allocatable_frame.any_descriptor, hsame.memory_map, hsame.descriptor_size, ih]
  simp only [BootInfoFrameAllocator.is_allocatable_frame, hsame.physical_limit, hsame.reserved_ranges,
    hsame.descriptor_count, hscan]

theorem is_allocatable_frame_ok (hreadable : self.Readable)
    (frame : PhysFrame) : ∃ found, self.is_allocatable_frame frame = .ok found := by
  unfold is_allocatable_frame
  split
  · exact ⟨false, rfl⟩
  · obtain ⟨found, hfound, _⟩ := any_descriptor_spec hreadable frame (List.range self.descriptor_count)
      fun index hindex => List.mem_range.mp hindex
    exact ⟨found, hfound⟩

/-- `deallocate_frame` returns the frame to the pool, or fails without effect. -/
theorem Refines.deallocate_frame (hrefines : self.Refines boot pool) (frame : PhysFrame) :
    (∃ rest after, pool.put frame = some rest ∧
      BootInfoFrameAllocator.deallocate_frame frame self = (.ok (), after) ∧ after.Refines boot rest) ∨
    ∃ error, BootInfoFrameAllocator.deallocate_frame frame self = (.err error, self) ∧
      (self.is_allocatable_frame frame = .ok true → error = .FrameReclaimCapacityExceeded ∧ pool.put frame = none) := by
  obtain ⟨owned, howned⟩ := is_allocatable_frame_ok hrefines.mapped.in_range frame
  simp only [BootInfoFrameAllocator.deallocate_frame, howned]
  cases owned with
  | false => exact .inr ⟨.InvalidMemoryMap, rfl, by simp⟩
  | true =>
    obtain ⟨rest, after, hput, hreclaim, hafter⟩ | ⟨hput, hreclaim⟩ := hrefines.reclaim_frame frame
    · exact .inl ⟨rest, after, hput, by rw [hreclaim], hafter⟩
    · exact .inr ⟨.FrameReclaimCapacityExceeded, by rw [hreclaim], fun _ => ⟨rfl, hput⟩⟩

/-- The ownership test accepts every frame of the map. -/
theorem is_allocatable_frame_of_mem (hmapped : self.Mapped) {frame : PhysFrame} {index first_page : Nat}
    (hindex : index < self.descriptor_count) (hframe : frame ∈ self.frames_from index first_page) :
    self.is_allocatable_frame frame = .ok true := by
  obtain ⟨descriptor, page, hread, htype, hpage, hvalue, husable⟩ := mem_frames_from hframe
  simp only [usable, Bool.and_eq_true, decide_eq_true_eq, Bool.not_eq_true'] at husable
  unfold is_allocatable_frame
  rw [if_neg (by simp [husable])]
  have hinside : page * PAGE_SIZE < descriptor.number_of_pages * PAGE_SIZE :=
    Nat.mul_lt_mul_of_pos_right hpage (by decide)
  obtain ⟨found, hfound, hcovered⟩ := any_descriptor_spec hmapped.in_range frame (List.range self.descriptor_count)
    fun index hindex => List.mem_range.mp hindex
  rw [hfound, hcovered ⟨index, List.mem_range.mpr hindex, descriptor, hread, htype, ?_, ?_⟩]
  · rw [hvalue]
    exact Nat.le_add_right _ _
  · rw [hvalue]
    exact Nat.add_lt_add_left hinside _

end BootInfoFrameAllocator

end leafos.memory
