import LeafOS.Memory.Cursor

namespace leafos.memory

open Outcome

variable {physical_limit left right descriptor_size address size : Nat} {memory_map : List UInt8}
  {range : PhysicalRange}

theorem checked_add_eq_some {sum : Nat} :
    checked_add left right = some sum ↔ left + right < 2 ^ 64 ∧ sum = left + right := by
  simp only [checked_add, Option.ite_none_right_eq_some, Option.some.injEq]
  exact and_congr_right fun _ => eq_comm

theorem checked_mul_eq_some {product : Nat} :
    checked_mul left right = some product ↔ left * right < 2 ^ 64 ∧ product = left * right := by
  simp only [checked_mul, Option.ite_none_right_eq_some, Option.some.injEq]
  exact and_congr_right fun _ => eq_comm

theorem physical_address_limit_le {bits : Option UInt8} {limit : Nat}
    (hlimit : physical_address_limit bits = .ok limit) : limit ≤ 2 ^ 52 := by
  simp only [physical_address_limit, okOr_eq_ok_iff, Option.map_eq_some_iff, Option.filter_eq_some_iff,
    Bool.and_eq_true, decide_eq_true_eq] at hlimit
  obtain ⟨width, ⟨_, _, hwidth⟩, rfl⟩ := hlimit
  exact Nat.pow_le_pow_right (by decide) (UInt8.le_iff_toNat_le.mp hwidth)

/-- A successful region lookup returns the descriptor and its extent. -/
theorem region_ok {index : Nat} {descriptor : EfiMemoryDescriptor}
    (hregion : region memory_map descriptor_size index = .ok (descriptor, range)) :
    read_descriptor memory_map descriptor_size index = some descriptor ∧
      range = ⟨descriptor.physical_start,
        descriptor.physical_start + descriptor.number_of_pages * PAGE_SIZE⟩ := by
  simp only [region, bind_eq_ok_iff, okOr_eq_ok_iff, checked_mul_eq_some, checked_add_eq_some,
    pure_eq_ok_iff] at hregion
  obtain ⟨found, hread, size, ⟨_, rfl⟩, stop, ⟨_, rfl⟩, hresult⟩ := hregion
  obtain ⟨rfl, rfl⟩ := Prod.mk.inj hresult
  exact ⟨hread, rfl⟩

/-- What validation checks of one descriptor. -/
theorem validate_memory_map_ok {count : Nat}
    (hvalid : validate_memory_map memory_map descriptor_size physical_limit = .ok count) :
    ∀ index < count, ∃ descriptor,
      read_descriptor memory_map descriptor_size index = some descriptor ∧
      descriptor.physical_start % PAGE_SIZE = 0 ∧
      descriptor.physical_start + descriptor.number_of_pages * PAGE_SIZE ≤ physical_limit ∧
      ∀ other < index, ∃ sibling,
        read_descriptor memory_map descriptor_size other = some sibling ∧
        (descriptor.physical_start + descriptor.number_of_pages * PAGE_SIZE ≤ sibling.physical_start ∨
          sibling.physical_start + sibling.number_of_pages * PAGE_SIZE ≤ descriptor.physical_start) := by
  simp only [validate_memory_map, bind_eq_ok_iff, refuse_eq_ok_iff, forEach_eq_ok_iff, pure_eq_ok_iff,
    List.mem_range] at hvalid
  obtain ⟨_, _, _, hall, rfl⟩ := hvalid
  intro index hindex
  obtain ⟨⟨descriptor, range⟩, hregion, _, hchecks, hothers⟩ := hall index hindex
  obtain ⟨hread, rfl⟩ := region_ok hregion
  simp only [Bool.or_eq_false_iff, bne_eq_false_iff_eq, decide_eq_false_iff_not, Nat.not_lt] at hchecks
  refine ⟨descriptor, hread, hchecks.1.1.2, hchecks.2, fun other hother => ?_⟩
  obtain ⟨⟨sibling, other_range⟩, hregion, happart⟩ := hothers other hother
  obtain ⟨hsibling, rfl⟩ := region_ok hregion
  refine ⟨sibling, hsibling, ?_⟩
  simp only [PhysicalRange.overlaps, Bool.and_eq_false_iff, decide_eq_false_iff_not, Nat.not_lt] at happart
  exact happart.symm

theorem page_covering_range_aligned (hrange : page_covering_range address size physical_limit = .ok range) :
    range.start % PAGE_SIZE = 0 ∧ range.stop % PAGE_SIZE = 0 := by
  unfold page_covering_range at hrange
  split at hrange
  · rw [pure_eq_ok_iff] at hrange
    subst range
    decide
  · simp only [bind_eq_ok_iff, pure_eq_ok_iff] at hrange
    obtain ⟨_, _, _, _, _, _, rfl⟩ := hrange
    exact ⟨Nat.mul_mod_left _ _, Nat.mul_mod_left _ _⟩

theorem reserved_ranges_aligned {boot_info : BootInfo} {boot_info_address : UInt64} {ranges : List PhysicalRange}
    (hranges : reserved_ranges boot_info boot_info_address physical_limit = .ok ranges) :
    ∀ range ∈ ranges, range.start % PAGE_SIZE = 0 ∧ range.stop % PAGE_SIZE = 0 := by
  simp only [reserved_ranges, bind_eq_ok_iff, pure_eq_ok_iff] at hranges
  obtain ⟨_, hkernel, _, hhandoff, _, hmap, _, hroot, _, htable, _, hframebuffer, rfl⟩ := hranges
  simp only [List.forall_mem_cons, List.not_mem_nil, false_implies, implies_true, and_true]
  exact ⟨page_covering_range_aligned hkernel, page_covering_range_aligned hhandoff,
    page_covering_range_aligned hmap, page_covering_range_aligned hroot,
    page_covering_range_aligned htable, page_covering_range_aligned hframebuffer⟩

/-- A range covers the address that it was made for. -/
theorem page_covering_range_contains (hrange : page_covering_range address size physical_limit = .ok range)
    (hsize : size ≠ 0) : range.start ≤ address ∧ address < range.stop := by
  unfold page_covering_range at hrange
  rw [if_neg hsize] at hrange
  simp only [bind_eq_ok_iff, pure_eq_ok_iff, okOr_eq_ok_iff, checked_add_eq_some] at hrange
  obtain ⟨_, ⟨_, rfl⟩, _, ⟨_, rfl⟩, _, _, rfl⟩ := hrange
  simp only [PAGE_SIZE]
  omega

namespace BootInfoFrameAllocator

variable {memory : Nat → UInt8} {boot_info : BootInfo} {boot_info_address : UInt64} {allocator : BootInfoFrameAllocator}

/-- The loader's root table is reserved. -/
theorem new_root_reserved (hnew : new memory boot_info boot_info_address physical_limit = .ok allocator) :
    ∃ range ∈ allocator.reserved_ranges, range.start ≤ boot_info.page_table_root.toNat ∧
      boot_info.page_table_root.toNat < range.stop := by
  simp only [new, bind_eq_ok_iff, pure_eq_ok_iff] at hnew
  obtain ⟨_, _, _, _, count, _, ranges, hranges, _, _, rfl⟩ := hnew
  simp only [leafos.memory.reserved_ranges, bind_eq_ok_iff, pure_eq_ok_iff] at hranges
  obtain ⟨_, _, _, _, _, _, range, hroot, _, _, _, _, rfl⟩ := hranges
  exact ⟨range, by simp, page_covering_range_contains hroot (by decide)⟩

/-- The allocator that `new` returns over a map. -/
def of_map (memory_map : List UInt8) (descriptor_size descriptor_count physical_limit : Nat)
    (reserved_ranges : List PhysicalRange) : BootInfoFrameAllocator where
  memory_map := memory_map
  descriptor_size := descriptor_size
  descriptor_count := descriptor_count
  descriptor_index := 0
  page_index := 0
  physical_limit := physical_limit
  reserved_ranges := reserved_ranges
  reclaimed_frames := fun _ => none
  reclaimed_count := 0

theorem of_map_mapped {descriptor_count : Nat} {reserved_ranges : List PhysicalRange} (hlimit : physical_limit ≤ 2 ^ 52)
    (hvalid : validate_memory_map memory_map descriptor_size physical_limit = .ok descriptor_count)
    (haligned : ∀ range ∈ reserved_ranges, range.start % PAGE_SIZE = 0 ∧ range.stop % PAGE_SIZE = 0) :
    (of_map memory_map descriptor_size descriptor_count physical_limit reserved_ranges).Mapped := by
  have hdescriptors := validate_memory_map_ok hvalid
  refine ⟨hlimit, ?_, ?_, haligned⟩
  · intro index hindex
    obtain ⟨descriptor, hread, hstart, hend, _⟩ := hdescriptors index hindex
    exact ⟨descriptor, hread, hstart, hend⟩
  · intro index hindex other hother descriptor sibling hread hsibling
    obtain ⟨found, hfound, _, _, hothers⟩ := hdescriptors index hindex
    obtain ⟨found', hfound', hapart⟩ := hothers other hother
    obtain rfl := Option.mem_unique hread hfound
    obtain rfl := Option.mem_unique hsibling hfound'
    exact hapart

/-- An accepted handoff gives an allocator over a well-formed map, with no frame
reclaimed yet. -/
theorem new_mapped (hlimit : physical_limit ≤ 2 ^ 52)
    (hnew : new memory boot_info boot_info_address physical_limit = .ok allocator) :
    allocator.Mapped ∧ allocator.Stacked ∧ allocator.stack = [] ∧
      allocator.physical_limit = physical_limit := by
  simp only [new, bind_eq_ok_iff, pure_eq_ok_iff] at hnew
  obtain ⟨_, _, _, _, count, hvalid, ranges, hranges, _, _, rfl⟩ := hnew
  exact ⟨of_map_mapped hlimit hvalid (reserved_ranges_aligned hranges), ⟨Nat.zero_le _, by simp⟩, rfl, rfl⟩

end BootInfoFrameAllocator

end leafos.memory
