import LeafOS.Memory.AvailableFrames
import Mathlib.Order.Interval.Set.Disjoint
import Mathlib.Order.CompletePartialOrder

namespace leafos.memory

open Outcome

/-- The `physical_start` field of a record, read off the bytes. -/
def physical_start_at (memory_map : List UInt8) (descriptor_size index : Nat) : Nat :=
  Bytes.decode ((memory_map.drop (index * descriptor_size + 8)).take 8)

/-- The `number_of_pages` field of a record, read off the bytes. -/
def number_of_pages_at (memory_map : List UInt8) (descriptor_size index : Nat) : Nat :=
  Bytes.decode ((memory_map.drop (index * descriptor_size + 24)).take 8)

/-- The end of the region that a record describes, over the integers. -/
def end_at (memory_map : List UInt8) (descriptor_size index : Nat) : Nat :=
  physical_start_at memory_map descriptor_size index + number_of_pages_at memory_map descriptor_size index * PAGE_SIZE

/-- A map that the frame allocator can work with, `count` records long. -/
structure UsableMap (memory_map : List UInt8) (descriptor_size physical_limit count : Nat) : Prop where
  stride : 40 ≤ descriptor_size
  nonempty : memory_map ≠ []
  whole : memory_map.length = count * descriptor_size
  limit : 4096 < physical_limit
  aligned : ∀ index < count, physical_start_at memory_map descriptor_size index % PAGE_SIZE = 0
  below : ∀ index < count, physical_start_at memory_map descriptor_size index < physical_limit
  pages : ∀ index < count, 1 ≤ number_of_pages_at memory_map descriptor_size index
  ends : ∀ index < count, end_at memory_map descriptor_size index < 2 ^ 64 ∧
    end_at memory_map descriptor_size index ≤ physical_limit
  disjoint : ∀ index < count, ∀ other < count, index ≠ other →
    Disjoint (Set.Ico (physical_start_at memory_map descriptor_size index) (end_at memory_map descriptor_size index))
      (Set.Ico (physical_start_at memory_map descriptor_size other) (end_at memory_map descriptor_size other))

section Records

variable {memory_map : List UInt8} {descriptor_size physical_limit count index : Nat}

/-- A record that lies inside the map is read. -/
theorem read_descriptor_inside (hinside : index * descriptor_size + 40 ≤ memory_map.length)
    (hlength : memory_map.length < 2 ^ 64) :
    ∃ descriptor, read_descriptor memory_map descriptor_size index = some descriptor ∧
      descriptor.physical_start = physical_start_at memory_map descriptor_size index ∧
      descriptor.number_of_pages = number_of_pages_at memory_map descriptor_size index := by
  have hoffset : checked_mul index descriptor_size = some (index * descriptor_size) :=
    checked_mul_eq_some.mpr ⟨by omega, rfl⟩
  have hend : checked_add (index * descriptor_size) EFI_DESCRIPTOR_MIN_SIZE =
      some (index * descriptor_size + EFI_DESCRIPTOR_MIN_SIZE) :=
    checked_add_eq_some.mpr ⟨by rw [EFI_DESCRIPTOR_MIN_SIZE]; omega, rfl⟩
  have hslice : Bytes.slice? memory_map (index * descriptor_size) EFI_DESCRIPTOR_MIN_SIZE =
      some ((memory_map.drop (index * descriptor_size)).take EFI_DESCRIPTOR_MIN_SIZE) := if_pos hinside
  refine ⟨_, by rw [read_descriptor, hoffset, Option.bind_eq_bind, Option.bind_some, hend, Option.bind_eq_bind,
    Option.bind_some, hslice]; rfl, ?_, ?_⟩
  all_goals simp [physical_start_at, number_of_pages_at, EFI_DESCRIPTOR_MIN_SIZE, List.drop_take, List.take_take,
    List.drop_drop]

theorem record_inside (hwhole : memory_map.length = count * descriptor_size) (hstride : 40 ≤ descriptor_size)
    (hindex : index < count) : index * descriptor_size + 40 ≤ memory_map.length := by
  have hnext : (index + 1) * descriptor_size ≤ count * descriptor_size := Nat.mul_le_mul_right _ hindex
  rw [Nat.succ_mul] at hnext
  omega

/-- The region of a record, where the record is inside the map: the checked arithmetic succeeds
exactly when the region ends within 64 bits. -/
theorem region_eq_ok_iff (hinside : index * descriptor_size + 40 ≤ memory_map.length)
    (hlength : memory_map.length < 2 ^ 64) {descriptor : EfiMemoryDescriptor} {range : PhysicalRange} :
    region memory_map descriptor_size index = .ok (descriptor, range) ↔
      read_descriptor memory_map descriptor_size index = some descriptor ∧
      end_at memory_map descriptor_size index < 2 ^ 64 ∧
      range = ⟨physical_start_at memory_map descriptor_size index, end_at memory_map descriptor_size index⟩ := by
  obtain ⟨found, hread, hstart, hpages⟩ := read_descriptor_inside hinside hlength
  simp only [region, hread, bind_eq_ok_iff, okOr_eq_ok_iff, checked_mul_eq_some, checked_add_eq_some, pure_eq_ok_iff,
    end_at, ← hstart, ← hpages]
  constructor
  · rintro ⟨_, hfound, _, ⟨_, rfl⟩, _, ⟨hfits, rfl⟩, hresult⟩
    obtain rfl := Option.some.inj hfound
    obtain ⟨rfl, rfl⟩ := Prod.mk.inj hresult
    exact ⟨rfl, hfits, rfl⟩
  · rintro ⟨hfound, hfits, rfl⟩
    obtain rfl := Option.some.inj hfound
    exact ⟨found, rfl, _, ⟨by omega, rfl⟩, _, ⟨hfits, rfl⟩, rfl⟩

/-- The overlap test, on ranges that are not empty. -/
theorem overlaps_eq_false_iff {range other : PhysicalRange} (hrange : range.start < range.stop)
    (hother : other.start < other.stop) :
    range.overlaps other = false ↔ Disjoint (Set.Ico range.start range.stop) (Set.Ico other.start other.stop) := by
  rw [Set.Ico_disjoint_Ico]
  simp only [PhysicalRange.overlaps, Bool.and_eq_false_iff, decide_eq_false_iff_not, Nat.not_lt]
  omega

/-- What one turn of the outer loop of `validate_memory_map` checks. -/
structure Checked (memory_map : List UInt8) (descriptor_size physical_limit index : Nat) : Prop where
  aligned : physical_start_at memory_map descriptor_size index % PAGE_SIZE = 0
  below : physical_start_at memory_map descriptor_size index < physical_limit
  pages : 1 ≤ number_of_pages_at memory_map descriptor_size index
  fits : end_at memory_map descriptor_size index < 2 ^ 64
  ends : end_at memory_map descriptor_size index ≤ physical_limit
  apart : ∀ other < index, end_at memory_map descriptor_size other < 2 ^ 64 ∧
    PhysicalRange.overlaps
      ⟨physical_start_at memory_map descriptor_size index, end_at memory_map descriptor_size index⟩
      ⟨physical_start_at memory_map descriptor_size other, end_at memory_map descriptor_size other⟩ = false

theorem checked_iff (hwhole : memory_map.length = count * descriptor_size) (hstride : 40 ≤ descriptor_size)
    (hlength : memory_map.length < 2 ^ 64) (hindex : index < count) :
    Checked memory_map descriptor_size physical_limit index ↔
    ∃ found : EfiMemoryDescriptor × PhysicalRange, region memory_map descriptor_size index = .ok found ∧
      (((¬ found.1.number_of_pages = 0 ∧ found.1.physical_start % PAGE_SIZE = 0) ∧
        found.1.physical_start < physical_limit) ∧ found.2.stop ≤ physical_limit) ∧
      ∀ other < index, ∃ sibling : EfiMemoryDescriptor × PhysicalRange,
        region memory_map descriptor_size other = .ok sibling ∧ found.2.overlaps sibling.2 = false := by
  have hinside : ∀ other ≤ index, other * descriptor_size + 40 ≤ memory_map.length := fun other hother =>
    record_inside hwhole hstride (Nat.lt_of_le_of_lt hother hindex)
  obtain ⟨descriptor, hread, hstart, hpages⟩ := read_descriptor_inside (hinside index (Nat.le_refl _)) hlength
  constructor
  · intro hchecked
    refine ⟨(descriptor, _), (region_eq_ok_iff (hinside index (Nat.le_refl _)) hlength).mpr ⟨hread, hchecked.fits, rfl⟩,
      ?_, ?_⟩
    · simp only [hstart, hpages]
      exact ⟨⟨⟨Nat.ne_of_gt hchecked.pages, hchecked.aligned⟩, hchecked.below⟩, hchecked.ends⟩
    · intro other hother
      obtain ⟨sibling, hsibling, _⟩ := read_descriptor_inside (hinside other (Nat.le_of_lt hother)) hlength
      obtain ⟨hfits, hapart⟩ := hchecked.apart other hother
      exact ⟨(sibling, _), (region_eq_ok_iff (hinside other (Nat.le_of_lt hother)) hlength).mpr ⟨hsibling, hfits, rfl⟩,
        hapart⟩
  · rintro ⟨⟨found, range⟩, hregion, hchecks, hothers⟩
    obtain ⟨hfound, hfits, rfl⟩ := (region_eq_ok_iff (hinside index (Nat.le_refl _)) hlength).mp hregion
    obtain rfl := Option.mem_unique hread hfound
    simp only [hstart, hpages] at hchecks
    refine ⟨hchecks.1.1.2, hchecks.1.2, Nat.pos_of_ne_zero hchecks.1.1.1, hfits, hchecks.2, ?_⟩
    intro other hother
    obtain ⟨⟨sibling, sibling_range⟩, hsibling, hapart⟩ := hothers other hother
    obtain ⟨_, hends, rfl⟩ := (region_eq_ok_iff (hinside other (Nat.le_of_lt hother)) hlength).mp hsibling
    exact ⟨hends, hapart⟩

/-- `validate_memory_map` accepts a map when every turn accepts its descriptor. -/
theorem validate_memory_map_eq_ok (hlength : memory_map.length < 2 ^ 64) :
    validate_memory_map memory_map descriptor_size physical_limit = .ok count ↔
      40 ≤ descriptor_size ∧ memory_map ≠ [] ∧ memory_map.length = count * descriptor_size ∧ 4096 < physical_limit ∧
        ∀ index < count, Checked memory_map descriptor_size physical_limit index := by
  simp only [validate_memory_map, bind_eq_ok_iff, refuse_eq_ok_iff, forEach_eq_ok_iff, pure_eq_ok_iff, List.mem_range,
    exists_const, Bool.or_eq_false_iff, decide_eq_false_iff_not, Nat.not_lt, Nat.not_le, bne_eq_false_iff_eq,
    beq_eq_false_iff_ne, List.isEmpty_eq_false_iff]
  constructor
  · rintro ⟨⟨⟨⟨hstride, hnonempty⟩, hmod⟩, hlimit⟩, hall, rfl⟩
    have hwhole : memory_map.length = memory_map.length / descriptor_size * descriptor_size :=
      (Nat.div_mul_cancel (Nat.dvd_of_mod_eq_zero hmod)).symm
    refine ⟨hstride, hnonempty, hwhole, hlimit, ?_⟩
    intro index hindex
    exact (checked_iff hwhole hstride hlength hindex).mpr (hall index hindex)
  · rintro ⟨hstride, hnonempty, hwhole, hlimit, hall⟩
    have hpositive : 0 < descriptor_size := Nat.lt_of_lt_of_le (by decide) hstride
    have hcount : memory_map.length / descriptor_size = count := by rw [hwhole, Nat.mul_div_cancel _ hpositive]
    refine ⟨⟨⟨⟨hstride, hnonempty⟩, by rw [hwhole, Nat.mul_mod_left]⟩, hlimit⟩, ?_, hcount⟩
    intro index hindex
    rw [hcount] at hindex
    exact (checked_iff hwhole hstride hlength hindex).mp (hall index hindex)

theorem range_nonempty (hpages : 1 ≤ number_of_pages_at memory_map descriptor_size index) :
    physical_start_at memory_map descriptor_size index < end_at memory_map descriptor_size index := by
  have hsize := Nat.mul_le_mul_right PAGE_SIZE hpages
  have hpositive : 0 < PAGE_SIZE := by decide
  rw [end_at]
  omega

/-- The maps that `validate_memory_map` accepts. -/
theorem usable_iff_checked :
    UsableMap memory_map descriptor_size physical_limit count ↔
      40 ≤ descriptor_size ∧ memory_map ≠ [] ∧ memory_map.length = count * descriptor_size ∧ 4096 < physical_limit ∧
        ∀ index < count, Checked memory_map descriptor_size physical_limit index := by
  constructor
  · intro husable
    refine ⟨husable.stride, husable.nonempty, husable.whole, husable.limit, fun index hindex => ?_⟩
    refine ⟨husable.aligned index hindex, husable.below index hindex, husable.pages index hindex,
      (husable.ends index hindex).1, (husable.ends index hindex).2, fun other hother => ?_⟩
    have hlower : other < count := Nat.lt_trans hother hindex
    refine ⟨(husable.ends other hlower).1, ?_⟩
    exact (overlaps_eq_false_iff (range_nonempty (husable.pages index hindex))
      (range_nonempty (husable.pages other hlower))).mpr (husable.disjoint index hindex other hlower (Nat.ne_of_gt hother))
  · rintro ⟨hstride, hnonempty, hwhole, hlimit, hall⟩
    -- The inner loop compares with the descriptors before; the test is the same in both orders.
    have hbefore : ∀ index < count, ∀ other < index,
        Disjoint (Set.Ico (physical_start_at memory_map descriptor_size index) (end_at memory_map descriptor_size index))
          (Set.Ico (physical_start_at memory_map descriptor_size other) (end_at memory_map descriptor_size other)) := by
      intro index hindex other hother
      exact (overlaps_eq_false_iff (range_nonempty (hall index hindex).pages)
        (range_nonempty (hall other (Nat.lt_trans hother hindex)).pages)).mp ((hall index hindex).apart other hother).2
    refine ⟨hstride, hnonempty, hwhole, hlimit, fun index hindex => (hall index hindex).aligned,
      fun index hindex => (hall index hindex).below, fun index hindex => (hall index hindex).pages,
      fun index hindex => ⟨(hall index hindex).fits, (hall index hindex).ends⟩, ?_⟩
    intro index hindex other hother hne
    rcases Nat.lt_or_gt_of_ne hne with hlt | hgt
    · exact (hbefore other hother index hlt).symm
    · exact hbefore index hindex other hgt

end Records

namespace BootInfoFrameAllocator

variable {self : BootInfoFrameAllocator}

/-- No expression over a readable map overflows. -/
theorem Readable.page_address (hreadable : self.Readable) {index : Nat} (hindex : index < self.descriptor_count) :
    ∃ descriptor, read_descriptor self.memory_map self.descriptor_size index = some descriptor ∧
      ∀ page ≤ descriptor.number_of_pages, checked_mul page PAGE_SIZE = some (page * PAGE_SIZE) ∧
        checked_add descriptor.physical_start (page * PAGE_SIZE) =
          some (descriptor.physical_start + page * PAGE_SIZE) := by
  obtain ⟨descriptor, hread, hend⟩ := hreadable index hindex
  refine ⟨descriptor, hread, fun page hpage => ?_⟩
  have hinside := Nat.mul_le_mul_right PAGE_SIZE hpage
  exact ⟨checked_mul_eq_some.mpr ⟨by omega, rfl⟩, checked_add_eq_some.mpr ⟨by omega, rfl⟩⟩

theorem count_ne_panic (hreadable : self.Readable) {ε : Type}
    (ranges : List PhysicalRange) {indices : List Nat} (hindices : ∀ index ∈ indices, index < self.descriptor_count)
    (total : Nat) : (available_frame_count.count self ranges indices total : Outcome ε Nat) ≠ .panic := by
  induction indices generalizing total with
  | nil => exact nofun
  | cons index rest ih =>
    obtain ⟨hindex, hrest⟩ := List.forall_mem_cons.mp hindices
    obtain ⟨descriptor, hread, hpages⟩ := hreadable.page_address hindex
    generalize hfirst : (if index = self.descriptor_index then self.page_index else 0) = first_page
    simp only [available_frame_count.count, hread, hfirst, expect, bind, Outcome.bind]
    by_cases hskip : descriptor.memory_type ≠ EFI_CONVENTIONAL_MEMORY ∨ descriptor.number_of_pages ≤ first_page
    · rw [if_pos hskip]
      exact ih hrest total
    · obtain ⟨hoffset, hstart⟩ := hpages first_page (Nat.le_of_not_le (not_or.mp hskip).2)
      obtain ⟨hsize, hstop⟩ := hpages descriptor.number_of_pages (Nat.le_refl _)
      simp only [if_neg hskip, hoffset, hstart, hsize, hstop]
      exact ih hrest _

theorem available_frame_count_ne_panic (hreadable : self.Readable) (ε : Type) :
    (self.available_frame_count : Outcome ε Nat) ≠ .panic := by
  apply count_ne_panic hreadable
  intro index hindex
  obtain ⟨hlow, hhigh⟩ := List.mem_range'_1.mp hindex
  omega

theorem readable_of_valid {memory_map : List UInt8} {descriptor_size physical_limit count : Nat}
    (hlength : memory_map.length < 2 ^ 64)
    (hvalid : validate_memory_map memory_map descriptor_size physical_limit = .ok count)
    {reserved_ranges : List PhysicalRange}
    (hsame : self.SameMap (of_map memory_map descriptor_size count physical_limit reserved_ranges)) : self.Readable := by
  have husable := (validate_memory_map_eq_ok hlength).mp hvalid
  intro index hindex
  rw [hsame.descriptor_count] at hindex
  rw [hsame.memory_map, hsame.descriptor_size]
  obtain ⟨hstride, _, hwhole, _, hall⟩ := husable
  obtain ⟨descriptor, hread, hstart, hpages⟩ := read_descriptor_inside (record_inside hwhole hstride hindex) hlength
  refine ⟨descriptor, hread, ?_⟩
  rw [hstart, hpages]
  exact (hall index hindex).fits

/-- The loop of `next_usable_frame` answers, whatever the reserved ranges are. -/
theorem advance_ne_panic {turns : Nat} (hturns : self.TurnsLeft turns)
    (hreadable : self.Readable) (hlimit : self.physical_limit ≤ 2 ^ 52) : (advance turns self).1 ≠ .panic := by
  induction turns generalizing self with
  | zero => exact absurd hturns.pos (Nat.lt_irrefl 0)
  | succ turns ih =>
    by_cases hindex : self.descriptor_index < self.descriptor_count
    swap
    · rw [advance, if_neg hindex]
      rintro ⟨⟩
    obtain ⟨descriptor, hread, hpages⟩ := hreadable.page_address hindex
    have hcount : self.pages_of self.descriptor_index = descriptor.number_of_pages := by simp [pages_of, hread]
    simp only [advance, if_pos hindex, hread]
    by_cases hskip : descriptor.memory_type ≠ EFI_CONVENTIONAL_MEMORY ∨ descriptor.number_of_pages ≤ self.page_index
    · rw [if_pos hskip]
      exact ih (hturns.skip hindex) hreadable hlimit
    · rw [if_neg hskip]
      have hpage : self.page_index < descriptor.number_of_pages := Nat.lt_of_not_le (not_or.mp hskip).2
      obtain ⟨hoffset, haddress⟩ := hpages self.page_index (Nat.le_of_lt hpage)
      have hnext := ih (hturns.page hindex (hcount ▸ hpage)) hreadable hlimit
      simp only [hoffset, Option.bind_some, haddress]
      split_ifs with hrefused hwide haligned
      · exact hnext
      · exact absurd (Nat.le_trans hlimit hwide) fun hpast => hrefused (.inl hpast)
      · rintro ⟨⟩
      · exact hnext

theorem next_usable_frame_ne_panic (hreadable : self.Readable) (hlimit : self.physical_limit ≤ 2 ^ 52)
    (hcount : self.reclaimed_count ≤ RECLAIMED_FRAME_CAPACITY) : (next_usable_frame self).1 ≠ .panic := by
  unfold next_usable_frame
  by_cases hempty : self.reclaimed_count ≠ 0
  · have hbound : self.reclaimed_count - 1 < RECLAIMED_FRAME_CAPACITY := by omega
    simp only [if_pos hempty, dif_pos hbound]
    exact nofun
  · rw [if_neg hempty]
    exact advance_ne_panic self.turnsLeft_turns hreadable hlimit

theorem validate_memory_map_ne_panic (memory_map : List UInt8) (descriptor_size physical_limit : Nat) :
    validate_memory_map memory_map descriptor_size physical_limit ≠ .panic := by
  have hregion : ∀ index, region memory_map descriptor_size index ≠ .panic := fun index =>
    okOr_bind_ne_panic fun _ => okOr_bind_ne_panic fun _ => okOr_bind_ne_panic fun _ => nofun
  refine refuse_bind_ne_panic (bind_ne_panic (forEach_ne_panic fun index _ => ?_) fun _ _ => nofun)
  refine bind_ne_panic (hregion index) fun _ _ => refuse_bind_ne_panic (forEach_ne_panic ?_)
  exact fun other _ => bind_ne_panic (hregion other) fun _ _ => refuse_ne_panic _ _

theorem page_covering_range_ne_panic (address size physical_limit : Nat) :
    page_covering_range address size physical_limit ≠ .panic := by
  unfold page_covering_range
  split
  · exact nofun
  · exact okOr_bind_ne_panic fun _ => okOr_bind_ne_panic fun _ => refuse_bind_ne_panic nofun

theorem reserved_ranges_ne_panic (boot_info : BootInfo) (boot_info_address : UInt64) (physical_limit : Nat) :
    leafos.memory.reserved_ranges boot_info boot_info_address physical_limit ≠ .panic := by
  iterate 6 refine bind_ne_panic (page_covering_range_ne_panic _ _ _) fun _ _ => ?_
  exact nofun

/-- `new` may refuse a handoff, but its arithmetic on an accepted map does not overflow. -/
theorem new_ne_panic (memory : Nat → UInt8) (boot_info : BootInfo) (boot_info_address : UInt64)
    (physical_limit : Nat) : new memory boot_info boot_info_address physical_limit ≠ .panic := by
  refine bind_ne_panic (refuse_ne_panic _ _) fun _ _ => bind_ne_panic (refuse_ne_panic _ _) fun _ hsize => ?_
  simp only [refuse_eq_ok_iff, Bool.or_eq_false_iff, decide_eq_false_iff_not, Nat.not_le] at hsize
  refine bind_ne_panic (validate_memory_map_ne_panic _ _ _) fun count hvalid =>
    bind_ne_panic (reserved_ranges_ne_panic _ _ _) fun ranges _ => bind_ne_panic (forEach_ne_panic ?_) fun _ _ => nofun
  intro index hindex
  obtain ⟨descriptor, hread, hpages⟩ :=
    (readable_of_valid (by simp; omega) hvalid (.refl (of_map _ _ _ _ ranges))).page_address (List.mem_range.mp hindex)
  obtain ⟨hmul, hadd⟩ := hpages _ (Nat.le_refl _)
  refine bind_ne_panic (okOr_ne_panic _ _) fun found hfound => ?_
  obtain rfl := Option.mem_unique hread (okOr_eq_ok_iff.mp hfound)
  split
  · refine bind_ne_panic (by rw [hmul]; exact nofun) fun size hsize => ?_
    obtain rfl := Option.mem_unique hmul (expect_eq_ok_iff.mp hsize)
    exact bind_ne_panic (by rw [hadd]; exact nofun) fun _ _ => refuse_ne_panic _ _
  · exact nofun

end BootInfoFrameAllocator

open BootInfoFrameAllocator

/-- `validate_memory_map` accepts exactly the usable maps. On an accepted map every descriptor is
read and every page address of a descriptor is a 64-bit number, so that neither `new` nor, on any
allocator over the map, `available_frame_count`, `is_allocatable_frame` and `next_usable_frame`
panic. `next_usable_frame` also panics on an address of more than 52 bits, which no limit that
`physical_address_limit` returns lets through. -/
theorem validate_memory_map_exact (memory_map : List UInt8) (descriptor_size physical_limit count : Nat)
    (hlength : memory_map.length < 2 ^ 64) :
    (validate_memory_map memory_map descriptor_size physical_limit = .ok count ↔
      UsableMap memory_map descriptor_size physical_limit count) ∧
    (validate_memory_map memory_map descriptor_size physical_limit = .ok count →
      (∀ index < count, ∃ descriptor, read_descriptor memory_map descriptor_size index = some descriptor ∧
        ∀ page ≤ descriptor.number_of_pages, checked_mul page PAGE_SIZE = some (page * PAGE_SIZE) ∧
          checked_add descriptor.physical_start (page * PAGE_SIZE) =
            some (descriptor.physical_start + page * PAGE_SIZE)) ∧
      ∀ (reserved_ranges : List PhysicalRange) (self : BootInfoFrameAllocator),
        self.SameMap (of_map memory_map descriptor_size count physical_limit reserved_ranges) →
        (self.available_frame_count : Outcome MemoryError Nat) ≠ .panic ∧
        (∀ frame, self.is_allocatable_frame frame ≠ .panic) ∧
        (physical_limit ≤ 2 ^ 52 → self.reclaimed_count ≤ RECLAIMED_FRAME_CAPACITY →
          (next_usable_frame self).1 ≠ .panic)) ∧
    ∀ memory boot_info boot_info_address,
      BootInfoFrameAllocator.new memory boot_info boot_info_address physical_limit ≠ .panic := by
  refine ⟨(validate_memory_map_eq_ok hlength).trans usable_iff_checked.symm, fun hvalid => ⟨?_, ?_⟩,
    fun memory boot_info boot_info_address => new_ne_panic memory boot_info boot_info_address physical_limit⟩
  · intro index hindex
    exact (readable_of_valid hlength hvalid (.refl (of_map _ _ _ _ []))).page_address hindex
  · intro reserved_ranges self hsame
    have hreadable := readable_of_valid hlength hvalid hsame
    refine ⟨available_frame_count_ne_panic hreadable _, fun frame => ?_, fun hlimit hcount => ?_⟩
    · obtain ⟨found, hfound⟩ := is_allocatable_frame_ok hreadable frame
      rw [hfound]
      exact nofun
    · exact next_usable_frame_ne_panic hreadable (hsame.physical_limit ▸ hlimit) hcount

/-- A second region right behind the first. -/
theorem validate_memory_map_exact_two_regions : UsableMap (sample_map ++ sample_map.set 10 64) 40 (2 ^ 32) 2 :=
  (validate_memory_map_exact _ 40 (2 ^ 32) 2 (by decide)).1.mp (by decide +kernel)

end leafos.memory
