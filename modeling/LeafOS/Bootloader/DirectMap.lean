import LeafOS.Bootloader.Window
import Mathlib.Order.Interval.Set.LinearOrder
import Mathlib.Data.Set.Lattice
import Mathlib.Order.CompletePartialOrder

namespace leafos.bootloader

open Prog (Delivers Ends)

variable {loader : Loader} {address : UInt64} {descriptors : List EfiMemoryDescriptor}
  {descriptor : EfiMemoryDescriptor}

section Indices

variable (address : UInt64)

theorem level3_index_eq : level3_index address = table_index 3 address := by
  rw [level3_index, UInt64.toNat_and, UInt64.toNat_shiftRight, Nat.shiftRight_eq_div_pow]
  exact Nat.and_two_pow_sub_one_eq_mod _ 9

theorem level2_index_eq : level2_index address = table_index 2 address := by
  rw [level2_index, UInt64.toNat_and, UInt64.toNat_shiftRight, Nat.shiftRight_eq_div_pow]
  exact Nat.and_two_pow_sub_one_eq_mod _ 9

theorem page_index_eq : page_index address = table_index 1 address := by
  rw [page_index, UInt64.toNat_and, UInt64.toNat_shiftRight, Nat.shiftRight_eq_div_pow]
  exact Nat.and_two_pow_sub_one_eq_mod _ 9

end Indices

/-- The direct map shows `view`, and the walk for `address` has come to an entry. -/
structure Staged (initial : Loader) (view : UInt64 → Option Leaf) (taken : Nat) (address : UInt64) (level : Nat)
    (table : UInt64) (index : Nat) (loader : Loader) : Prop where
  built : Built initial view taken loader
  path : Path loader address level table index

theorem allocate_zeroed_page_delivers :
    Delivers (· = loader) allocate_zeroed_page
      (fun page after => loader.pages = page :: after.pages ∧
        after = { loader with memory := Function.update loader.memory page fun _ => 0, pages := after.pages })
      (fun error after => error = .out_of_resources ∧ after.pages = [] ∧ loader.pages = []) := by
  apply Ends.bind allocate_pages_delivers
  intro page
  apply Ends.at_state
  rintro allocated ⟨hpages, hallocated⟩
  constructor
  rintro _ rfl
  exact ⟨hpages, by rw [hallocated]⟩

section Ensuring

variable {initial : Loader} {view : UInt64 → Option Leaf} {taken needed : Nat} {level : Nat} {table : UInt64}
  {index : Nat} (hfree : FreePages initial.memory initial.kernel_page_table_root initial.pages)
  (haddress : address.toNat < 2 ^ 39)

include hfree haddress

theorem ensure_table_delivers (hstaged : Staged initial view taken address level table index loader)
    (hlevel : level ≠ 1) (hneeded : taken + 1 ≤ needed) :
    Delivers (· = loader) (ensure_table table index)
      (fun _ loader => Staged initial view (taken + 1) address level table index loader ∧
        has (loader.memory table index) PAGE_TABLE_ENTRY_PRESENT = true)
      (OutOfPages initial needed) := by
  obtain ⟨hbuilt, hpath⟩ := hstaged
  apply read_entry_bind
  rintro _ rfl
  split
  · next hpresent =>
    apply Ends.pure.pre
    rintro _ rfl
    exact ⟨⟨hbuilt.weaken (Nat.le_succ taken), hpath⟩, hpresent⟩
  · next habsent =>
    apply Ends.bind (allocate_zeroed_page_delivers.mono (fun _ h => h) (fun _ _ h => h) _)
    · intro page
      apply Ends.at_state
      rintro zeroed ⟨hpages, hzeroed⟩
      apply write_entry_delivers.post
      rintro _ after rfl
      obtain ⟨hlinked, hpath⟩ := hbuilt.link hpath haddress hfree hlevel (Bool.eq_false_iff.mpr habsent) hpages
        (congrArg (Loader.wrote · table index (table_entry page)) hzeroed)
      exact ⟨⟨hlinked, hpath⟩, by rw [Loader.wrote_memory, TableMemory.write_same, table_entry_present]⟩
    · rintro error _ ⟨herror, hempty, hpages⟩
      have hle := hbuilt.pages_le
      rw [hpages, List.length_nil] at hle
      exact ⟨herror, hempty, by omega⟩

omit hfree in
theorem enter_table_delivers {E : EfiStatus → Loader → Prop} (hlevel : level ≠ 1) (hnone : view address = none) :
    Delivers (fun loader => Staged initial view taken address level table index loader ∧
        has (loader.memory table index) PAGE_TABLE_ENTRY_PRESENT = true)
      (enter_table table index)
      (fun child => Staged initial view taken address (level - 1) child (table_index (level - 1) address)) E := by
  apply read_entry_bind
  rintro loader ⟨⟨hbuilt, hpath⟩, hpresent⟩
  obtain ⟨child, hlink, haligned, hdown⟩ := hbuilt.linked hpath haddress hnone hlevel hpresent
  rw [hlink, table_entry_huge, table_entry_address haligned]
  apply Ends.pure.pre
  rintro _ rfl
  exact ⟨hbuilt, hdown⟩

theorem ensure_physical_page_directory_delivers (hnone : view address = none) (hneeded : taken + 2 ≤ needed) :
    Delivers (Built initial view taken) (ensure_physical_page_directory address)
      (fun level2 => Staged initial view (taken + 2) address 2 level2 (level2_index address))
      (OutOfPages initial needed) := by
  rw [level2_index_eq]
  unfold ensure_physical_page_directory
  rw [level3_index_eq]
  apply Ends.get_bind
  intro loader hbuilt
  apply Ends.bind (ensure_table_delivers hfree haddress ⟨hbuilt, .slot⟩ (by decide) (by omega))
  intro _
  apply read_entry_bind
  rintro ensured ⟨⟨hensured, hpath⟩, hpresent⟩
  obtain ⟨level3, hlink, haligned, hdown⟩ := hensured.linked hpath haddress hnone (by decide) hpresent
  rw [hlink, table_entry_address haligned]
  apply Ends.bind (ensure_table_delivers hfree haddress ⟨hensured, hdown⟩ (by decide) hneeded)
  intro _
  exact enter_table_delivers haddress (by decide) hnone

theorem ensure_physical_page_table_delivers (hnone : view address = none) (hneeded : taken + 3 ≤ needed) :
    Delivers (Built initial view taken) (ensure_physical_page_table address)
      (fun page_table => Staged initial view (taken + 3) address 1 page_table (page_index address))
      (OutOfPages initial needed) := by
  rw [page_index_eq]
  apply Ends.bind (ensure_physical_page_directory_delivers hfree haddress hnone (by omega))
  intro level2
  rw [level2_index_eq]
  apply Ends.at_state
  intro loader hstaged
  apply Ends.bind (ensure_table_delivers hfree haddress hstaged (by decide) hneeded)
  intro _
  exact enter_table_delivers haddress (by decide) hnone

end Ensuring

/-- A leaf that maps the page of an address onto itself, to be written but not executed. -/
structure Leaf.Covers (leaf : Leaf) (address : UInt64) : Prop where
  writable : leaf.writable = true
  no_execute : leaf.no_execute = true
  frame : (leaf.entry &&& frame_mask leaf.level).toNat = address.toNat / page_size leaf.level * page_size leaf.level

/-- The view maps the addresses of a set onto themselves and no others. -/
structure Exact (view : UInt64 → Option Leaf) (addresses : Set Nat) : Prop where
  mapped : ∀ address : UInt64, address.toNat < 2 ^ 39 → address.toNat ∈ addresses →
    ∃ leaf, view address = some leaf ∧ leaf.Covers address
  unmapped : ∀ address : UInt64, address.toNat < 2 ^ 39 → address.toNat ∉ addresses → view address = none

/-- The direct map holds exactly the addresses of a set. -/
def Mapped (initial : Loader) (addresses : Set Nat) (taken : Nat) (loader : Loader) : Prop :=
  ∃ view, Built initial view taken loader ∧ Exact view addresses

theorem same_page_iff {size start other : Nat} (hsize : 0 < size) (haligned : start % size = 0) :
    other / size = start / size ↔ other ∈ Set.Ico start (start + size) := by
  obtain ⟨number, rfl⟩ := Nat.dvd_of_mod_eq_zero haligned
  rw [Nat.mul_div_cancel_left _ hsize, Nat.div_eq_iff hsize, Set.mem_Ico, Nat.mul_comm size number]
  constructor
  all_goals
    rintro ⟨hlow, hhigh⟩
    exact ⟨hlow, by omega⟩

/-- A page more. -/
theorem Exact.with_page {view : UInt64 → Option Leaf} {addresses : Set Nat} (hexact : Exact view addresses) {level : Nat}
    {entry : UInt64} (haligned : address.toNat % page_size level = 0) {leaf : Leaf}
    (hleaf : leaf_of level entry = some leaf) (hwritable : leaf.writable = true) (hexecute : leaf.no_execute = true)
    (hlevel : leaf.level = level) (hframe : (leaf.entry &&& frame_mask level).toNat = address.toNat) :
    Exact (with_page view level address entry)
      (addresses ∪ Set.Ico address.toNat (address.toNat + page_size level)) := by
  constructor
  · intro other hother hmem
    unfold bootloader.with_page
    split
    · next hpage =>
      refine ⟨leaf, hleaf, hwritable, hexecute, ?_⟩
      rw [hlevel, hframe, hpage, Nat.div_mul_cancel (Nat.dvd_of_mod_eq_zero haligned)]
    · next hpage =>
      rw [same_page_iff (page_size_pos level) haligned] at hpage
      exact hexact.mapped other hother (hmem.resolve_right hpage)
  · intro other hother hmem
    rw [Set.mem_union, not_or] at hmem
    unfold bootloader.with_page
    rw [if_neg fun hpage => hmem.2 ((same_page_iff (page_size_pos level) haligned).mp hpage)]
    exact hexact.unmapped other hother hmem.1

section Leaves

theorem page_entry_present : has (page_entry address) PAGE_TABLE_ENTRY_PRESENT = true := by
  rw [page_entry_eq, has_flagged _ _ (by decide)]
  decide

theorem huge_entry_present : has (huge_entry address) PAGE_TABLE_ENTRY_PRESENT = true := by
  rw [huge_entry_eq, has_flagged _ _ (by decide)]
  decide

theorem child_table_huge_entry : child_table 2 (huge_entry address) = none := by
  apply child_table_of_huge
  rw [huge_entry_eq, has_flagged _ _ (by decide)]
  decide

theorem leaf_of_page_entry : leaf_of 1 (page_entry address) = some ⟨1, page_entry address, true, true⟩ := by
  have hwritable : has (page_entry address) PAGE_TABLE_ENTRY_WRITABLE = true := by
    rw [page_entry_eq, has_flagged _ _ (by decide)]
    decide
  have hexecute : has (page_entry address) PAGE_TABLE_ENTRY_NO_EXECUTE = true := by
    rw [page_entry_eq, has_flagged _ _ (by decide)]
    decide
  rw [leaf_of, page_entry_present, hwritable, hexecute]
  rfl

theorem leaf_of_huge_entry : leaf_of 2 (huge_entry address) = some ⟨2, huge_entry address, true, true⟩ := by
  have hwritable : has (huge_entry address) PAGE_TABLE_ENTRY_WRITABLE = true := by
    rw [huge_entry_eq, has_flagged _ _ (by decide)]
    decide
  have hexecute : has (huge_entry address) PAGE_TABLE_ENTRY_NO_EXECUTE = true := by
    rw [huge_entry_eq, has_flagged _ _ (by decide)]
    decide
  rw [leaf_of, huge_entry_present, hwritable, hexecute]
  rfl

theorem aligned_address (haligned : address.toNat % 4096 = 0) (haddress : address.toNat < 2 ^ 39) :
    address &&& PAGE_TABLE_ADDRESS_MASK = address :=
  UInt64.and_field 12 40 (by decide) haligned (by omega)

theorem page_entry_frame (haligned : address.toNat % 4096 = 0) (haddress : address.toNat < 2 ^ 39) :
    (page_entry address &&& frame_mask 1).toNat = address.toNat := by
  have hmask : frame_mask 1 = PAGE_TABLE_ADDRESS_MASK := rfl
  rw [hmask, page_entry_eq, UInt64.field_of_flagged (by decide), aligned_address haligned haddress,
    aligned_address haligned haddress]

theorem huge_entry_frame (haligned : address.toNat % 2097152 = 0) (haddress : address.toNat < 2 ^ 39) :
    (huge_entry address &&& frame_mask 2).toNat = address.toNat := by
  have hframe : address &&& frame_mask 2 = address :=
    UInt64.and_field 21 31 (by decide) haligned (by omega)
  rw [huge_entry_eq, UInt64.field_of_flagged (by decide), aligned_address (by omega) haddress, hframe]

end Leaves

section Pages

variable {initial : Loader} {addresses : Set Nat} {taken needed : Nat}
  (hfree : FreePages initial.memory initial.kernel_page_table_root initial.pages) (haddress : address.toNat < 2 ^ 39)

include hfree haddress

section Page

variable (haligned : address.toNat % 4096 = 0) (hunmapped : address.toNat ∉ addresses) (hneeded : taken + 3 ≤ needed)
include haligned hunmapped hneeded

/-- A 4 KiB page that is not mapped yet: the loops of both page sizes map it the same way. -/
theorem page_delivers {occupied : LoaderM Unit} :
    Delivers (Mapped initial addresses taken)
      (do
        let page_table ← ensure_physical_page_table address
        let entry ← read_entry page_table (page_index address)
        if has entry PAGE_TABLE_ENTRY_PRESENT then
          occupied
        else
          write_entry page_table (page_index address) (page_entry address))
      (fun _ => Mapped initial (addresses ∪ Set.Ico address.toNat (address.toNat + 4096)) (taken + 3))
      (OutOfPages initial needed) := by
  apply Ends.at_state
  rintro loader ⟨view, hbuilt, hexact⟩
  have hnone := hexact.unmapped address haddress hunmapped
  have hensure := ensure_physical_page_table_delivers hfree haddress hnone hneeded
  apply Ends.bind (hensure.pre (R := (· = loader)) fun _ h => h ▸ hbuilt)
  intro page_table
  apply read_entry_bind
  rintro ensured ⟨hensured, hpath⟩
  rw [page_index_eq] at hpath ⊢
  rw [hensured.unused hpath haddress hnone]
  apply write_entry_delivers.post
  rintro _ _ rfl
  exact ⟨_, hensured.page hpath haddress page_entry_present (child_table_one _) (by decide),
    hexact.with_page haligned leaf_of_page_entry rfl rfl rfl (page_entry_frame haligned haddress)⟩

theorem map_physical_page_4kib_delivers :
    Delivers (Mapped initial addresses taken) (map_physical_page_4kib address)
      (fun _ => Mapped initial (addresses ∪ Set.Ico address.toNat (address.toNat + 4096)) (taken + 3))
      (OutOfPages initial needed) :=
  page_delivers hfree haddress haligned hunmapped hneeded

theorem fill_page_delivers :
    Delivers (Mapped initial addresses taken) (fill_page address)
      (fun _ => Mapped initial (addresses ∪ Set.Ico address.toNat (address.toNat + 4096)) (taken + 3))
      (OutOfPages initial needed) :=
  page_delivers hfree haddress haligned hunmapped hneeded

end Page

omit hfree haddress in
theorem nth_page (hbelow : address.toNat + 2097152 ≤ 2 ^ 39) {index : Nat} (hindex : index < PAGE_TABLE_ENTRY_COUNT) :
    (address + UInt64.ofNat index * EFI_PAGE_SIZE).toNat = address.toNat + 4096 * index := by
  have hcount : PAGE_TABLE_ENTRY_COUNT = 512 := rfl
  have hpage : EFI_PAGE_SIZE.toNat = 4096 := rfl
  rw [UInt64.toNat_add, UInt64.toNat_mul, hpage, UInt64.toNat_ofNat']
  omega

omit haddress in
/-- The loop of `MapPhysicalPage2MiB` over the pages of a table. -/
theorem fill_pages_delivers (haligned : address.toNat % 4096 = 0) (hbelow : address.toNat + 2097152 ≤ 2 ^ 39)
    (hunmapped : ∀ other ∈ Set.Ico address.toNat (address.toNat + 2097152), other ∉ addresses)
    (hneeded : taken + 1536 ≤ needed) :
    Delivers (Mapped initial addresses taken)
      (Prog.forEach (List.range PAGE_TABLE_ENTRY_COUNT) fun index =>
        fill_page (address + UInt64.ofNat index * EFI_PAGE_SIZE))
      (fun _ => Mapped initial (addresses ∪ Set.Ico address.toNat (address.toNat + 2097152)) (taken + 1536))
      (OutOfPages initial needed) := by
  -- After some turns the beginning of the 2 MiB is mapped.
  let I (count : Nat) : Loader → Prop :=
    Mapped initial (addresses ∪ Set.Ico address.toNat (address.toNat + 4096 * count)) (taken + 3 * count)
  have hstep : ∀ index < PAGE_TABLE_ENTRY_COUNT, Delivers (I index)
      (fill_page (address + UInt64.ofNat index * EFI_PAGE_SIZE)) (fun _ => I (index + 1)) (OutOfPages initial needed) := by
    intro index hindex
    have hpage := nth_page hbelow hindex
    have hbound : index < 512 := hindex
    have hrange : Set.Ico address.toNat (address.toNat + 4096 * (index + 1)) =
        Set.Ico address.toNat (address.toNat + 4096 * index) ∪
          Set.Ico (address.toNat + 4096 * index) (address.toNat + 4096 * index + 4096) := by
      rw [Set.Ico_union_Ico_eq_Ico (by omega) (by omega), Nat.mul_succ, Nat.add_assoc]
    have hfresh : (address + UInt64.ofNat index * EFI_PAGE_SIZE).toNat ∉
        addresses ∪ Set.Ico address.toNat (address.toNat + 4096 * index) := by
      rw [hpage, Set.mem_union, not_or, Set.mem_Ico]
      exact ⟨hunmapped _ ⟨by omega, by omega⟩, by omega⟩
    have hfill : Delivers (I index) (fill_page (address + UInt64.ofNat index * EFI_PAGE_SIZE)) _
        (OutOfPages initial needed) := fill_page_delivers hfree (by omega) (by omega) hfresh (by omega)
    rw [hpage, Set.union_assoc, ← hrange] at hfill
    exact hfill
  obtain ⟨indices, hindices⟩ : ∃ indices, indices = List.range PAGE_TABLE_ENTRY_COUNT := ⟨_, rfl⟩
  have hlength : indices.length = PAGE_TABLE_ENTRY_COUNT := by rw [hindices, List.length_range]
  rw [← hindices]
  have hloop : Delivers (I 0) (Prog.forEach indices fun index =>
      fill_page (address + UInt64.ofNat index * EFI_PAGE_SIZE)) (fun _ => I indices.length)
      (OutOfPages initial needed) := by
    apply Ends.forEach fun done => I done.length
    intro done index rest hitems
    have hcount := congrArg List.length hitems
    rw [List.length_append, List.length_cons, hlength] at hcount
    have hindex : index = done.length := by
      have hget := congrArg (fun items => items[done.length]?) (hindices.symm.trans hitems)
      simp only [List.getElem?_append_right (Nat.le_refl _), Nat.sub_self, List.getElem?_cons_zero] at hget
      rw [List.getElem?_range (by omega), Option.some.injEq] at hget
      exact hget.symm
    rw [List.length_append, List.length_singleton, ← hindex]
    exact hstep index (by omega)
  rw [hlength] at hloop
  apply hloop.pre
  intro loader hloader
  change Mapped initial (addresses ∪ Set.Ico address.toNat (address.toNat + 4096 * 0)) _ loader
  rwa [Nat.mul_zero, Nat.add_zero, Set.Ico_self, Set.union_empty]

/-- A 2 MiB page of which nothing is mapped yet. When the page directory has a table for it, the
table is filled. -/
theorem map_physical_page_2mib_delivers (haligned : address.toNat % 2097152 = 0)
    (hbelow : address.toNat + 2097152 ≤ 2 ^ 39)
    (hunmapped : ∀ other ∈ Set.Ico address.toNat (address.toNat + 2097152), other ∉ addresses)
    (hneeded : taken + 2048 ≤ needed) :
    Delivers (Mapped initial addresses taken) (map_physical_page_2mib address)
      (fun _ => Mapped initial (addresses ∪ Set.Ico address.toNat (address.toNat + 2097152)) (taken + 2048))
      (OutOfPages initial needed) := by
  apply Ends.at_state
  rintro loader ⟨view, hbuilt, hexact⟩
  have hnone := hexact.unmapped address haddress (hunmapped _ ⟨Nat.le_refl _, by omega⟩)
  have hensure := ensure_physical_page_directory_delivers hfree haddress hnone (show taken + 2 ≤ needed by omega)
  apply Ends.bind (hensure.pre (R := (· = loader)) fun _ h => h ▸ hbuilt)
  intro level2
  apply read_entry_bind
  rintro ensured ⟨hensured, hpath⟩
  rw [level2_index_eq] at hpath ⊢
  split
  · next hpresent =>
    obtain ⟨page_table, hlink, _, _⟩ := hensured.linked hpath haddress hnone (by decide) hpresent
    rw [hlink, table_entry_huge, if_neg Bool.false_ne_true]
    have hfill := fill_pages_delivers hfree (by omega) hbelow hunmapped (show taken + 2 + 1536 ≤ needed by omega)
    apply hfill.mono _ _ fun _ _ h => h
    · rintro _ rfl
      exact ⟨view, hensured, hexact⟩
    · rintro _ after ⟨filled, hfilled, hfilledExact⟩
      exact ⟨filled, hfilled.weaken (by omega), hfilledExact⟩
  · apply write_entry_delivers.post
    rintro _ _ rfl
    exact ⟨_, (hensured.page hpath haddress huge_entry_present child_table_huge_entry (by decide)).weaken (by omega),
      hexact.with_page haligned leaf_of_huge_entry rfl rfl rfl (huge_entry_frame haligned haddress)⟩

end Pages

section Ranges

variable {initial : Loader} {addresses : Set Nat} {taken needed : Nat}
  (hfree : FreePages initial.memory initial.kernel_page_table_root initial.pages)

theorem Mapped.weaken {more : Nat} (hmapped : Mapped initial addresses taken loader)
    (hmore : taken ≤ more) : Mapped initial addresses more loader := by
  obtain ⟨view, hbuilt, hexact⟩ := hmapped
  exact ⟨view, hbuilt.weaken hmore, hexact⟩

theorem huge_aligned_iff (address : UInt64) : address &&& (HUGE_PAGE_SIZE - 1) = 0 ↔ address.toNat % 2097152 = 0 := by
  rw [← UInt64.toNat_inj, UInt64.toNat_and]
  exact Eq.congr_left (Nat.and_two_pow_sub_one_eq_mod address.toNat 21)

include hfree

/-- The loop over a range of `pages` pages takes no more turns than that. -/
theorem map_range_delivers {finish : UInt64} {turns pages : Nat}
    (hpages : address.toNat + 4096 * pages = finish.toNat) (hturns : pages ≤ turns)
    (haligned : address.toNat % 4096 = 0) (hfinish : finish.toNat ≤ 2 ^ 39)
    (hunmapped : ∀ other ∈ Set.Ico address.toNat finish.toNat, other ∉ addresses)
    (hneeded : taken + 4 * pages ≤ needed) :
    Delivers (Mapped initial addresses taken) (map_range finish turns address)
      (fun _ => Mapped initial (addresses ∪ Set.Ico address.toNat finish.toNat) (taken + 4 * pages))
      (OutOfPages initial needed) := by
  induction turns generalizing address pages addresses taken with
  | zero =>
    apply Ends.pure.pre
    intro loader hloader
    rw [Set.Ico_eq_empty (by omega), Set.union_empty]
    exact hloader.weaken (Nat.le_add_right _ _)
  | succ turns ih =>
    -- A turn of either kind maps the next `count` pages and goes on after them.
    have hturn : ∀ (count : Nat) (map : LoaderM Unit) (next : UInt64), 0 < count → count ≤ pages →
        next.toNat = address.toNat + 4096 * count →
        Delivers (Mapped initial addresses taken) map
          (fun _ => Mapped initial (addresses ∪ Set.Ico address.toNat (address.toNat + 4096 * count)) (taken + 4 * count))
          (OutOfPages initial needed) →
        Delivers (Mapped initial addresses taken) (do map; map_range finish turns next)
          (fun _ => Mapped initial (addresses ∪ Set.Ico address.toNat finish.toNat) (taken + 4 * pages))
          (OutOfPages initial needed) := by
      intro count map next hcount hle hnext hmap
      apply Ends.bind hmap
      intro _
      have hunmappedNext : ∀ other ∈ Set.Ico next.toNat finish.toNat,
          other ∉ addresses ∪ Set.Ico address.toNat (address.toNat + 4096 * count) := by
        rintro other ⟨hlow, hhigh⟩
        rw [Set.mem_union, not_or, Set.mem_Ico]
        exact ⟨hunmapped other ⟨by omega, hhigh⟩, by omega⟩
      have hrest := @ih next _ (taken + 4 * count) (pages - count) (by omega) (by omega) (by omega) hunmappedNext (by omega)
      rw [hnext, Set.union_assoc, Set.Ico_union_Ico_eq_Ico (by omega) (by omega)] at hrest
      apply hrest.post
      intro _ loader hloader
      exact hloader.weaken (by omega)
    have hhugeSize : HUGE_PAGE_SIZE.toNat = 2097152 := rfl
    have hpageSize : EFI_PAGE_SIZE.toNat = 4096 := rfl
    unfold map_range
    split
    · next hmore =>
      rw [UInt64.lt_iff_toNat_lt] at hmore
      split
      · next hhuge =>
        rw [huge_aligned_iff, ge_iff_le, UInt64.le_iff_toNat_le,
          UInt64.toNat_sub_of_le _ _ (UInt64.le_iff_toNat_le.mpr (by omega)), hhugeSize] at hhuge
        apply hturn 512 _ _ (by decide) (by omega)
        · rw [UInt64.toNat_add, hhugeSize]
          omega
        · exact map_physical_page_2mib_delivers hfree (by omega) hhuge.1 (by omega)
            (fun other hother => hunmapped other ⟨hother.1, by have := hother.2; omega⟩) (by omega)
      · apply hturn 1 _ _ (by decide) (by omega)
        · rw [UInt64.toNat_add, hpageSize]
          omega
        · apply (map_physical_page_4kib_delivers hfree (by omega) haligned
            (hunmapped _ ⟨Nat.le_refl _, hmore⟩) (by omega)).post
          intro _ loader hloader
          exact hloader.weaken (by omega)
    · next hdone =>
      rw [UInt64.lt_iff_toNat_lt] at hdone
      apply Ends.pure.pre
      intro loader hloader
      rw [Set.Ico_eq_empty (by omega), Set.union_empty]
      exact hloader.weaken (Nat.le_add_right _ _)

/-- A range that ends in the window passes the checks of `MapPhysicalMemoryRange`. -/
theorem map_physical_memory_range_delivers {start page_count : UInt64} (haligned : start.toNat % 4096 = 0)
    (hbelow : start.toNat + 4096 * page_count.toNat ≤ 2 ^ 39)
    (hunmapped : ∀ other ∈ Set.Ico start.toNat (start.toNat + 4096 * page_count.toNat), other ∉ addresses)
    (hneeded : taken + 4 * page_count.toNat ≤ needed) :
    Delivers (Mapped initial addresses taken) (map_physical_memory_range start page_count)
      (fun _ => Mapped initial (addresses ∪ Set.Ico start.toNat (start.toNat + 4096 * page_count.toNat))
        (taken + 4 * page_count.toNat))
      (OutOfPages initial needed) := by
  have hpageSize : EFI_PAGE_SIZE.toNat = 4096 := rfl
  have hlimit : ((0xFFFFFFFFFFFFFFFF : UInt64) / EFI_PAGE_SIZE).toNat = 4503599627370495 := rfl
  have hmax : (0xFFFFFFFFFFFFFFFF : UInt64).toNat = 18446744073709551615 := rfl
  have hwindow : PHYSICAL_MAP_WINDOW_SIZE.toNat = 2 ^ 39 := rfl
  have hsize : (page_count * EFI_PAGE_SIZE).toNat = 4096 * page_count.toNat := by
    rw [UInt64.toNat_mul, hpageSize]
    omega
  have hroom : ((0xFFFFFFFFFFFFFFFF : UInt64) - page_count * EFI_PAGE_SIZE).toNat =
      18446744073709551615 - 4096 * page_count.toNat := by
    rw [UInt64.toNat_sub_of_le _ _ (UInt64.le_iff_toNat_le.mpr (by omega)), hsize, hmax]
  have hfinish : (start + page_count * EFI_PAGE_SIZE).toNat = start.toNat + 4096 * page_count.toNat := by
    rw [UInt64.toNat_add, hsize]
    omega
  unfold map_physical_memory_range
  dsimp only
  rw [if_neg (by rw [gt_iff_lt, UInt64.lt_iff_toNat_lt]; omega),
    if_neg (by rw [gt_iff_lt, UInt64.lt_iff_toNat_lt]; omega),
    if_neg (by rw [gt_iff_lt, UInt64.lt_iff_toNat_lt]; omega), ← hfinish]
  exact map_range_delivers hfree hfinish.symm (Nat.le_refl _) haligned (by omega) (hfinish ▸ hunmapped) hneeded

end Ranges

/-- The physical addresses a descriptor describes. -/
def EfiMemoryDescriptor.range (descriptor : EfiMemoryDescriptor) : Set Nat :=
  Set.Ico descriptor.physical_start.toNat (descriptor.physical_start.toNat + 4096 * descriptor.number_of_pages.toNat)

/-- The RAM of a memory map. -/
def ram (descriptors : List EfiMemoryDescriptor) : Set Nat :=
  { address | ∃ descriptor ∈ descriptors, is_direct_mapped_ram_type descriptor.type = true ∧ address ∈ descriptor.range }

/-- A memory map of whole pages, disjoint and in the window. -/
structure ValidMap (descriptors : List EfiMemoryDescriptor) : Prop where
  aligned : ∀ descriptor ∈ descriptors, descriptor.physical_start.toNat % 4096 = 0
  below : ∀ descriptor ∈ descriptors,
    descriptor.physical_start.toNat + 4096 * descriptor.number_of_pages.toNat ≤ 2 ^ 39
  disjoint : descriptors.Pairwise fun first second => Disjoint first.range second.range

/-- A bound on the tables that mapping the descriptors takes. -/
def tables_bound (descriptors : List EfiMemoryDescriptor) : Nat :=
  4 * (descriptors.map fun descriptor => descriptor.number_of_pages.toNat).sum

theorem ram_append_of_ram (hram : is_direct_mapped_ram_type descriptor.type = true) :
    ram (descriptors ++ [descriptor]) = ram descriptors ∪ descriptor.range := by
  ext address
  simp only [ram, Set.mem_ofPred_eq, Set.mem_union, List.mem_append, List.mem_singleton, or_and_right, exists_or,
    exists_eq_left, hram, true_and]

theorem ram_append_of_not (hram : is_direct_mapped_ram_type descriptor.type = false) :
    ram (descriptors ++ [descriptor]) = ram descriptors := by
  ext address
  simp only [ram, Set.mem_ofPred_eq, List.mem_append, List.mem_singleton, or_and_right, exists_or, exists_eq_left, hram,
    Bool.false_eq_true, false_and, or_false]

/-- The loop over the descriptors of a memory map. -/
theorem map_descriptors_delivers {initial : Loader}
    (hfree : FreePages initial.memory initial.kernel_page_table_root initial.pages) (hvalid : ValidMap descriptors) :
    Delivers (Mapped initial ∅ 0) (Prog.forEach descriptors map_descriptor)
      (fun _ => Mapped initial (ram descriptors) (tables_bound descriptors))
      (OutOfPages initial (tables_bound descriptors)) := by
  refine (Ends.forEach (fun done => Mapped initial (ram done) (tables_bound done)) ?_).pre ?_
  · intro done descriptor rest hitems
    have hmem : descriptor ∈ descriptors := by simp [hitems]
    have hcost : tables_bound (done ++ [descriptor]) = tables_bound done + 4 * descriptor.number_of_pages.toNat := by
      simp [tables_bound, Nat.mul_add]
    have htotal : tables_bound (done ++ [descriptor]) ≤ tables_bound descriptors := by
      simp only [hitems, tables_bound, List.map_append, List.map_cons, List.map_nil, List.sum_append, List.sum_cons,
        List.sum_nil]
      omega
    have hapart : ∀ other ∈ descriptor.range, other ∉ ram done := by
      rintro other hother ⟨earlier, hearlier, _, hrange⟩
      have hpairwise := hitems ▸ hvalid.disjoint
      have hdisjoint := (List.pairwise_append.mp hpairwise).2.2 earlier hearlier descriptor List.mem_cons_self
      exact Set.disjoint_left.mp hdisjoint hrange hother
    rw [hcost] at htotal ⊢
    unfold map_descriptor
    split
    · next hram =>
      rw [ram_append_of_ram hram]
      exact map_physical_memory_range_delivers hfree (hvalid.aligned _ hmem) (hvalid.below _ hmem) hapart htotal
    · next hram =>
      rw [ram_append_of_not (Bool.eq_false_iff.mpr hram)]
      apply Ends.pure.pre
      intro loader hloader
      exact hloader.weaken (Nat.le_add_right _ _)
  · intro loader hloader
    have hnone : ram [] = ∅ := by simp [ram]
    rwa [hnone]

end leafos.bootloader
