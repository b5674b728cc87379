import LeafOS.Bootloader.Clone
import LeafOS.Bootloader.DirectMap

namespace leafos.bootloader

open Prog (Delivers Ends)

variable {level taken slot : Nat} {memory : TableMemory} {table address : UInt64} {leaf : Leaf} {loader : Loader}
  {level4 : Nat → UInt64}

theorem page_size_cases (hlevel : level ≤ 3) :
    page_size level = 4096 ∨ page_size level = 2097152 ∨ page_size level = 1073741824 := by
  obtain rfl | rfl | rfl | rfl : level = 0 ∨ level = 1 ∨ level = 2 ∨ level = 3 := by omega
  all_goals decide

section Offset

variable (hslot : slot < PAGE_TABLE_ENTRY_COUNT) (haddress : address.toNat < 2 ^ 39)

theorem slot_offset_toNat :
    ∀ slot < PAGE_TABLE_ENTRY_COUNT, (slot_offset slot).toNat = 0xFFFF000000000000 + slot * 2 ^ 39 := by
  decide +kernel

include hslot haddress

/-- The sum of the offset and an address in the window does not overflow. -/
theorem offset_add_toNat : (slot_offset slot + address).toNat = 0xFFFF000000000000 + slot * 2 ^ 39 + address.toNat := by
  have hbound : slot < 512 := hslot
  rw [UInt64.toNat_add, slot_offset_toNat slot hslot]
  omega

theorem table_index_offset_root : table_index 4 (slot_offset slot + address) = slot := by
  have hbound : slot < 512 := hslot
  have hsize : page_size 4 = 2 ^ 39 := rfl
  have hcount : PAGE_TABLE_ENTRY_COUNT = 512 := rfl
  rw [table_index, offset_add_toNat hslot haddress, hsize, hcount]
  omega

/-- Below the root, an address of the direct map has the indices of the physical address. -/
theorem table_index_offset (hlevel : level ≤ 3) :
    table_index level (slot_offset slot + address) = table_index level address := by
  have hcount : PAGE_TABLE_ENTRY_COUNT = 512 := rfl
  rw [table_index, table_index, offset_add_toNat hslot haddress, hcount]
  rcases page_size_cases hlevel with h | h | h <;> rw [h] <;> omega

theorem page_offset (hlevel : level ≤ 3) :
    (slot_offset slot + address).toNat % page_size level = address.toNat % page_size level := by
  rw [offset_add_toNat hslot haddress]
  rcases page_size_cases hlevel with h | h | h <;> rw [h] <;> omega

end Offset

/-- A walk depends on an address through its indices. -/
theorem find_leaf_congr {other : UInt64}
    (hindex : ∀ lower ≤ level, table_index lower address = table_index lower other) :
    find_leaf memory level table address = find_leaf memory level table other := by
  induction level generalizing table with
  | zero => rfl
  | succ level ih =>
    have hbelow := fun lower hlower => hindex lower (Nat.le_succ_of_le hlower)
    have hentry := hindex (level + 1) (Nat.le_refl _)
    cases hchild : child_table (level + 1) (memory table (table_index (level + 1) address)) with
    | none => rw [find_leaf_end hchild, find_leaf_end (hentry ▸ hchild), hentry]
    | some child => rw [find_leaf_child hchild, find_leaf_child (hentry ▸ hchild), hentry, ih hbelow]

theorem level_of_leaf (hlevel : level ≤ 4)
    (hleaf : find_leaf memory level table address = some leaf) : leaf.level ≤ 3 := by
  induction level generalizing table leaf with
  | zero => exact nomatch hleaf
  | succ level ih =>
    unfold find_leaf at hleaf
    dsimp only at hleaf
    split at hleaf
    · obtain ⟨below, hbelow, rfl⟩ := Option.map_eq_some_iff.mp hleaf
      exact (ih (by omega) hbelow : below.level ≤ 3)
    · rw [leaf_of, Option.ite_none_right_eq_some, Option.some.injEq, Bool.and_eq_true, bne_iff_ne] at hleaf
      have hne := hleaf.1.2
      rw [← hleaf.2]
      change level + 1 ≤ 3
      omega

/-- Translation in the direct map, through the slot of the root it is built in. -/
theorem translate_offset (hslot : loader.physical_memory_pml4_index < PAGE_TABLE_ENTRY_COUNT)
    (haddress : address.toNat < 2 ^ 39) :
    translate loader.memory loader.kernel_page_table_root
        (slot_offset loader.physical_memory_pml4_index + address) =
      (lookup loader address).map (·.translation address) := by
  have hfind : find_leaf loader.memory 4 loader.kernel_page_table_root
      (slot_offset loader.physical_memory_pml4_index + address) = lookup loader address := by
    rw [find_leaf_eq_cell_leaf, table_index_offset_root hslot haddress, lookup, cell_leaf, cell_leaf]
    cases child_table 4 (loader.memory loader.kernel_page_table_root loader.physical_memory_pml4_index) with
    | none => rfl
    | some child =>
      dsimp only
      rw [find_leaf_congr fun lower hlower => table_index_offset hslot haddress hlower]
  rw [translate, ← hfind]
  cases hleaf : find_leaf loader.memory 4 loader.kernel_page_table_root
      (slot_offset loader.physical_memory_pml4_index + address) with
  | none => rfl
  | some leaf =>
    simp only [Option.map_some, Leaf.translation, page_offset hslot haddress (level_of_leaf (Nat.le_refl 4) hleaf)]

theorem Leaf.Covers.translation (hcovers : leaf.Covers address) :
    (leaf.translation address).physical = address.toNat := by
  rw [Leaf.translation, hcovers.frame, Nat.div_add_mod']

/-- An address outside the slot keeps its translation while its walk stays out of the root. -/
theorem Built.translate_elsewhere {initial : Loader} {view : UInt64 → Option Leaf}
    (hbuilt : Built initial view taken loader)
    (hfree : FreePages initial.memory initial.kernel_page_table_root initial.pages)
    (hindex : table_index 4 address ≠ initial.physical_memory_pml4_index)
    (havoids : initial.kernel_page_table_root ∉ entered initial.memory 4 initial.kernel_page_table_root address) :
    translate loader.memory initial.kernel_page_table_root address =
      translate initial.memory initial.kernel_page_table_root address := by
  obtain ⟨cells, hwindow⟩ := hbuilt.window
  rw [translate, translate, find_leaf_frame]
  · exact hwindow.frame _ _ (hfree.unused _ _ .root) fun h => hindex h.2
  · intro found hfound
    obtain ⟨depth, hreachable⟩ := reachable_of_entered .root hfound
    funext other
    apply hwindow.frame _ _ (hfree.unused _ _ hreachable)
    rintro ⟨rfl, _⟩
    exact havoids hfound

theorem free_slot_eq_some (hslot : free_slot level4 = some slot) :
    256 ≤ slot ∧ slot < PAGE_TABLE_ENTRY_COUNT ∧ has (level4 slot) PAGE_TABLE_ENTRY_PRESENT = false := by
  have habsent := List.find?_some hslot
  have hmem := List.mem_range'_1.mp (List.mem_of_find?_eq_some hslot)
  rw [Bool.not_eq_true'] at habsent
  exact ⟨hmem.1, hmem.2, habsent⟩

theorem free_slot_isSome (hlow : 256 ≤ slot) (hhigh : slot < PAGE_TABLE_ENTRY_COUNT)
    (habsent : has (level4 slot) PAGE_TABLE_ENTRY_PRESENT = false) : ∃ found, free_slot level4 = some found := by
  rw [← Option.isSome_iff_exists, free_slot, List.find?_isSome]
  exact ⟨slot, List.mem_range'_1.mpr ⟨hlow, hhigh⟩, by rw [habsent]; rfl⟩

/-- What the loader leaves at the end: RAM mapped onto itself at the offset, to be written and
not executed, nothing else in the window, and the rest of the address space as it was. -/
structure DirectlyMapped (before : Loader) (memory : Set Nat) (after : Loader) : Prop where
  root : after.kernel_page_table_root = before.kernel_page_table_root
  slot : 256 ≤ after.physical_memory_pml4_index ∧ after.physical_memory_pml4_index < PAGE_TABLE_ENTRY_COUNT
  mapped : ∀ address : UInt64, address.toNat < 2 ^ 39 → address.toNat ∈ memory →
    ∃ found, translate after.memory after.kernel_page_table_root (after.physical_memory_offset + address) = some found ∧
      found.physical = address.toNat ∧ found.writable = true ∧ found.no_execute = true
  unmapped : ∀ address : UInt64, address.toNat < 2 ^ 39 → address.toNat ∉ memory →
    translate after.memory after.kernel_page_table_root (after.physical_memory_offset + address) = none
  elsewhere : ∀ address, table_index 4 address ≠ after.physical_memory_pml4_index →
    before.kernel_page_table_root ∉ entered before.memory 4 before.kernel_page_table_root address →
    translate after.memory after.kernel_page_table_root address =
      translate before.memory before.kernel_page_table_root address

/-- The loader once it has chosen the slot of the direct map. -/
def Loader.with_slot (loader : Loader) (slot : Nat) : Loader :=
  { loader with physical_memory_pml4_index := slot, physical_memory_offset := slot_offset slot }

theorem Mapped.directly {after : Loader} {addresses : Set Nat} (hlow : 256 ≤ slot)
    (hhigh : slot < PAGE_TABLE_ENTRY_COUNT) (hfree : FreePages loader.memory loader.kernel_page_table_root loader.pages)
    (hmapped : Mapped (loader.with_slot slot) addresses taken after) : DirectlyMapped loader addresses after := by
  obtain ⟨view, hbuilt, hexact⟩ := hmapped
  obtain ⟨cells, hwindow⟩ := hbuilt.window
  have hroot : after.kernel_page_table_root = loader.kernel_page_table_root := hwindow.root_eq
  have hslot : after.physical_memory_pml4_index = slot := hwindow.slot_eq
  have hoffset : after.physical_memory_offset = slot_offset after.physical_memory_pml4_index := by
    rw [hslot, hwindow.globals]
    rfl
  have htranslate : ∀ address : UInt64, address.toNat < 2 ^ 39 →
      translate after.memory after.kernel_page_table_root (after.physical_memory_offset + address) =
        (view address).map (·.translation address) := by
    intro address haddress
    rw [hoffset, translate_offset (hslot ▸ hhigh) haddress, hbuilt.lookup_eq address haddress]
  refine ⟨hroot, hslot ▸ ⟨hlow, hhigh⟩, ?_, ?_, ?_⟩
  · intro address haddress hmem
    obtain ⟨leaf, hview, hcovers⟩ := hexact.mapped address haddress hmem
    rw [htranslate address haddress, hview]
    exact ⟨_, rfl, hcovers.translation, hcovers.writable, hcovers.no_execute⟩
  · intro address haddress hmem
    rw [htranslate address haddress, hexact.unmapped address haddress hmem]
    rfl
  · intro address hindex havoids
    rw [hslot] at hindex
    rw [hroot]
    exact hbuilt.translate_elsewhere hfree hindex havoids

theorem choose_slot_eq (hslot : free_slot (loader.memory loader.kernel_page_table_root) = some slot) :
    choose_slot loader = (.ok (), loader.with_slot slot) := by
  simp only [choose_slot, Prog.bind_apply, Prog.get_apply, hslot, Prog.set_apply]
  rfl

/-- `BuildPhysicalMemoryMapping`, given the memory map the firmware reports. -/
theorem build_physical_memory_mapping_delivers {firmware : Firmware}
    {descriptors : List EfiMemoryDescriptor} (hmap : read_memory_map firmware = .ok descriptors)
    (hvalid : ValidMap descriptors) (hslot : free_slot (loader.memory loader.kernel_page_table_root) = some slot)
    (hfree : FreePages loader.memory loader.kernel_page_table_root loader.pages) :
    Delivers (· = loader) (build_physical_memory_mapping firmware)
      (fun _ => DirectlyMapped loader (ram descriptors)) (OutOfPages loader (tables_bound descriptors)) := by
  obtain ⟨hlow, hhigh, habsent⟩ := free_slot_eq_some hslot
  have hstart : Mapped (loader.with_slot slot) ∅ 0 (loader.with_slot slot) :=
    ⟨_, Built.start habsent (hfree.unused _ _ .root), fun _ _ h => h.elim, fun _ _ _ => rfl⟩
  have hmaps : Delivers (Mapped (loader.with_slot slot) ∅ 0) (Prog.forEach descriptors map_descriptor) _
      (OutOfPages loader (tables_bound descriptors)) := map_descriptors_delivers hfree hvalid
  have hloop := hmaps.post fun _ after hmapped => hmapped.directly hlow hhigh hfree
  constructor
  rintro _ rfl
  rw [build_physical_memory_mapping, Prog.bind_apply, choose_slot_eq hslot]
  dsimp only
  rw [Prog.bind_apply, hmap]
  exact hloop.ends _ hstart

/-- The direct map is exact. With a memory map of disjoint descriptors of whole pages below
512 GiB and a free slot in the upper half, the loader maps the RAM of the map and nothing else,
and disturbs no other translation; the one error it can meet is that the pages run out. -/
theorem direct_map_exact (firmware : Firmware) (loader : Loader) (descriptors : List EfiMemoryDescriptor)
    (hmap : read_memory_map firmware = .ok descriptors) (hvalid : ValidMap descriptors)
    (hslot : ∃ slot, 256 ≤ slot ∧ slot < PAGE_TABLE_ENTRY_COUNT ∧
      has (loader.memory loader.kernel_page_table_root slot) PAGE_TABLE_ENTRY_PRESENT = false)
    (hfree : FreePages loader.memory loader.kernel_page_table_root loader.pages) :
    (∃ after, build_physical_memory_mapping firmware loader = (.ok (), after) ∧
        DirectlyMapped loader (ram descriptors) after) ∨
      ∃ after, build_physical_memory_mapping firmware loader = (.err .out_of_resources, after) ∧
        after.pages = [] ∧ loader.pages.length < tables_bound descriptors := by
  obtain ⟨free, hlow, hhigh, habsent⟩ := hslot
  obtain ⟨slot, hslot⟩ := free_slot_isSome hlow hhigh habsent
  have hdelivers := build_physical_memory_mapping_delivers hmap hvalid hslot hfree
  rcases hdelivers.run (rfl : loader = loader) with
    ⟨_, after, hrun, hmapped⟩ | ⟨error, after, hrun, rfl, hempty, hshort⟩
  · exact .inl ⟨after, hrun, hmapped⟩
  · exact .inr ⟨after, hrun, hempty, hshort⟩

/-- `CloneActivePageTables` leaves tables of the loader's own. They map RAM as `direct_map_exact` says, and every
address outside the slot of the direct map whose walk does not come back to the root translates as under the firmware's
root, unless a huge page at the root's own address maps it. -/
theorem clone_active_page_tables_exact {firmware : Firmware} {descriptors : List EfiMemoryDescriptor}
    {cr3_value cr4_value root : UInt64} (hlevels : has cr4_value ((1 : UInt64) <<< 12) = false)
    (hroot : cr3_value &&& PAGE_TABLE_ADDRESS_MASK = root) (hmap : read_memory_map firmware = .ok descriptors)
    (hvalid : ValidMap descriptors) (hlow : 256 ≤ slot) (hhigh : slot < PAGE_TABLE_ENTRY_COUNT)
    (habsent : has (loader.memory root slot) PAGE_TABLE_ENTRY_PRESENT = false)
    (hfree : FreePages loader.memory root loader.pages) :
    (∃ copied after, clone_active_page_tables firmware cr3_value cr4_value loader =
        (.ok after.kernel_page_table_root, after) ∧ DirectlyMapped copied (ram descriptors) after ∧
      ∀ address, table_index 4 address ≠ after.physical_memory_pml4_index → root ∉ entered loader.memory 4 root address →
        (translate after.memory after.kernel_page_table_root address = translate loader.memory root address ↔
          ∀ leaf, find_leaf loader.memory 4 root address = some leaf → leaf.level ≠ 1 →
            leaf.entry &&& PAGE_TABLE_ADDRESS_MASK ≠ root)) ∨
    ∃ after, clone_active_page_tables firmware cr3_value cr4_value loader = (.err .out_of_resources, after) ∧
      after.pages = [] ∧ loader.pages.length ≤ pages_needed loader.memory root 4 root + tables_bound descriptors := by
  simp only [clone_active_page_tables, hlevels, Bool.false_eq_true, if_false, hroot, Prog.bind_apply, Prog.modify_apply,
    allocate_pages, Prog.get_apply]
  cases hpages : loader.pages with
  | nil => exact .inr ⟨_, rfl, rfl, Nat.zero_le _⟩
  | cons page rest =>
    simp only [Prog.bind_apply, Prog.set_apply, Prog.pure_apply]
    rw [hpages] at hfree
    have hclone := @clone_page_table_level_delivers root page 4 loader.memory root page
      { loader with pages := rest, original_page_table_root := root, kernel_page_table_root := page } .root
      ⟨rfl, rfl, fun _ _ _ => rfl, hfree⟩
    rcases hclone.run rfl with ⟨_, copied, hclone, taken, htakes, hclones, hlength⟩ |
      ⟨_, failed, hclone, rfl, hnone, hshort⟩
    swap
    · rw [hclone]
      exact .inr ⟨failed, rfl, hnone, by rw [List.length_cons]; change rest.length < _ at hshort; omega⟩
    obtain ⟨hcopy, hleft⟩ := htakes.free_pages hclones hfree
    obtain ⟨found, hfound⟩ := free_slot_isSome hlow hhigh (hclones.absent hhigh habsent)
    obtain rfl : copied.kernel_page_table_root = page := by rw [htakes.globals]
    rw [hclone]
    rcases (build_physical_memory_mapping_delivers hmap hvalid hfound hleft).run rfl with
      ⟨_, after, hbuild, hmapped⟩ | ⟨_, failed, hbuild, rfl, hnone, hshort⟩
    · refine .inl ⟨copied, after, by simp only [hbuild, hmapped.root], hmapped, fun address hindex havoids => ?_⟩
      obtain ⟨hsame, htables⟩ := hcopy.translate_iff hclones havoids
      rwa [hmapped.elsewhere address hindex fun h => (List.nodup_cons.mp hcopy.nodup).1 (htables _ h)]
    · refine .inr ⟨failed, by simp only [hbuild], hnone, ?_⟩
      have hcount := congrArg List.length htakes.pages
      rw [List.length_append, hlength] at hcount
      rw [List.length_cons]
      change rest.length = _ at hcount
      omega

/-- Firmware with 513 pages of RAM, for a page of 2 MiB and one of 4 KiB, and a reserved page. -/
def two_page_firmware : Firmware where
  allocate_pool _ _ := none
  get_memory_map call _ :=
    { status := if call = 0 then some .buffer_too_small else none
      map_size := 80
      descriptor_size := 40
      descriptor := fun index => if index = 0 then ⟨7, 0x200000, 513⟩ else ⟨0, 0x500000, 1⟩ }

/-- A loader whose root table is still empty. -/
def empty_loader : Loader where
  memory _ _ := 0
  pages := [0x10000, 0x11000, 0x12000, 0x13000, 0x14000, 0x15000, 0x16000, 0x17000]
  original_page_table_root := 0x8000
  kernel_page_table_root := 0x9000
  physical_memory_offset := 0
  physical_memory_pml4_index := 0

theorem empty_loader_free : FreePages empty_loader.memory 0x9000 empty_loader.pages where
  nodup := by decide
  aligned := by
    simp only [empty_loader, List.forall_mem_cons]
    exact ⟨rfl, rfl, rfl, rfl, rfl, rfl, rfl, rfl, nofun⟩
  unused level table htable := by
    cases htable with
    | root => decide
    | child _ _ hchild => exact absurd hchild (by simp [child_table, empty_loader, has])

theorem direct_map_exact_two_pages :
    ∃ after, build_physical_memory_mapping two_page_firmware empty_loader = (.ok (), after) ∧
      (∃ found, translate after.memory 0x9000 (after.physical_memory_offset + 0x201234) = some found ∧
        found.physical = 0x201234 ∧ found.writable = true ∧ found.no_execute = true) ∧
      translate after.memory 0x9000 (after.physical_memory_offset + 0x500000) = none := by
  have hmap : read_memory_map two_page_firmware = .ok [⟨7, 0x200000, 513⟩, ⟨0, 0x500000, 1⟩] := rfl
  have hvalid : ValidMap [⟨7, 0x200000, 513⟩, ⟨0, 0x500000, 1⟩] := by
    refine ⟨by decide, by decide, ?_⟩
    rw [List.pairwise_pair, Set.disjoint_left]
    rintro address ⟨_, hhigh⟩ ⟨hlow, _⟩
    change address < 0x401000 at hhigh
    change 0x500000 ≤ address at hlow
    omega
  have hfine : (build_physical_memory_mapping two_page_firmware empty_loader).1 = .ok () := by decide +kernel
  rcases direct_map_exact two_page_firmware empty_loader _ hmap hvalid ⟨256, by decide, by decide, by decide⟩
    empty_loader_free with ⟨after, hrun, hmapped⟩ | ⟨_, hrun, _⟩
  · refine ⟨after, hrun, ?_, ?_⟩
    · have hram : (0x201234 : UInt64).toNat ∈ ram [⟨7, 0x200000, 513⟩, ⟨0, 0x500000, 1⟩] :=
        ⟨_, List.mem_cons_self, by decide, by decide, by decide⟩
      have hfound := hmapped.mapped 0x201234 (by decide) hram
      rwa [hmapped.root] at hfound
    · have hother : (0x500000 : UInt64).toNat ∉ ram [⟨7, 0x200000, 513⟩, ⟨0, 0x500000, 1⟩] := by
        rintro ⟨descriptor, hmem, htype, _, hhigh⟩
        simp only [List.mem_cons, List.not_mem_nil, or_false] at hmem
        rcases hmem with rfl | rfl
        · exact absurd hhigh (by decide)
        · exact absurd htype (by decide)
      have hnone := hmapped.unmapped 0x500000 (by decide) hother
      rwa [hmapped.root] at hnone
  · rw [hrun] at hfine
    cases hfine

end leafos.bootloader
