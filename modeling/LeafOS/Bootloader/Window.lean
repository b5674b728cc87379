import LeafOS.Bootloader.Walks

namespace leafos.bootloader

variable {memory : TableMemory} {level : Nat} {entry : UInt64}

/-- What the entry `index` of `table` is for, if it belongs to the direct map: its level, and the
number of the page of that level's size that it stands for. -/
abbrev Cells := UInt64 → Nat → Option (Nat × Nat)

section Entries

variable {flag : UInt64} (page flags : UInt64)

theorem has_flagged (hflag : flag &&& PAGE_TABLE_ADDRESS_MASK = 0) :
    has ((page &&& PAGE_TABLE_ADDRESS_MASK) ||| flags) flag = has flags flag := by
  simp only [has, UInt64.flags_of_flagged hflag]

theorem table_entry_eq :
    table_entry page = (page &&& PAGE_TABLE_ADDRESS_MASK) ||| (PAGE_TABLE_ENTRY_PRESENT ||| PAGE_TABLE_ENTRY_WRITABLE) := by
  rw [table_entry, UInt64.or_assoc]

theorem page_entry_eq :
    page_entry page = (page &&& PAGE_TABLE_ADDRESS_MASK) |||
      (PAGE_TABLE_ENTRY_PRESENT ||| PAGE_TABLE_ENTRY_WRITABLE ||| PAGE_TABLE_ENTRY_NO_EXECUTE) := by
  simp only [page_entry, UInt64.or_assoc]

theorem huge_entry_eq :
    huge_entry page = (page &&& PAGE_TABLE_ADDRESS_MASK) |||
      (PAGE_TABLE_ENTRY_PRESENT ||| PAGE_TABLE_ENTRY_WRITABLE ||| PAGE_TABLE_ENTRY_HUGE |||
        PAGE_TABLE_ENTRY_NO_EXECUTE) := by
  simp only [huge_entry, UInt64.or_assoc]

theorem table_entry_present : has (table_entry page) PAGE_TABLE_ENTRY_PRESENT = true := by
  rw [table_entry_eq, has_flagged _ _ (by decide)]
  decide

theorem table_entry_huge : has (table_entry page) PAGE_TABLE_ENTRY_HUGE = false := by
  rw [table_entry_eq, has_flagged _ _ (by decide)]
  decide

theorem table_entry_address {page : UInt64} (hpage : page &&& PAGE_TABLE_ADDRESS_MASK = page) :
    table_entry page &&& PAGE_TABLE_ADDRESS_MASK = page := by
  rw [table_entry_eq, UInt64.field_of_flagged (by decide), hpage, hpage]

theorem child_table_table_entry {page : UInt64} (hpage : page &&& PAGE_TABLE_ADDRESS_MASK = page)
    (hlevel : level ≠ 1) : child_table level (table_entry page) = some page :=
  child_table_eq_some_iff.mpr ⟨table_entry_present page, hlevel, table_entry_huge page, table_entry_address hpage⟩

/-- The tables of the direct map withhold nothing. -/
theorem through_table_entry (leaf : Leaf) : leaf.through (table_entry page) = leaf := by
  have hwritable : has (table_entry page) PAGE_TABLE_ENTRY_WRITABLE = true := by
    rw [table_entry_eq, has_flagged _ _ (by decide)]
    decide
  have hexecute : has (table_entry page) PAGE_TABLE_ENTRY_NO_EXECUTE = false := by
    rw [table_entry_eq, has_flagged _ _ (by decide)]
    decide
  simp only [Leaf.through, hwritable, hexecute, Bool.and_true, Bool.or_false]

end Entries

/-- What an entry of the direct map can be: absent, a table whose entries divide its page, or a
page of 2 MiB or 4 KiB. -/
inductive CellEntry (cells : Cells) (level number : Nat) : UInt64 → Prop where
  | absent {entry : UInt64} (habsent : has entry PAGE_TABLE_ENTRY_PRESENT = false) : CellEntry cells level number entry
  | table {child : UInt64} (hlevel : level ≠ 1) (haligned : child &&& PAGE_TABLE_ADDRESS_MASK = child)
      (hcells : ∀ index < PAGE_TABLE_ENTRY_COUNT,
        cells child index = some (level - 1, number * PAGE_TABLE_ENTRY_COUNT + index)) :
      CellEntry cells level number (table_entry child)
  | page {entry : UInt64} (hpresent : has entry PAGE_TABLE_ENTRY_PRESENT = true)
      (hleaf : child_table level entry = none) (hlevel : level ≤ 2) : CellEntry cells level number entry

/-- The direct map under construction, from the state `initial` in which its slot was chosen. -/
structure Window (initial : Loader) (cells : Cells) (loader : Loader) : Prop where
  globals : loader = { initial with memory := loader.memory, pages := loader.pages }
  pages : loader.pages <:+ initial.pages
  slot : cells initial.kernel_page_table_root initial.physical_memory_pml4_index = some (4, 0)
  entry : ∀ table index level number, cells table index = some (level, number) →
    CellEntry cells level number (loader.memory table index)
  owned : ∀ table index, cells table index ≠ none →
    table = initial.kernel_page_table_root ∧ index = initial.physical_memory_pml4_index ∨ table ∈ initial.pages
  fresh : ∀ page ∈ loader.pages, ∀ index, cells page index = none
  frame : ∀ table index, table ∉ initial.pages →
    ¬ (table = initial.kernel_page_table_root ∧ index = initial.physical_memory_pml4_index) →
    loader.memory table index = initial.memory table index

/-- The walk from one entry on. -/
def cell_leaf (memory : TableMemory) (level : Nat) (table : UInt64) (index : Nat) (address : UInt64) : Option Leaf :=
  match child_table level (memory table index) with
  | some child => (find_leaf memory (level - 1) child address).map (Leaf.through (memory table index))
  | none => leaf_of level (memory table index)

/-- The page that the direct map has for a physical address. -/
def lookup (loader : Loader) (address : UInt64) : Option Leaf :=
  cell_leaf loader.memory 4 loader.kernel_page_table_root loader.physical_memory_pml4_index address

/-- The walk for an address in the direct map comes to the entry `index` of `table`. -/
inductive Path (loader : Loader) (address : UInt64) : Nat → UInt64 → Nat → Prop where
  | slot : Path loader address 4 loader.kernel_page_table_root loader.physical_memory_pml4_index
  | down {level : Nat} {table child : UInt64} {index : Nat} (hpath : Path loader address (level + 1) table index)
      (hlevel : level ≠ 0) (hlink : loader.memory table index = table_entry child)
      (haligned : child &&& PAGE_TABLE_ADDRESS_MASK = child) :
      Path loader address level child (table_index level address)

theorem find_leaf_eq_cell_leaf (memory : TableMemory) (level : Nat) (table address : UInt64) :
    find_leaf memory (level + 1) table address =
      cell_leaf memory (level + 1) table (table_index (level + 1) address) address := rfl

theorem page_size_succ (hlevel : level ≠ 0) : page_size (level + 1) = page_size level * PAGE_TABLE_ENTRY_COUNT := by
  obtain ⟨level, rfl⟩ := Nat.exists_eq_succ_of_ne_zero hlevel
  rw [page_size, page_size, PAGE_TABLE_ENTRY_COUNT, show (512 : Nat) = 2 ^ 9 from rfl, ← Nat.pow_add]
  rfl

theorem page_size_pos (level : Nat) : 0 < page_size level := Nat.two_pow_pos _

/-- The number of a page, from that of the page one size up that it lies in. -/
theorem page_number_split (address : UInt64) (hlevel : level ≠ 0) :
    address.toNat / page_size (level + 1) * PAGE_TABLE_ENTRY_COUNT + table_index level address =
      address.toNat / page_size level := by
  rw [page_size_succ hlevel, ← Nat.div_div_eq_div_mul, table_index, Nat.div_add_mod']

theorem page_number_of_eq {address other : UInt64} (hlevel : level ≠ 0)
    (hnumber : other.toNat / page_size level = address.toNat / page_size level) :
    other.toNat / page_size (level + 1) = address.toNat / page_size (level + 1) := by
  rw [page_size_succ hlevel, ← Nat.div_div_eq_div_mul, hnumber, Nat.div_div_eq_div_mul]

namespace Path

variable {loader : Loader} {address : UInt64} {table : UInt64} {index : Nat}
  (hpath : Path loader address level table index)
include hpath

theorem level_ne : level ≠ 0 := by
  cases hpath with
  | slot => decide
  | down _ hlevel => exact hlevel

/-- What the direct map has for an address is what its walk finds from any entry on its way. -/
theorem lookup_eq : lookup loader address = cell_leaf loader.memory level table index address := by
  induction hpath with
  | slot => rfl
  | @down level table child index hpath hlevel hlink haligned ih =>
    obtain ⟨below, rfl⟩ := Nat.exists_eq_succ_of_ne_zero hlevel
    have hchild : child_table (below + 1 + 1) (table_entry child) = some child :=
      child_table_table_entry haligned (by omega)
    rw [ih, cell_leaf, hlink, hchild]
    dsimp only
    rw [funext (through_table_entry child), Option.map_id', Nat.add_sub_cancel, find_leaf_eq_cell_leaf]

/-- Addresses of one page have their ways in common. -/
theorem same_page {other : UInt64} (hnumber : other.toNat / page_size level = address.toNat / page_size level) :
    Path loader other level table index := by
  induction hpath with
  | slot => exact .slot
  | @down level table child index hpath hlevel hlink haligned ih =>
    have hindex : table_index level address = table_index level other := by
      rw [table_index, table_index, hnumber]
    rw [hindex]
    exact (ih (page_number_of_eq hlevel hnumber)).down hlevel hlink haligned

end Path

section Stores

variable {initial : Loader} {cells : Cells} {loader after : Loader} {address : UInt64} {table : UInt64}
  {index number : Nat}

/-- More entries may join the direct map. -/
theorem CellEntry.extend {more : Cells} (hentry : CellEntry cells level number entry)
    (hmore : ∀ found other, cells found other ≠ none → more found other = cells found other) :
    CellEntry more level number entry := by
  cases hentry with
  | absent habsent => exact .absent habsent
  | page hpresent hleaf hlevel => exact .page hpresent hleaf hlevel
  | table hlevel haligned hcells =>
    refine .table hlevel haligned fun index hindex => ?_
    rw [hmore _ index (by simp [hcells index hindex]), hcells index hindex]

/-- The children of an entry that links a table. -/
theorem CellEntry.children {child : UInt64} (hentry : CellEntry cells level number (table_entry child))
    (hlevel : level ≠ 1) (haligned : child &&& PAGE_TABLE_ADDRESS_MASK = child) :
    ∀ index < PAGE_TABLE_ENTRY_COUNT,
      cells child index = some (level - 1, number * PAGE_TABLE_ENTRY_COUNT + index) := by
  generalize hsame : table_entry child = entry at hentry
  cases hentry with
  | absent habsent =>
    rw [← hsame, table_entry_present] at habsent
    exact nomatch habsent
  | @table other _ hother hcells =>
    have heq : child = other := by rw [← table_entry_address haligned, hsame, table_entry_address hother]
    exact heq ▸ hcells
  | page _ hleaf _ =>
    rw [← hsame, child_table_table_entry haligned hlevel] at hleaf
    exact nomatch hleaf

variable (hwindow : Window initial cells loader)
include hwindow

theorem Window.root_eq : loader.kernel_page_table_root = initial.kernel_page_table_root := by
  rw [hwindow.globals]

theorem Window.slot_eq : loader.physical_memory_pml4_index = initial.physical_memory_pml4_index := by
  rw [hwindow.globals]

/-- The first entry of every walk is that of the slot. -/
theorem Window.slot_cell (haddress : address.toNat < 2 ^ 39) :
    cells loader.kernel_page_table_root loader.physical_memory_pml4_index = some (4, address.toNat / page_size 4) := by
  have hzero : address.toNat / page_size 4 = 0 := Nat.div_eq_of_lt haddress
  rw [hwindow.root_eq, hwindow.slot_eq, hwindow.slot, hzero]

/-- An entry of the direct map is not one of those outside. -/
theorem Window.apart {found : UInt64} {other : Nat} (hcell : cells table index = some (level, number))
    (hfound : found ∉ initial.pages)
    (hslot : ¬ (found = initial.kernel_page_table_root ∧ other = initial.physical_memory_pml4_index)) :
    ¬ (found = table ∧ other = index) := by
  rintro ⟨rfl, rfl⟩
  exact (hwindow.owned found other (by simp [hcell])).elim hslot hfound

/-- A store to the entry of one page changes no walk for an address elsewhere. -/
theorem cell_leaf_elsewhere {stored : Nat}
    (hsame : ∀ table index, cells table index ≠ none → cells table index ≠ some (stored, number) →
      memory table index = loader.memory table index) (helsewhere : address.toNat / page_size stored ≠ number)
    (hcell : cells table index = some (level, address.toNat / page_size level)) (hlevel : level ≠ 0) :
    cell_leaf memory level table index address = cell_leaf loader.memory level table index address := by
  have hentry : ∀ table index level, cells table index = some (level, address.toNat / page_size level) →
      memory table index = loader.memory table index := by
    intro table index level hcell
    apply hsame table index (by simp [hcell])
    rw [hcell]
    intro h
    simp only [Option.some.injEq, Prod.mk.injEq] at h
    rw [h.1] at h
    exact helsewhere h.2
  induction level generalizing table index with
  | zero => exact absurd rfl hlevel
  | succ level ih =>
    unfold cell_leaf
    rw [hentry table index _ hcell]
    cases hchild : child_table (level + 1) (loader.memory table index) with
    | none => rfl
    | some child =>
      have hne : level ≠ 0 := fun h => (child_table_eq_some_iff.mp hchild).2.1 (by rw [h])
      obtain ⟨below, rfl⟩ := Nat.exists_eq_succ_of_ne_zero hne
      have hcells := hwindow.entry _ _ _ _ hcell
      generalize loader.memory table index = found at hcells hchild
      cases hcells with
      | absent habsent => rw [child_table_of_absent habsent] at hchild; exact nomatch hchild
      | page _ hleaf _ => rw [hleaf] at hchild; exact nomatch hchild
      | @table other hother haligned hcells =>
        rw [child_table_table_entry haligned hother, Option.some.injEq] at hchild
        subst hchild
        have hnext := hcells _ (table_index_lt (below + 1) address)
        rw [page_number_split address hne] at hnext
        dsimp only
        rw [Nat.add_sub_cancel, Nat.succ_eq_add_one, find_leaf_eq_cell_leaf, find_leaf_eq_cell_leaf, ih hnext hne]

variable (hpath : Path loader address level table index) (haddress : address.toNat < 2 ^ 39)
include hpath haddress

/-- The entries on the way of an address stand for the pages it lies in. -/
theorem Path.cell : cells table index = some (level, address.toNat / page_size level) := by
  induction hpath with
  | slot => exact hwindow.slot_cell haddress
  | @down level table child index hpath hlevel hlink haligned ih =>
    have hentry := hwindow.entry _ _ _ _ ih
    rw [hlink] at hentry
    rw [hentry.children (by omega) haligned _ (table_index_lt _ _), Nat.add_sub_cancel, page_number_split address hlevel]

/-- A store leaves alone the entries above the one it is made to. -/
theorem Path.store (hroot : after.kernel_page_table_root = loader.kernel_page_table_root)
    (hslot : after.physical_memory_pml4_index = loader.physical_memory_pml4_index) {below : Nat}
    (hsame : ∀ table index level number, cells table index = some (level, number) → below < level →
      after.memory table index = loader.memory table index) (hbelow : below ≤ level) :
    Path after address level table index := by
  induction hpath with
  | slot =>
    rw [← hroot, ← hslot]
    exact .slot
  | @down level table child index hpath hlevel hlink haligned ih =>
    refine (ih (by omega)).down hlevel ?_ haligned
    rw [hsame _ _ _ _ (hpath.cell hwindow haddress) (by omega), hlink]

/-- After a store to an entry, the walks that come to it go on from there, and the others are as
they were. -/
theorem Window.lookup_store (after : Loader) (hroot : after.kernel_page_table_root = loader.kernel_page_table_root)
    (hslot : after.physical_memory_pml4_index = loader.physical_memory_pml4_index)
    (hsame : ∀ found other, cells found other ≠ none → ¬ (found = table ∧ other = index) →
      after.memory found other = loader.memory found other) :
    Path after address level table index ∧ ∀ other : UInt64, other.toNat < 2 ^ 39 → lookup after other =
      if other.toNat / page_size level = address.toNat / page_size level then
        cell_leaf after.memory level table index other
      else
        lookup loader other := by
  have hcell := hpath.cell hwindow haddress
  have hafter : Path after address level table index := by
    apply hpath.store hwindow haddress hroot hslot _ (Nat.le_refl level)
    intro found other above number hfound habove
    apply hsame found other (by simp [hfound])
    rintro ⟨rfl, rfl⟩
    rw [hcell, Option.some.injEq, Prod.mk.injEq] at hfound
    omega
  refine ⟨hafter, ?_⟩
  intro other hother
  split
  · next hnumber => exact (hafter.same_page hnumber).lookup_eq
  · next hnumber =>
    unfold lookup
    rw [hroot, hslot]
    refine cell_leaf_elsewhere hwindow ?_ hnumber (hwindow.slot_cell hother) (by decide)
    intro found position hfound hlabel
    apply hsame found position hfound
    rintro ⟨rfl, rfl⟩
    exact hlabel hcell

end Stores

/-- The direct map under construction shows `view`, at the cost of `taken` pages at most. -/
structure Built (initial : Loader) (view : UInt64 → Option Leaf) (taken : Nat) (loader : Loader) : Prop where
  window : ∃ cells, Window initial cells loader
  lookup_eq : ∀ address : UInt64, address.toNat < 2 ^ 39 → lookup loader address = view address
  pages_le : initial.pages.length ≤ loader.pages.length + taken

theorem Built.weaken {initial loader : Loader} {view : UInt64 → Option Leaf} {taken more : Nat}
    (hbuilt : Built initial view taken loader) (hmore : taken ≤ more) : Built initial view more loader :=
  ⟨hbuilt.window, hbuilt.lookup_eq, Nat.le_trans hbuilt.pages_le (Nat.add_le_add_left hmore _)⟩

/-- Before anything is mapped, the slot is empty. -/
theorem Built.start {loader : Loader}
    (habsent : has (loader.memory loader.kernel_page_table_root loader.physical_memory_pml4_index)
      PAGE_TABLE_ENTRY_PRESENT = false)
    (hroot : loader.kernel_page_table_root ∉ loader.pages) : Built loader (fun _ => none) 0 loader where
  window := by
    refine ⟨fun table index =>
      if table = loader.kernel_page_table_root ∧ index = loader.physical_memory_pml4_index then some (4, 0) else none,
      rfl, List.suffix_refl _, if_pos ⟨rfl, rfl⟩, ?_, ?_, ?_, fun _ _ _ _ => rfl⟩
    · intro table index level number hcell
      rw [Option.ite_none_right_eq_some] at hcell
      rw [hcell.1.1, hcell.1.2]
      exact .absent habsent
    · intro table index hcell
      by_contra hother
      rw [not_or] at hother
      exact hcell (if_neg hother.1)
    · intro page hpage index
      apply if_neg
      rintro ⟨rfl, _⟩
      exact hroot hpage
  lookup_eq address _ := by
    rw [lookup, cell_leaf, child_table_of_absent habsent]
    exact leaf_of_absent habsent
  pages_le := Nat.le_refl _

/-- A walk in a table of zeros finds nothing. -/
theorem find_leaf_zeroed {table : UInt64} (hzero : ∀ index, memory table index = 0) (level : Nat)
    (address : UInt64) : find_leaf memory level table address = none := by
  cases level with
  | zero => rfl
  | succ level =>
    apply find_leaf_of_absent
    rw [hzero]
    decide

section Building

variable {initial loader : Loader} {view : UInt64 → Option Leaf} {taken : Nat} {address : UInt64} {table : UInt64}
  {index : Nat}

/-- A view in which the page of an address is shown through `entry`. -/
def with_page (view : UInt64 → Option Leaf) (level : Nat) (address entry other : UInt64) : Option Leaf :=
  if other.toNat / page_size level = address.toNat / page_size level then leaf_of level entry else view other

/-- The last entry on the way of an address that shows nothing is not in use. -/
theorem Built.unused (hbuilt : Built initial view taken loader) (hpath : Path loader address 1 table index)
    (haddress : address.toNat < 2 ^ 39) (hnone : view address = none) :
    has (loader.memory table index) PAGE_TABLE_ENTRY_PRESENT = false := by
  have hlookup := hbuilt.lookup_eq address haddress
  rw [hnone, hpath.lookup_eq, cell_leaf, child_table_one] at hlookup
  by_contra hpresent
  simp [leaf_of, hpresent] at hlookup

variable (hbuilt : Built initial view taken loader) (hpath : Path loader address level table index)
  (haddress : address.toNat < 2 ^ 39)
include hbuilt hpath haddress

/-- Storing the entry of a page changes what the addresses of that page show, and only that. -/
theorem Built.page (hpresent : has entry PAGE_TABLE_ENTRY_PRESENT = true)
    (hleaf : child_table level entry = none) (hlevel : level ≤ 2) :
    Built initial (with_page view level address entry) taken (loader.wrote table index entry) := by
  obtain ⟨cells, hwindow⟩ := hbuilt.window
  have hcell := hpath.cell hwindow haddress
  obtain ⟨_, hlookup⟩ := hwindow.lookup_store hpath haddress (loader.wrote table index entry) rfl rfl
    fun _ _ _ => loader.memory.write_elsewhere table index entry
  refine ⟨⟨cells, ?_, hwindow.pages, hwindow.slot, ?_, hwindow.owned, hwindow.fresh, ?_⟩, ?_, hbuilt.pages_le⟩
  · rw [Loader.wrote, hwindow.globals]
  · intro found other above number hfound
    by_cases hother : found = table ∧ other = index
    · obtain ⟨rfl, rfl⟩ := hother
      rw [hcell, Option.some.injEq, Prod.mk.injEq] at hfound
      rw [Loader.wrote_memory, TableMemory.write_same, ← hfound.1]
      exact .page hpresent hleaf hlevel
    · rw [Loader.wrote_memory, TableMemory.write_elsewhere _ _ _ _ hother]
      exact hwindow.entry found other above number hfound
  · intro found other hfound hslot
    rw [Loader.wrote_memory, TableMemory.write_elsewhere _ _ _ _ (hwindow.apart hcell hfound hslot)]
    exact hwindow.frame found other hfound hslot
  · intro other hother
    rw [hlookup other hother, hbuilt.lookup_eq other hother, cell_leaf, Loader.wrote_memory, TableMemory.write_same,
      hleaf, with_page]

/-- Linking a new table shows nothing new. -/
theorem Built.link (hfree : FreePages initial.memory initial.kernel_page_table_root initial.pages) (hlevel : level ≠ 1)
    (habsent : has (loader.memory table index) PAGE_TABLE_ENTRY_PRESENT = false) {page : UInt64} {rest : List UInt64}
    (hpages : loader.pages = page :: rest) {after : Loader}
    (hafter : after = Loader.wrote { loader with memory := Function.update loader.memory page fun _ => 0, pages := rest }
      table index (table_entry page)) :
    Built initial view (taken + 1) after ∧ Path after address level table index := by
  obtain ⟨cells, hwindow⟩ := hbuilt.window
  have hcell := hpath.cell hwindow haddress
  have hmem : page ∈ loader.pages := hpages ▸ List.mem_cons_self
  have hfresh := hwindow.fresh page hmem
  have hinitial : page ∈ initial.pages := hwindow.pages.subset hmem
  have haligned := hfree.aligned page hinitial
  have hne : page ≠ table := by
    rintro rfl
    rw [hfresh] at hcell
    exact nomatch hcell
  have hentry : after.memory table index = table_entry page := by rw [hafter, Loader.wrote_memory, TableMemory.write_same]
  have hzero : ∀ other, after.memory page other = 0 := by
    intro other
    rw [hafter, Loader.wrote_memory, TableMemory.write_table _ _ _ _ hne]
    exact congrFun (Function.update_self page _ loader.memory) other
  have hsame : ∀ found other, found ≠ page → ¬ (found = table ∧ other = index) →
      after.memory found other = loader.memory found other := by
    intro found other hpage hother
    rw [hafter, Loader.wrote_memory, TableMemory.write_elsewhere _ _ _ _ hother]
    exact congrFun (Function.update_of_ne hpage _ _) other
  have hglobals : after = { loader with memory := after.memory, pages := after.pages } := by rw [hafter, Loader.wrote]
  obtain ⟨hafterPath, hlookup⟩ := hwindow.lookup_store hpath haddress after (by rw [hglobals]) (by rw [hglobals])
    fun found other hfound => hsame found other (by
      rintro rfl
      exact hfound (hfresh other))
  -- The entries of the new table divide the page that the entry stands for.
  obtain ⟨more, hmore⟩ : ∃ more, more = Function.update cells page fun other =>
      if other < PAGE_TABLE_ENTRY_COUNT then
        some (level - 1, address.toNat / page_size level * PAGE_TABLE_ENTRY_COUNT + other)
      else none := ⟨_, rfl⟩
  have hnew : ∀ other < PAGE_TABLE_ENTRY_COUNT,
      more page other = some (level - 1, address.toNat / page_size level * PAGE_TABLE_ENTRY_COUNT + other) := by
    intro other hother
    rw [hmore, Function.update_self, if_pos hother]
  have hold : ∀ found, found ≠ page → more found = cells found := by
    intro found hfound
    rw [hmore, Function.update_of_ne hfound]
  have hkept : ∀ found other, cells found other ≠ none → more found other = cells found other := by
    intro found other hfound
    rw [hold found]
    rintro rfl
    exact hfound (hfresh other)
  refine ⟨⟨⟨more, ?_, ?_, ?_, ?_, ?_, ?_, ?_⟩, ?_, ?_⟩, hafterPath⟩
  · rw [hglobals, hwindow.globals]
  · rw [hafter]
    exact ((List.suffix_cons page rest).trans (hpages ▸ List.suffix_refl _)).trans hwindow.pages
  · rw [hkept _ _ (by simp [hwindow.slot]), hwindow.slot]
  · intro found other above number hfound
    by_cases hpage : found = page
    · rw [hpage, hzero]
      exact .absent (by decide)
    · rw [hold found hpage] at hfound
      by_cases hother : found = table ∧ other = index
      · obtain ⟨rfl, rfl⟩ := hother
        rw [hcell, Option.some.injEq, Prod.mk.injEq] at hfound
        rw [hentry, ← hfound.1, ← hfound.2]
        exact .table hlevel haligned hnew
      · rw [hsame found other hpage hother]
        exact (hwindow.entry found other above number hfound).extend hkept
  · intro found other hfound
    by_cases hpage : found = page
    · exact .inr (hpage ▸ hinitial)
    · rw [hold found hpage] at hfound
      exact hwindow.owned found other hfound
  · intro found hfound other
    have hrest : found ∈ rest := by rwa [hafter] at hfound
    have hnodup := hfree.nodup.sublist hwindow.pages.sublist
    rw [hpages, List.nodup_cons] at hnodup
    rw [hold found fun h => hnodup.1 (h ▸ hrest)]
    exact hwindow.fresh found (hpages ▸ List.mem_cons_of_mem _ hrest) other
  · intro found other hfound hslot
    rw [hsame found other (fun h => hfound (h ▸ hinitial)) (hwindow.apart hcell hfound hslot)]
    exact hwindow.frame found other hfound hslot
  · intro other hother
    rw [hlookup other hother]
    split
    · next hnumber =>
      rw [← hbuilt.lookup_eq other hother, (hpath.same_page hnumber).lookup_eq, cell_leaf, cell_leaf,
        child_table_of_absent habsent, hentry, child_table_table_entry haligned hlevel]
      dsimp only
      rw [find_leaf_zeroed hzero, leaf_of_absent habsent, Option.map_none]
    · exact hbuilt.lookup_eq other hother
  · have hlength := hbuilt.pages_le
    rw [hpages, List.length_cons] at hlength
    rw [hafter]
    change _ ≤ rest.length + (taken + 1)
    omega

/-- An entry in use on the way of an address that shows nothing links a table. -/
theorem Built.linked (hnone : view address = none) (hlevel : level ≠ 1)
    (hpresent : has (loader.memory table index) PAGE_TABLE_ENTRY_PRESENT = true) :
    ∃ child, loader.memory table index = table_entry child ∧ child &&& PAGE_TABLE_ADDRESS_MASK = child ∧
      Path loader address (level - 1) child (table_index (level - 1) address) := by
  obtain ⟨cells, hwindow⟩ := hbuilt.window
  have hentry := hwindow.entry _ _ _ _ (hpath.cell hwindow haddress)
  have hlookup := hbuilt.lookup_eq address haddress
  rw [hnone, hpath.lookup_eq, cell_leaf] at hlookup
  have hne := hpath.level_ne
  generalize hfound : loader.memory table index = found at hentry hpresent hlookup
  cases hentry with
  | absent habsent =>
    rw [hpresent] at habsent
    cases habsent
  | page _ hleaf hsmall =>
    simp only [hleaf, leaf_of, hpresent, Bool.true_and, bne_iff_ne] at hlookup
    rw [if_pos (by omega)] at hlookup
    cases hlookup
  | @table child _ haligned _ =>
    refine ⟨child, rfl, haligned, ?_⟩
    obtain ⟨below, rfl⟩ := Nat.exists_eq_succ_of_ne_zero hne
    exact hpath.down (by omega) hfound haligned

end Building

end leafos.bootloader
