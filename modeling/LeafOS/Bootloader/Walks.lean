import LeafOS.Bootloader

namespace leafos.bootloader

open Prog (Delivers Ends)

variable {level : Nat} {entry : UInt64} {E : EfiStatus → Loader → Prop} {loader : Loader} {table : UInt64} {index : Nat}

/-- The size of the page that an entry maps at a level. -/
def page_size (level : Nat) : Nat := 2 ^ (12 + 9 * (level - 1))

/-- The entry the processor reads in a table of a level. -/
def table_index (level : Nat) (address : UInt64) : Nat := address.toNat / page_size level % PAGE_TABLE_ENTRY_COUNT

/-- The bits of an entry that give the frame of a page: the low ones drop out of a huge page. -/
def frame_mask : Nat → UInt64
  | 1 => 0x000FFFFFFFFFF000
  | 2 => 0x000FFFFFFFE00000
  | _ => 0x000FFFFFC0000000

/-- The table a present entry leads to, unless the entry maps a page. -/
def child_table (level : Nat) (entry : UInt64) : Option UInt64 :=
  if has entry PAGE_TABLE_ENTRY_PRESENT && level != 1 && !has entry PAGE_TABLE_ENTRY_HUGE then
    some (entry &&& PAGE_TABLE_ADDRESS_MASK)
  else
    none

/-- Where a walk ends: the entry that maps the page and its level, and what the entries on the
way, that one included, permit. -/
structure Leaf where
  level : Nat
  entry : UInt64
  writable : Bool
  no_execute : Bool
deriving Repr, DecidableEq

/-- A leaf below `entry`: writing needs the permission of every level, and any level forbids
execution. -/
def Leaf.through (entry : UInt64) (leaf : Leaf) : Leaf :=
  { leaf with
    writable := leaf.writable && has entry PAGE_TABLE_ENTRY_WRITABLE
    no_execute := leaf.no_execute || has entry PAGE_TABLE_ENTRY_NO_EXECUTE }

/-- The page that an entry without a child maps. The size bit is reserved at level 4. -/
def leaf_of (level : Nat) (entry : UInt64) : Option Leaf :=
  if has entry PAGE_TABLE_ENTRY_PRESENT && level != 4 then
    some ⟨level, entry, has entry PAGE_TABLE_ENTRY_WRITABLE, has entry PAGE_TABLE_ENTRY_NO_EXECUTE⟩
  else
    none

/-- The processor's walk from a table of some level. -/
def find_leaf (memory : TableMemory) : Nat → UInt64 → UInt64 → Option Leaf
  | 0, _, _ => none
  | level + 1, table, address =>
    let entry := memory table (table_index (level + 1) address)
    match child_table (level + 1) entry with
    | some child => (find_leaf memory level child address).map (Leaf.through entry)
    | none => leaf_of (level + 1) entry

/-- The tables a walk enters below the one it starts from. -/
def entered (memory : TableMemory) : Nat → UInt64 → UInt64 → List UInt64
  | 0, _, _ => []
  | level + 1, table, address =>
    match child_table (level + 1) (memory table (table_index (level + 1) address)) with
    | some child => child :: entered memory level child address
    | none => []

structure Translation where
  physical : Nat
  flags : UInt64
  writable : Bool
  no_execute : Bool
deriving Repr, DecidableEq

def Leaf.translation (leaf : Leaf) (address : UInt64) : Translation :=
  { physical := (leaf.entry &&& frame_mask leaf.level).toNat + address.toNat % page_size leaf.level
    flags := leaf.entry &&& ~~~frame_mask leaf.level
    writable := leaf.writable
    no_execute := leaf.no_execute }

/-- What an address translates to through a root table, if it is mapped. -/
def translate (memory : TableMemory) (root address : UInt64) : Option Translation :=
  (find_leaf memory 4 root address).map (·.translation address)

/-- The tables of the structure below a root, with the levels they are used at. -/
inductive Reachable (memory : TableMemory) (root : UInt64) : Nat → UInt64 → Prop where
  | root : Reachable memory root 4 root
  | child {level : Nat} {table child : UInt64} {index : Nat} (htable : Reachable memory root (level + 1) table)
      (hindex : index < PAGE_TABLE_ENTRY_COUNT) (hchild : child_table (level + 1) (memory table index) = some child) :
      Reachable memory root level child

/-- What the loader may assume of the pages `AllocatePages` gives out: they are different pages,
their addresses fit an entry, and none is a table in use. -/
structure FreePages (memory : TableMemory) (root : UInt64) (pages : List UInt64) : Prop where
  nodup : pages.Nodup
  aligned : ∀ page ∈ pages, page &&& PAGE_TABLE_ADDRESS_MASK = page
  unused : ∀ level table, Reachable memory root level table → table ∉ pages

theorem table_index_lt (level : Nat) (address : UInt64) : table_index level address < PAGE_TABLE_ENTRY_COUNT :=
  Nat.mod_lt _ (by decide)

section Entries

variable {flag : UInt64} (entry address : UInt64)

theorem has_relink (hflag : flag &&& PAGE_TABLE_ADDRESS_MASK = 0) : has (relink entry address) flag = has entry flag := by
  simp only [has, relink, UInt64.merge_flags hflag]

@[simp] theorem relink_present : has (relink entry address) PAGE_TABLE_ENTRY_PRESENT = has entry PAGE_TABLE_ENTRY_PRESENT :=
  has_relink entry address (by decide)

@[simp] theorem relink_writable :
    has (relink entry address) PAGE_TABLE_ENTRY_WRITABLE = has entry PAGE_TABLE_ENTRY_WRITABLE :=
  has_relink entry address (by decide)

@[simp] theorem relink_huge : has (relink entry address) PAGE_TABLE_ENTRY_HUGE = has entry PAGE_TABLE_ENTRY_HUGE :=
  has_relink entry address (by decide)

@[simp] theorem relink_no_execute :
    has (relink entry address) PAGE_TABLE_ENTRY_NO_EXECUTE = has entry PAGE_TABLE_ENTRY_NO_EXECUTE :=
  has_relink entry address (by decide)

@[simp] theorem relink_address :
    relink entry address &&& PAGE_TABLE_ADDRESS_MASK = address &&& PAGE_TABLE_ADDRESS_MASK :=
  UInt64.merge_field _ _ _

end Entries

theorem child_table_eq_some_iff {child : UInt64} :
    child_table level entry = some child ↔ has entry PAGE_TABLE_ENTRY_PRESENT = true ∧ level ≠ 1 ∧
      has entry PAGE_TABLE_ENTRY_HUGE = false ∧ entry &&& PAGE_TABLE_ADDRESS_MASK = child := by
  simp only [child_table, Option.ite_none_right_eq_some, Bool.and_eq_true, bne_iff_ne, Bool.not_eq_true',
    Option.some.injEq, and_assoc]

theorem child_table_of_absent (habsent : has entry PAGE_TABLE_ENTRY_PRESENT = false) :
    child_table level entry = none := by
  simp [child_table, habsent]

theorem child_table_of_huge (hhuge : has entry PAGE_TABLE_ENTRY_HUGE = true) : child_table level entry = none := by
  simp [child_table, hhuge]

theorem child_table_one (entry : UInt64) : child_table 1 entry = none := by
  simp [child_table]

theorem leaf_of_absent (habsent : has entry PAGE_TABLE_ENTRY_PRESENT = false) : leaf_of level entry = none := by
  simp [leaf_of, habsent]

section Steps

variable {memory : TableMemory} {address child : UInt64}

theorem find_leaf_child
    (hchild : child_table (level + 1) (memory table (table_index (level + 1) address)) = some child) :
    find_leaf memory (level + 1) table address =
      (find_leaf memory level child address).map (Leaf.through (memory table (table_index (level + 1) address))) := by
  simp only [find_leaf, hchild]

theorem find_leaf_end (hchild : child_table (level + 1) (memory table (table_index (level + 1) address)) = none) :
    find_leaf memory (level + 1) table address = leaf_of (level + 1) (memory table (table_index (level + 1) address)) := by
  simp only [find_leaf, hchild]

theorem find_leaf_of_absent
    (habsent : has (memory table (table_index (level + 1) address)) PAGE_TABLE_ENTRY_PRESENT = false) :
    find_leaf memory (level + 1) table address = none := by
  rw [find_leaf_end (child_table_of_absent habsent), leaf_of_absent habsent]

theorem entered_child (hchild : child_table (level + 1) (memory table (table_index (level + 1) address)) = some child) :
    entered memory (level + 1) table address = child :: entered memory level child address := by
  simp only [entered, hchild]

theorem entered_end (hchild : child_table (level + 1) (memory table (table_index (level + 1) address)) = none) :
    entered memory (level + 1) table address = [] := by
  simp only [entered, hchild]

/-- A walk depends on one entry of the table it starts from and on the tables it enters. -/
theorem find_leaf_frame {after : TableMemory}
    (hentry : after table (table_index level address) = memory table (table_index level address))
    (hentered : ∀ found ∈ entered memory level table address, after found = memory found) :
    find_leaf after level table address = find_leaf memory level table address := by
  induction level generalizing table with
  | zero => rfl
  | succ level ih =>
    cases hchild : child_table (level + 1) (memory table (table_index (level + 1) address)) with
    | none => rw [find_leaf_end hchild, find_leaf_end (hentry ▸ hchild), hentry]
    | some child =>
      rw [entered_child hchild, List.forall_mem_cons] at hentered
      rw [find_leaf_child hchild, find_leaf_child (hentry ▸ hchild), hentry,
        ih (congrFun hentered.1 _) hentered.2]

/-- A walk enters tables of the structure only. -/
theorem reachable_of_entered {root found : UInt64} (htable : Reachable memory root level table)
    (hfound : found ∈ entered memory level table address) : ∃ depth, Reachable memory root depth found := by
  induction level generalizing table with
  | zero => exact absurd hfound List.not_mem_nil
  | succ level ih =>
    cases hchild : child_table (level + 1) (memory table (table_index (level + 1) address)) with
    | none =>
      rw [entered_end hchild] at hfound
      exact absurd hfound List.not_mem_nil
    | some child =>
      have hreachable := htable.child (table_index_lt _ _) hchild
      rw [entered_child hchild, List.mem_cons] at hfound
      rcases hfound with rfl | hfound
      · exact ⟨level, hreachable⟩
      · exact ih hreachable hfound

end Steps

namespace TableMemory

variable (memory : TableMemory) (table : UInt64) (index : Nat) (entry : UInt64)

@[simp] theorem write_same : memory.write table index entry table index = entry := by
  simp [write]

theorem write_table (hother : other ≠ table) : memory.write table index entry other = memory other := by
  simp [write, hother]

theorem write_elsewhere {found : UInt64} (hother : ¬ (found = table ∧ other = index)) :
    memory.write table index entry found other = memory found other := by
  by_cases hfound : found = table
  · subst hfound
    have hindex : other ≠ index := fun hsame => hother ⟨rfl, hsame⟩
    simp [write, hindex]
  · rw [write_table memory table index entry hfound]

theorem write_index (hother : other ≠ index) (found : UInt64) :
    memory.write table index entry found other = memory found other :=
  write_elsewhere memory table index entry fun hsame => hother hsame.2

end TableMemory

/-- The loader after it has stored an entry. -/
def Loader.wrote (loader : Loader) (table : UInt64) (index : Nat) (entry : UInt64) : Loader :=
  { loader with memory := loader.memory.write table index entry }

theorem Loader.wrote_memory (loader : Loader) (table : UInt64) (index : Nat) (entry : UInt64) :
    (loader.wrote table index entry).memory = loader.memory.write table index entry := rfl

/-- An allocation failed for want of a page: there were fewer at the outset than were needed. -/
def OutOfPages (before : Loader) (needed : Nat) (error : EfiStatus) (after : Loader) : Prop :=
  error = .out_of_resources ∧ after.pages = [] ∧ before.pages.length < needed

theorem write_entry_delivers :
    Delivers (· = loader) (write_entry table index entry) (fun _ after => after = loader.wrote table index entry) E := by
  apply Ends.modify.pre
  rintro _ rfl
  rfl

theorem read_entry_bind {P : Loader → Prop} {α : Type} {S : α → Loader → Prop} {next : UInt64 → LoaderM α}
    (hnext : ∀ loader, P loader → Delivers (· = loader) (next (loader.memory table index)) S E) :
    Delivers P (read_entry table index >>= next) S E :=
  ⟨fun loader hloader => (hnext loader hloader).ends loader rfl⟩

/-- The allocator gives its first page, and fails only when it has none. -/
theorem allocate_pages_delivers :
    Delivers (· = loader) allocate_pages
      (fun page after => loader.pages = page :: after.pages ∧ after = { loader with pages := after.pages })
      (fun error after => error = .out_of_resources ∧ after.pages = [] ∧ loader.pages = []) := by
  apply Ends.get_bind
  rintro _ rfl
  split
  · next hpages => exact Ends.throw.pre fun _ hstate => ⟨rfl, hstate ▸ hpages, hpages⟩
  · next page rest hpages =>
    constructor
    rintro _ rfl
    exact ⟨hpages, rfl⟩

end leafos.bootloader
