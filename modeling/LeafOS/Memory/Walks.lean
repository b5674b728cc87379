import LeafOS.Memory.Paging
import LeafOS.Memory.Spaces

namespace leafos.memory

open MemoryManager

section Walks

variable {memory : TableMemory} {page : Page}

theorem walk_succ (level : Nat) (table : PhysFrame) :
    walk memory (level + 1) table page =
      match memory table (page / 512 ^ level % 512) with
      | none => none
      | some entry =>
        if !entry.flags.present || (entry.huge_page && level == 3) then
          none
        else if level = 0 ∨ entry.huge_page then
          some ⟨entry.frame + page % 512 ^ level * PAGE_SIZE, entry.flags, entry.flags.user_accessible⟩
        else
          (walk memory level entry.frame page).map fun found =>
            { found with user_accessible := entry.flags.user_accessible && found.user_accessible } := rfl

/-- Through a root whose entry is a copy without the user bit, the walk ends where it
does through the original, and user code may not pass. -/
theorem walk_of_copy {root original : PhysFrame} (hcopy : memory root (page / 512 ^ 3 % 512) =
      (memory original (page / 512 ^ 3 % 512)).map PageTableEntry.without_user) :
    walk memory 4 root page =
      (walk memory 4 original page).map fun found => { found with user_accessible := false } := by
  rw [walk_succ 3, walk_succ 3, hcopy]
  cases memory original (page / 512 ^ 3 % 512) with
  | none => rfl
  | some entry =>
    simp only [Option.map_some, PageTableEntry.without_user, Nat.reduceEqDiff, false_or, beq_self_eq_true,
      Bool.and_true]
    -- the huge bit is refused in the root, so the walk goes on below in the same table
    cases entry.flags.present <;> cases entry.huge_page <;>
      simp [Option.map_map, Function.comp_def]

/-- Memory holds the tables of a root, with the given user bit in the entries that
lead to tables. -/
structure Stores (memory : TableMemory) (tables : UserTables) (user_accessible : Bool) : Prop where
  leaves : ∀ position frame, (⟨1, position⟩, frame) ∈ tables.tables → ∀ index, memory frame index =
    (tables.leaf (position * 512 + index)).map fun entry => ⟨entry.1, entry.2, false⟩
  tables : ∀ level position frame, (⟨level + 2, position⟩, frame) ∈ tables.tables → ∀ index, memory frame index =
    (tables.table ⟨level + 1, position * 512 + index⟩).map fun next =>
      ⟨next, { present := true, writable := true, user_accessible, no_execute := false }, false⟩

/-- The walk below a table ends at the page's leaf. -/
theorem Stores.walk {tables : UserTables} {user_accessible : Bool} (hstores : Stores memory tables user_accessible)
    (hsettled : Settled tables) (hpresent : ∀ leaf ∈ tables.leaves, leaf.2.2.present = true) (level : Nat)
    (hlevel : level < 3) {frame : PhysFrame} (htable : (table_of (level + 1) page, frame) ∈ tables.tables) :
    walk memory (level + 1) frame page = (tables.leaf page).map fun entry =>
      ⟨entry.1, entry.2, (level == 0 || user_accessible) && entry.2.user_accessible⟩ := by
  induction level generalizing frame with
  | zero =>
    rw [walk_succ, hstores.leaves _ _ htable, Nat.pow_zero, Nat.div_one, Nat.pow_one, Nat.div_add_mod' page 512]
    cases hleaf : tables.leaf page with
    | none => rfl
    | some entry =>
      have hmem := (UserTables.leaf_eq_some hsettled.keyed).mp hleaf
      have hbit : entry.2.present = true := hpresent _ hmem
      simp [hbit, Nat.mod_one]
  | succ level ih =>
    have hposition : page / 512 ^ (level + 1 + 1) * 512 + page / 512 ^ (level + 1) % 512 = page / 512 ^ (level + 1) := by
      rw [Nat.pow_succ 512 (level + 1), ← Nat.div_div_eq_div_mul, Nat.div_add_mod']
    rw [walk_succ, hstores.tables _ _ _ htable, hposition]
    cases hnext : tables.table ⟨level + 1, page / 512 ^ (level + 1)⟩ with
    | none =>
      -- a mapped page would need the table that is missing
      cases hleaf : tables.leaf page with
      | none => rfl
      | some entry =>
        have hmem := (UserTables.leaf_eq_some hsettled.keyed).mp hleaf
        have hneeds : tables.Needs ⟨level + 1, page / 512 ^ (level + 1)⟩ := ⟨_, hmem, rfl⟩
        have hlevels : level + 1 ∈ [1, 2, 3] := by
          simp only [List.mem_cons, List.not_mem_nil, or_false]
          omega
        exact absurd ((hsettled.tight _ hlevels _).mpr hneeds) (UserTables.table_eq_none.mp hnext)
    | some next =>
      have hmem := (UserTables.table_eq_some hsettled.keyed).mp hnext
      simp only [Option.map_some, Bool.not_true, Bool.false_and, Bool.or_false, Bool.false_eq_true, if_false,
        Nat.add_eq_zero_iff, Nat.one_ne_zero, and_false, or_false]
      rw [ih (by omega) hmem]
      cases tables.leaf page with
      | none => rfl
      | some entry => cases user_accessible <;> simp

end Walks

end leafos.memory
