import Mathlib.Algebra.GroupWithZero.Nat
import Mathlib.Data.List.Nodup
import Mathlib.Data.List.Perm.Basic

/-- When all the results a list has for `findSome?` are the same, any of them is the one found. -/
theorem List.findSome?_of_unique {α β : Type} {items : List α} {test : α → Option β} {item : α} {value : β}
    (hmem : item ∈ items) (hitem : test item = some value)
    (hunique : ∀ other ∈ items, ∀ result, test other = some result → result = value) : items.findSome? test = some value := by
  cases hfound : items.findSome? test with
  | none => rw [List.findSome?_eq_none_iff.mp hfound item hmem] at hitem; cases hitem
  | some result =>
    obtain ⟨other, hother, htest⟩ := List.exists_of_findSome?_eq_some hfound
    rw [hunique other hother result htest]

section Keys

variable {κ β : Type} [BEq κ] [LawfulBEq κ] {entries : List (κ × β)} {key : κ} {value : β}

/-- `lookup` finds the one value that a key has. -/
theorem List.lookup_of_unique (hmem : (key, value) ∈ entries)
    (hunique : ∀ other, (key, other) ∈ entries → other = value) : entries.lookup key = some value := by
  induction entries with
  | nil => exact absurd hmem List.not_mem_nil
  | cons entry rest ih =>
    obtain ⟨first, content⟩ := entry
    by_cases hkey : key = first
    · subst first
      rw [List.lookup_cons_self, hunique content List.mem_cons_self]
    · have hrest : (key, value) ∈ rest := by
        obtain hsame | hrest := List.mem_cons.mp hmem
        · exact absurd (Prod.mk.inj hsame).1 hkey
        · exact hrest
      rw [List.lookup_cons, beq_false_of_ne hkey]
      exact ih hrest fun other hother => hunique other (List.mem_cons_of_mem _ hother)

/-- In a list with distinct keys, `lookup` finds exactly the entries. -/
theorem List.lookup_eq_some_iff_mem (hnodup : (entries.map Prod.fst).Nodup) :
    entries.lookup key = some value ↔ (key, value) ∈ entries := by
  induction entries with
  | nil => simp
  | cons entry rest ih =>
    obtain ⟨first, content⟩ := entry
    rw [List.map_cons, List.nodup_cons] at hnodup
    by_cases hkey : key = first
    · subst first
      have habsent : (key, value) ∉ rest := fun hmem =>
        hnodup.1 (List.mem_map.mpr ⟨_, hmem, rfl⟩)
      simp [habsent, eq_comm]
    · have hbeq : (key == first) = false := by simp [hkey]
      simp [List.lookup_cons, hbeq, ih hnodup.2, hkey]

/-- Removing the entry of a key from a list with distinct keys. -/
theorem List.perm_cons_filter_key (hnodup : (entries.map Prod.fst).Nodup)
    (hmem : (key, value) ∈ entries) :
    entries.Perm ((key, value) :: entries.filter fun entry => entry.1 != key) := by
  induction entries with
  | nil => simp at hmem
  | cons entry rest ih =>
    rw [List.map_cons, List.nodup_cons] at hnodup
    obtain rfl | hmem := List.mem_cons.mp hmem
    · have hkeep : (rest.filter fun entry => entry.1 != key) = rest := by
        refine List.filter_eq_self.mpr fun other hother => ?_
        rw [bne_iff_ne]
        rintro rfl
        exact hnodup.1 (List.mem_map.mpr ⟨other, hother, rfl⟩)
      rw [List.filter_cons_of_neg (by simp), hkeep]
    · have hne : entry.1 ≠ key := by
        rintro rfl
        exact hnodup.1 (List.mem_map.mpr ⟨_, hmem, rfl⟩)
      rw [List.filter_cons_of_pos (by simpa using hne)]
      exact ((ih hnodup.2 hmem).cons entry).trans (List.Perm.swap _ _ _)

/-- The entries of the other keys, when the entry of a key is known. -/
theorem List.filter_key_append_cons {before after : List (κ × β)}
    (hnodup : ((before ++ (key, value) :: after).map Prod.fst).Nodup) :
    ((before ++ (key, value) :: after).filter fun entry => entry.1 != key) = before ++ after := by
  have hother : ∀ entry ∈ before ++ after, (entry.1 != key) = true := by
    intro entry hentry
    rw [bne_iff_ne]
    rintro rfl
    rw [List.map_append, List.map_cons, List.nodup_middle, ← List.map_append] at hnodup
    exact (List.nodup_cons.mp hnodup).1 (List.mem_map.mpr ⟨entry, hentry, rfl⟩)
  rw [List.filter_append, List.filter_cons_of_neg (by simp), ← List.filter_append]
  exact List.filter_eq_self.mpr hother

end Keys

/-- One slot of a table of optional entries, and the entries of all other slots. -/
theorem List.perm_filterMap_finRange {n : Nat} {α : Type} (table : Fin n → Option α) (slot : Fin n) :
    ∃ rest, ((List.finRange n).filterMap table).Perm ((table slot).toList ++ rest) ∧
      ∀ changed : Fin n → Option α, (∀ other, other ≠ slot → changed other = table other) →
        ((List.finRange n).filterMap changed).Perm ((changed slot).toList ++ rest) := by
  have hsplit : ∀ changed : Fin n → Option α, ((List.finRange n).filterMap changed).Perm
      ((changed slot).toList ++ ((List.finRange n).erase slot).filterMap changed) := by
    intro changed
    have hperm := (List.perm_cons_erase (List.mem_finRange slot)).filterMap changed
    rw [List.filterMap_cons] at hperm
    cases hfound : changed slot with
    | none | some found => simpa [hfound] using hperm
  refine ⟨((List.finRange n).erase slot).filterMap table, hsplit table, fun changed hsame => ?_⟩
  have hrest : ((List.finRange n).erase slot).filterMap changed =
      ((List.finRange n).erase slot).filterMap table :=
    List.filterMap_congr fun other hother =>
      hsame other ((List.nodup_finRange n).mem_erase_iff.mp hother).1
  rw [← hrest]
  exact hsplit changed

/-- Replacing one value of a function moves the count of a predicate by that value. -/
theorem List.countP_update {κ β : Type} [DecidableEq κ] {keys : List κ} (hnodup : keys.Nodup) {key : κ}
    (hkey : key ∈ keys) (values : κ → β) (value : β) (test : β → Bool) :
    (keys.countP fun other => test (Function.update values key value other)) + (test (values key)).toNat =
      (keys.countP fun other => test (values other)) + (test value).toNat := by
  induction keys with
  | nil => simp at hkey
  | cons first rest ih =>
    rw [List.nodup_cons] at hnodup
    obtain rfl | hkey := List.mem_cons.mp hkey
    · have hrest : (rest.countP fun other => test (Function.update values key value other)) =
          rest.countP fun other => test (values other) := by
        refine List.countP_congr fun other hother => ?_
        have hne : other ≠ key := by
          rintro rfl
          exact hnodup.1 hother
        rw [Function.update_of_ne hne]
      simp only [List.countP_cons, Function.update_self, hrest]
      cases test value <;> cases test (values key) <;> simp
    · have hne : first ≠ key := by
        rintro rfl
        exact hnodup.1 hkey
      have hrest := ih hnodup.2 hkey
      simp only [List.countP_cons, Function.update_of_ne hne]
      omega
