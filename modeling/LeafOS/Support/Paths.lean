import Mathlib.Algebra.GroupWithZero.Nat
import Mathlib.Data.List.TakeWhile

/-! Paths as lists of symbols, whose components a separator keeps apart. -/

namespace Path

variable {α : Type} {sep : α} {parent path child directory : List α} {symbol : α}

/-- The path lies below the parent: it goes on after it with a separator. -/
def Below (sep : α) (parent path : List α) : Prop := ∃ rest, path = parent ++ sep :: rest

/-- The path of a child; the empty path stands for the root. -/
def join (sep : α) (directory child : List α) : List α :=
  if directory.isEmpty then child else directory ++ sep :: child

theorem join_nil (sep : α) (child : List α) : join sep [] child = child := if_pos rfl

theorem join_of_ne_nil (hdirectory : directory ≠ []) (child : List α) :
    join sep directory child = directory ++ sep :: child := if_neg (by simpa using hdirectory)

theorem join_ne_nil (hchild : child ≠ []) : join sep directory child ≠ [] := by
  by_cases hdirectory : directory = []
  · rwa [hdirectory, join_nil]
  · simp [join_of_ne_nil hdirectory]

theorem Below.ne (hbelow : Below sep parent path) : parent ≠ path := by
  obtain ⟨rest, rfl⟩ := hbelow
  simp

theorem Below.length_lt (hbelow : Below sep parent path) : parent.length < path.length := by
  obtain ⟨rest, rfl⟩ := hbelow
  simp

theorem mem_join (hmem : symbol ∈ directory ∨ symbol ∈ child) : symbol ∈ join sep directory child := by
  by_cases hdirectory : directory = []
  · subst hdirectory
    exact hmem.resolve_left List.not_mem_nil
  · rw [join_of_ne_nil hdirectory]
    exact List.mem_append.mpr (hmem.imp_right (List.mem_cons_of_mem _))

theorem join_append (directory child rest : List α) :
    join sep directory (child ++ rest) = join sep directory child ++ rest := by
  by_cases hdirectory : directory = []
  · simp only [hdirectory, join_nil]
  · simp [join_of_ne_nil hdirectory]

/-- What is below the child of a directory is what, seen from there, is below the child. -/
theorem below_join_iff :
    Below sep (join sep directory child) path ↔ ∃ relative, path = join sep directory relative ∧ Below sep child relative := by
  by_cases hdirectory : directory = []
  · simp [hdirectory, join_nil]
  · simp only [join_of_ne_nil hdirectory, Below]
    constructor
    · rintro ⟨rest, rfl⟩
      exact ⟨child ++ sep :: rest, by simp, rest, rfl⟩
    · rintro ⟨_, rfl, rest, rfl⟩
      exact ⟨rest, by simp⟩

/-- What is below a child is below its directory. -/
theorem Below.of_join (hdirectory : directory ≠ [])
    (hbelow : path = join sep directory child ∨ Below sep (join sep directory child) path) :
    Below sep directory path := by
  rw [join_of_ne_nil hdirectory] at hbelow
  obtain rfl | ⟨rest, rfl⟩ := hbelow
  · exact ⟨child, rfl⟩
  · exact ⟨child ++ sep :: rest, by simp⟩

section Tests

variable [DecidableEq α]

/-- `strip_prefix` and a look at the first symbol of the rest decide whether a path is below another. -/
theorem isPrefixOf_and_head?_iff :
    (parent.isPrefixOf path && (path.drop parent.length).head? == some sep) = true ↔ Below sep parent path := by
  rw [Bool.and_eq_true, List.isPrefixOf_iff_prefix, beq_iff_eq]
  constructor
  · rintro ⟨⟨rest, rfl⟩, hhead⟩
    rw [List.drop_left] at hhead
    obtain ⟨tail, rfl⟩ := List.head?_eq_some_iff.mp hhead
    exact ⟨tail, rfl⟩
  · rintro ⟨rest, rfl⟩
    exact ⟨List.prefix_append _ _, by simp⟩

/-- So do `starts_with` and a look at the symbol after the parent. -/
theorem prefix_and_getD_iff {default : α} :
    (parent.length < path.length ∧ parent.isPrefixOf path = true ∧ path.getD parent.length default = sep) ↔
      Below sep parent path := by
  have hfront : parent.isPrefixOf path = true ↔ parent <+: path := List.isPrefixOf_iff_prefix
  rw [hfront]
  constructor
  · rintro ⟨hlength, ⟨rest, rfl⟩, hsep⟩
    cases rest with
    | nil => simp at hlength
    | cons first rest =>
      have hfirst : first = sep := by simpa [List.getD_eq_getElem?_getD] using hsep
      exact ⟨rest, by rw [hfirst]⟩
  · rintro ⟨rest, rfl⟩
    exact ⟨by simp, List.prefix_append _ _, by simp [List.getD_eq_getElem?_getD]⟩

/-- The first component of a path. -/
theorem takeWhile_ne_eq_iff :
    path.takeWhile (· != sep) = child ↔ sep ∉ child ∧ (path = child ∨ Below sep child path) := by
  constructor
  · rintro rfl
    refine ⟨fun hmem => ?_, ?_⟩
    · simpa using List.mem_takeWhile_imp hmem
    · have hsplit := List.takeWhile_append_dropWhile (p := (· != sep)) (l := path)
      cases hrest : path.dropWhile (· != sep) with
      | nil => rw [hrest, List.append_nil] at hsplit; exact .inl hsplit.symm
      | cons first rest =>
        have hfirst : first = sep := by
          have hdrop := List.head_dropWhile_not (p := (· != sep)) (l := path) (by simp [hrest])
          simpa [hrest] using hdrop
        rw [hrest, hfirst] at hsplit
        exact .inr ⟨rest, hsplit.symm⟩
  · rintro ⟨hchild, hpath⟩
    have hall : ∀ symbol ∈ child, (symbol != sep) = true := fun symbol hmem =>
      bne_iff_ne.mpr fun hsame => hchild (hsame ▸ hmem)
    obtain rfl | ⟨rest, rfl⟩ := hpath
    · exact List.takeWhile_eq_self_iff.mpr hall
    · rw [List.takeWhile_append_of_pos hall, List.takeWhile_cons_of_neg (by simp), List.append_nil]

/-- Every symbol but a separator belongs to a component. -/
theorem mem_splitOn (sep : α) (hmem : symbol ∈ path) :
    symbol = sep ∨ ∃ component ∈ path.splitOn sep, symbol ∈ component := by
  induction path with
  | nil => exact absurd hmem List.not_mem_nil
  | cons first rest ih =>
    rw [List.splitOn_cons_eq_if_modifyHead]
    by_cases hfirst : first = sep
    · rw [if_pos (beq_iff_eq.mpr hfirst)]
      obtain rfl | hrest := List.mem_cons.mp hmem
      · exact .inl hfirst
      · exact (ih hrest).imp_right fun ⟨component, hcomponent, hsymbol⟩ =>
          ⟨component, List.mem_cons_of_mem _ hcomponent, hsymbol⟩
    · rw [if_neg (by simpa using hfirst)]
      obtain ⟨head, tail, hsplit⟩ := List.exists_cons_of_ne_nil (List.splitOn_ne_nil sep rest)
      rw [hsplit] at ih ⊢
      obtain rfl | hrest := List.mem_cons.mp hmem
      · exact .inr ⟨_, List.mem_cons_self, List.mem_cons_self⟩
      · refine (ih hrest).imp_right fun ⟨component, hcomponent, hsymbol⟩ => ?_
        obtain rfl | hcomponent := List.mem_cons.mp hcomponent
        · exact ⟨_, List.mem_cons_self, List.mem_cons_of_mem _ hsymbol⟩
        · exact ⟨component, List.mem_cons_of_mem _ hcomponent, hsymbol⟩

end Tests

end Path
