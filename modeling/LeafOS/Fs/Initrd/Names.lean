import LeafOS.Fs.Initrd
import LeafOS.Support.Paths

namespace leafos.fs

variable {path directory child : List UInt8}

theorem safe_path_false : safe_path path false = (path.splitOn SLASH).all safe_component := by
  cases path with
  | nil => rfl
  | cons first rest => rfl

theorem safe_path_true : safe_path path true = (path.isEmpty || safe_path path false) := by
  cases path with
  | nil => rfl
  | cons first rest => rfl

theorem safe_path_append : safe_path (directory ++ SLASH :: child) false =
    (safe_path directory false && safe_path child false) := by
  simp only [safe_path_false, List.splitOn_append_cons_self, List.all_append]

theorem safe_path_nil : safe_path [] false = false := rfl

theorem safe_path_ne_nil (hsafe : safe_path path false = true) : path ≠ [] := by
  rintro rfl
  cases hsafe

/-- A safe path does not end with a slash. -/
theorem safe_path_trailing : safe_path (path ++ [SLASH]) false = false := by
  rw [safe_path_append, safe_path_nil, Bool.and_false]

/-- The bytes a component may have. -/
theorem safe_component_bytes (hsafe : safe_component child = true) :
    child ≠ [] ∧ ∀ byte ∈ child, byte ≠ SLASH ∧ byte ≠ 0 ∧ byte < 128 := by
  simp only [safe_component, Bool.and_eq_true, List.all_eq_true] at hsafe
  refine ⟨by simpa using hsafe.1.1.1.1, fun byte hbyte => ?_⟩
  have hallowed := hsafe.2 byte hbyte
  simp only [is_ascii_alphanumeric, Bool.or_eq_true, Bool.and_eq_true, decide_eq_true_eq, beq_iff_eq,
    UInt8.le_iff_toNat_le, ← UInt8.toNat_inj] at hallowed
  simp only [SLASH, ne_eq, ← UInt8.toNat_inj, UInt8.lt_iff_toNat_lt]
  simp at hallowed ⊢
  omega

theorem safe_path_component (hsafe : safe_component child = true) : safe_path child false = true := by
  have hslash : SLASH ∉ child := fun hmem => ((safe_component_bytes hsafe).2 _ hmem).1 rfl
  rw [safe_path_false, List.splitOn_eq_singleton hslash]
  simpa using hsafe

/-- The path of a safe child of a safe directory. -/
theorem safe_path_join (hdirectory : safe_path directory true = true) (hchild : safe_component child = true) :
    safe_path (Path.join SLASH directory child) false = true := by
  by_cases hroot : directory = []
  · rw [hroot, Path.join_nil]
    exact safe_path_component hchild
  · rw [Path.join_of_ne_nil hroot, safe_path_append, safe_path_component hchild, Bool.and_true]
    simpa [safe_path_true, hroot] using hdirectory

theorem safe_path_ascii (hsafe : safe_path path false = true) : ∀ byte ∈ path, byte ≠ 0 ∧ byte < 128 := by
  rw [safe_path_false, List.all_eq_true] at hsafe
  intro byte hbyte
  obtain rfl | ⟨component, hcomponent, hmem⟩ := Path.mem_splitOn SLASH hbyte
  · decide
  · exact ((safe_component_bytes (hsafe component hcomponent)).2 byte hmem).2

end leafos.fs
