import Mathlib.Algebra.GroupWithZero.Nat
import Mathlib.Algebra.Group.Fin.Basic
import Mathlib.Data.List.FinRange

/-! Places on a dial: the numbers below `n`, passed in cyclic order. -/

namespace Dial

variable {n : Nat} [NeZero n]

/-- The number of steps forward from one place to another. -/
def gap (source target : Fin n) : Nat := (target - source).val

/-- Every place once, in cyclic order from `start` on. -/
def around (start : Fin n) : List (Fin n) := (List.finRange n).map fun offset => start + offset

theorem gap_add (start offset : Fin n) : gap start (start + offset) = offset.val := by
  rw [gap, add_sub_cancel_left]

theorem mem_around (start place : Fin n) : place ∈ around start :=
  List.mem_map.mpr ⟨place - start, List.mem_finRange _, add_sub_cancel start place⟩

/-- Later places are further from the start. -/
theorem around_pairwise (start : Fin n) : (around start).Pairwise fun near far => gap start near < gap start far := by
  refine List.pairwise_map.mpr ((List.pairwise_lt_finRange n).imp fun hlt => ?_)
  rw [gap_add, gap_add]
  exact hlt

/-- A search finds no place behind one that passes the test. -/
theorem find?_gap_le {start found target : Fin n} {test : Fin n → Bool}
    (hfound : (around start).find? test = some found) (htarget : test target = true) :
    gap start found ≤ gap start target := by
  obtain ⟨_, near, far, hsplit, hfailed⟩ := List.find?_eq_some_iff_append.mp hfound
  have hsorted := around_pairwise start
  have hmem := mem_around start target
  rw [hsplit] at hsorted hmem
  rcases List.mem_append.mp hmem with hnear | hrest
  · have hfails := hfailed target hnear
    simp [htarget] at hfails
  · rcases List.mem_cons.mp hrest with rfl | hfar
    · exact le_rfl
    · exact le_of_lt ((List.pairwise_cons.mp (List.pairwise_append.mp hsorted).2.1).1 target hfar)

/-- One step forward brings the target one step nearer, unless it was reached. -/
theorem gap_succ {source target : Fin n} (hne : source ≠ target) : gap (source + 1) target < gap source target := by
  have hahead : target - source ≠ 0 := sub_ne_zero.mpr hne.symm
  have hpositive : 0 < (target - source).val := Nat.pos_of_ne_zero fun hzero => hahead (Fin.ext hzero)
  have hone : (1 : Fin n).val = 1 := by
    rw [Fin.val_one', Nat.mod_eq_of_lt]
    have hbound := (target - source).isLt
    omega
  rw [gap, gap, sub_add_eq_sub_sub, Fin.sub_val_of_le (Fin.one_le_of_ne_zero hahead), hone]
  exact Nat.sub_lt hpositive Nat.one_pos

/-- A place passed on the way is no further from the target than the start. -/
theorem gap_le_of_between {start place target : Fin n} (hbetween : gap start place ≤ gap start target) :
    gap place target ≤ gap start target := by
  have hsub : target - place = (target - start) - (place - start) := (sub_sub_sub_cancel_right _ _ _).symm
  rw [gap, hsub, Fin.sub_val_of_le (Fin.le_def.mpr hbetween)]
  exact Nat.sub_le _ _

end Dial
