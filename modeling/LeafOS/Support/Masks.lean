import Mathlib.Algebra.GroupWithZero.Nat
import Mathlib.Data.BitVec
import Mathlib.Tactic.Common

/-! Words of flags around an address field. -/

namespace UInt64

variable {a b mask flags : UInt64}

/-- Two words agree when they agree in every bit. -/
theorem eq_of_bits (h : ∀ i, a.toBitVec.getLsbD i = b.toBitVec.getLsbD i) : a = b := by
  apply UInt64.toBitVec_inj.mp
  exact BitVec.eq_of_getLsbD_eq fun i _ => h i

theorem bits_disjoint (h : a &&& b = 0) (i : Nat) : (a.toBitVec.getLsbD i && b.toBitVec.getLsbD i) = false := by
  have hbit := congrArg (fun word : UInt64 => word.toBitVec.getLsbD i) h
  simpa only [UInt64.toBitVec_and, BitVec.getLsbD_and, UInt64.toBitVec_zero, BitVec.getLsbD_zero] using hbit

/-- A word is known by what a mask keeps of it and what it takes away. -/
theorem eq_of_and (hkept : a &&& mask = b &&& mask) (hrest : a &&& ~~~mask = b &&& ~~~mask) : a = b := by
  have hwhole : ∀ word : UInt64, (word &&& mask) ||| (word &&& ~~~mask) = word := by
    intro word
    apply UInt64.toBitVec_inj.mp
    ext i hi
    simp only [UInt64.toBitVec_and, UInt64.toBitVec_or, UInt64.toBitVec_not, BitVec.getElem_and, BitVec.getElem_or,
      BitVec.getElem_not]
    cases word.toBitVec[i] <;> cases mask.toBitVec[i] <;> rfl
  rw [← hwhole a, hkept, hrest, hwhole b]

/-- `entry` with the bits of `mask` taken from `field`. -/
def merge (mask entry field : UInt64) : UInt64 := (entry &&& ~~~mask) ||| (field &&& mask)

theorem merge_field (mask entry field : UInt64) : merge mask entry field &&& mask = field &&& mask := by
  apply UInt64.toBitVec_inj.mp
  ext i hi
  simp only [merge, UInt64.toBitVec_and, UInt64.toBitVec_or, UInt64.toBitVec_not, BitVec.getElem_and,
    BitVec.getElem_or, BitVec.getElem_not]
  cases entry.toBitVec[i] <;> cases field.toBitVec[i] <;> cases mask.toBitVec[i] <;> rfl

/-- Flags outside the field are the entry's. -/
theorem merge_flags (hflags : flags &&& mask = 0) (entry field : UInt64) :
    merge mask entry field &&& flags = entry &&& flags := by
  apply eq_of_bits
  intro i
  have hbit := bits_disjoint hflags i
  by_cases hi : i < 64
  · simp only [merge, UInt64.toBitVec_and, UInt64.toBitVec_or, UInt64.toBitVec_not, BitVec.getLsbD_and,
      BitVec.getLsbD_or, BitVec.getLsbD_not, hi, decide_true, Bool.true_and]
    revert hbit
    cases entry.toBitVec.getLsbD i <;> cases field.toBitVec.getLsbD i <;> cases mask.toBitVec.getLsbD i <;>
      cases flags.toBitVec.getLsbD i <;> simp
  · simp only [BitVec.getLsbD_of_ge _ i (Nat.le_of_not_lt hi)]

/-- The part of a word that lies in a field with no flag in it. -/
theorem field_of_flagged (hflags : flags &&& mask = 0) (word : UInt64) : (word ||| flags) &&& mask = word &&& mask := by
  apply eq_of_bits
  intro i
  have hbit := bits_disjoint hflags i
  simp only [UInt64.toBitVec_and, UInt64.toBitVec_or, BitVec.getLsbD_and, BitVec.getLsbD_or]
  revert hbit
  cases word.toBitVec.getLsbD i <;> cases mask.toBitVec.getLsbD i <;> cases flags.toBitVec.getLsbD i <;> simp

/-- Flags beside a field are read off the flags that were put there. -/
theorem flags_of_flagged {flag : UInt64} (hflag : flag &&& mask = 0) (word flags : UInt64) :
    ((word &&& mask) ||| flags) &&& flag = flags &&& flag := by
  apply eq_of_bits
  intro i
  have hbit := bits_disjoint hflag i
  simp only [UInt64.toBitVec_and, UInt64.toBitVec_or, BitVec.getLsbD_and, BitVec.getLsbD_or]
  revert hbit
  cases word.toBitVec.getLsbD i <;> cases mask.toBitVec.getLsbD i <;> cases flag.toBitVec.getLsbD i <;> simp

/-- A word whose bits all lie in the field that `mask` describes is left alone by it. -/
theorem and_field {word : UInt64} (low width : Nat) (hmask : mask.toNat = (2 ^ width - 1) <<< low)
    (haligned : word.toNat % 2 ^ low = 0) (hlt : word.toNat < 2 ^ (low + width)) : word &&& mask = word := by
  apply UInt64.toNat_inj.mp
  obtain ⟨field, hfield⟩ := Nat.dvd_of_mod_eq_zero haligned
  have hshift : word.toNat = field <<< low := by rw [hfield, Nat.shiftLeft_eq, Nat.mul_comm]
  have hwidth : field < 2 ^ width := by
    rw [hfield, Nat.pow_add] at hlt
    exact Nat.lt_of_mul_lt_mul_left hlt
  rw [UInt64.toNat_and, hmask, hshift, ← Nat.shiftLeft_and_distrib, Nat.and_two_pow_sub_one_eq_mod,
    Nat.mod_eq_of_lt hwidth]

end UInt64
