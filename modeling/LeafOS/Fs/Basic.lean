import Mathlib.Algebra.GroupWithZero.Nat
import Mathlib.Data.List.Basic

namespace leafos.fs

/-- The separator of path components. -/
def SLASH : UInt8 := 47

def DOT : List UInt8 := [46]

def DOT_DOT : List UInt8 := [46, 46]

def is_ascii_alphanumeric (byte : UInt8) : Bool :=
  (48 ≤ byte && byte ≤ 57) || (65 ≤ byte && byte ≤ 90) || (97 ≤ byte && byte ≤ 122)

/-- `core::str::from_utf8`; a `str` is kept as its bytes. -/
def from_utf8 (bytes : List UInt8) : Option (List UInt8) :=
  if bytes.toByteArray.validateUTF8 then some bytes else none

/-- `checked_add`, `checked_mul` and `try_from` for `usize`, given the exact result. -/
def checked_usize (value : Nat) : Option Nat := if value < 2 ^ 64 then some value else none

@[simp] theorem checked_usize_eq_some {value result : Nat} :
    checked_usize value = some result ↔ value < 2 ^ 64 ∧ value = result := by
  simp [checked_usize]

end leafos.fs
