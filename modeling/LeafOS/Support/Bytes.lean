import Mathlib.Algebra.GroupWithZero.Nat
import Mathlib.Data.List.Basic

namespace Bytes

variable (bytes : List UInt8) (width value : Nat)

/-- The value of a little-endian byte string. -/
def decode (bytes : List UInt8) : Nat := bytes.foldr (fun byte rest => byte.toNat + 256 * rest) 0

/-- `bytes.get(offset..offset + length)`. -/
def slice? (bytes : List UInt8) (offset length : Nat) : Option (List UInt8) :=
  if offset + length ≤ bytes.length then some ((bytes.drop offset).take length) else none

/-- The little-endian byte string of a value, cut to the given width. -/
def encode (width value : Nat) : List UInt8 :=
  (List.range width).map fun index => UInt8.ofNat (value / 256 ^ index)

@[simp] theorem encode_length : (encode width value).length = width := by
  simp [encode]

theorem decode_lt : decode bytes < 256 ^ bytes.length := by
  induction bytes with
  | nil => simp [decode]
  | cons byte rest ih =>
    have hbyte := byte.toNat_lt
    simp only [decode, List.foldr_cons, List.length_cons, Nat.pow_succ] at ih ⊢
    omega

theorem decode_take_lt (count : Nat) : decode (bytes.take count) < 256 ^ count :=
  Nat.lt_of_lt_of_le (decode_lt _) (Nat.pow_le_pow_right (by decide) (List.length_take_le count bytes))

theorem encode_succ : encode (width + 1) value = UInt8.ofNat value :: encode width (value / 256) := by
  simp only [encode, List.range_succ_eq_map, List.map_cons, List.map_map, Nat.pow_zero, Nat.div_one]
  congr 1
  apply List.map_congr_left
  intro index _
  simp only [Function.comp_apply, Nat.pow_succ', Nat.div_div_eq_div_mul]

theorem decode_encode {width value : Nat} (hvalue : value < 256 ^ width) : decode (encode width value) = value := by
  induction width generalizing value with
  | zero =>
    rw [Nat.pow_zero] at hvalue
    rw [Nat.lt_one_iff.mp hvalue]
    rfl
  | succ width ih =>
    have hrest : value / 256 < 256 ^ width := by
      apply Nat.div_lt_of_lt_mul
      rwa [← Nat.pow_succ']
    have hdecode : decode (UInt8.ofNat value :: encode width (value / 256)) =
      (UInt8.ofNat value).toNat + 256 * decode (encode width (value / 256)) := rfl
    rw [encode_succ, hdecode, ih hrest, UInt8.toNat_ofNat']
    omega

theorem encode_decode : encode bytes.length (decode bytes) = bytes := by
  induction bytes with
  | nil => rfl
  | cons byte rest ih =>
    have hdecode : decode (byte :: rest) = byte.toNat + 256 * decode rest := rfl
    have hbyte := byte.toNat_lt
    rw [List.length_cons, encode_succ, hdecode, Nat.add_mul_div_left _ _ (by decide), Nat.div_eq_of_lt hbyte,
      Nat.zero_add, ih]
    congr 1
    apply UInt8.toNat_inj.mp
    rw [UInt8.toNat_ofNat']
    omega

/-- ASCII text is valid UTF-8. -/
theorem validateUTF8_of_ascii {bytes : List UInt8} (hascii : ∀ byte ∈ bytes, byte < 128) :
    bytes.toByteArray.validateUTF8 = true := by
  rw [ByteArray.validateUTF8_eq_true_iff]
  induction bytes with
  | nil => exact .intro [] rfl
  | cons byte rest ih =>
    obtain ⟨hbyte, hrest⟩ := List.forall_mem_cons.mp hascii
    have hlt : byte.toNat < 128 := UInt8.lt_iff_toNat_lt.mp hbyte
    have hsize : (Char.ofUInt8 byte).utf8Size = 1 := by
      rw [Char.utf8Size_eq_one_iff, UInt32.le_iff_toNat_le]
      change byte.toUInt32.toNat ≤ 127
      rw [UInt8.toNat_toUInt32]
      omega
    have hencode : [Char.ofUInt8 byte].utf8Encode = [byte].toByteArray := by
      rw [List.utf8Encode_singleton, String.utf8EncodeChar_eq_singleton hsize]
      change [byte.toUInt32.toUInt8].toByteArray = _
      rw [UInt8.toUInt8_toUInt32]
    have hcons : (byte :: rest).toByteArray = [byte].toByteArray ++ rest.toByteArray :=
      List.toByteArray_append (l := [byte])
    rw [hcons]
    exact .append (.intro [Char.ofUInt8 byte] hencode.symm) (ih hrest)

end Bytes
