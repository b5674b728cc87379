import LeafOS.Support.Bytes
import LeafOS.Support.Prog
import Mathlib.Tactic.Common

/-- An unbounded row of bytes. -/
abbrev ByteMap : Type := Nat → UInt8

namespace ByteMap

/-- The little-endian 16-bit word at an offset. -/
def word16 (bytes : ByteMap) (offset : Nat) : Nat :=
  (bytes offset).toNat + 256 * (bytes (offset + 1)).toNat

/-- The little-endian 32-bit word at an offset. -/
def word32 (bytes : ByteMap) (offset : Nat) : Nat :=
  bytes.word16 offset + 65536 * bytes.word16 (offset + 2)

/-- The bytes with a string stored at an offset. -/
def patch (bytes : ByteMap) (offset : Nat) (source : List UInt8) : ByteMap := fun index =>
  if offset ≤ index ∧ index < offset + source.length then source.getD (index - offset) 0 else bytes index

/-- The bytes after strings have been stored one after another, each at its offset. -/
def stores (bytes : ByteMap) (writes : List (Nat × List UInt8)) : ByteMap :=
  writes.foldl (fun bytes write => bytes.patch write.1 write.2) bytes

/-- The bytes with the positions from `first` on and before `last` cleared. -/
def erase (bytes : ByteMap) (first last : Nat) : ByteMap := fun index =>
  if first ≤ index ∧ index < last then 0 else bytes index

/-- The string of the given length at an offset. -/
def string (bytes : ByteMap) (offset length : Nat) : List UInt8 :=
  (List.range length).map fun index => bytes (offset + index)

/-- The bytes below a bound, followed by zeros. -/
def below (bytes : ByteMap) (bound : Nat) : ByteMap := fun index => if index < bound then bytes index else 0

section Words

variable {bytes other : ByteMap} {offset start : Nat} {source : List UInt8} {index bound : Nat}

theorem word16_lt (bytes : ByteMap) (offset : Nat) : bytes.word16 offset < 2 ^ 16 := by
  have hlow := (bytes offset).toNat_lt
  have hhigh := (bytes (offset + 1)).toNat_lt
  unfold word16
  omega

theorem word32_lt (bytes : ByteMap) (offset : Nat) : bytes.word32 offset < 2 ^ 32 := by
  have hlow := bytes.word16_lt offset
  have hhigh := bytes.word16_lt (offset + 2)
  unfold word32
  omega

theorem word16_congr (hlow : bytes offset = other start) (hhigh : bytes (offset + 1) = other (start + 1)) :
    bytes.word16 offset = other.word16 start := by
  unfold word16
  rw [hlow, hhigh]

theorem word32_congr (hsame : ∀ index < 4, bytes (offset + index) = other (start + index)) :
    bytes.word32 offset = other.word32 start := by
  unfold word32
  have hlow : bytes.word16 offset = other.word16 start := word16_congr (hsame 0 (by decide)) (hsame 1 (by decide))
  have hhigh : bytes.word16 (offset + 2) = other.word16 (start + 2) :=
    word16_congr (hsame 2 (by decide)) (hsame 3 (by decide))
  rw [hlow, hhigh]

theorem patch_of_outside (houtside : index < offset ∨ offset + source.length ≤ index) :
    bytes.patch offset source index = bytes index := by
  unfold patch
  rw [if_neg (by omega)]

theorem patch_inside (hindex : index < source.length) :
    bytes.patch offset source (offset + index) = source.getD index 0 := by
  unfold patch
  rw [if_pos (by omega), Nat.add_sub_cancel_left]

theorem stores_cons (bytes : ByteMap) (write : Nat × List UInt8) (writes : List (Nat × List UInt8)) :
    bytes.stores (write :: writes) = (bytes.patch write.1 write.2).stores writes := rfl

theorem stores_append (bytes : ByteMap) (writes later : List (Nat × List UInt8)) :
    bytes.stores (writes ++ later) = (bytes.stores writes).stores later :=
  List.foldl_append

theorem below_of_lt (hindex : index < bound) : bytes.below bound index = bytes index :=
  if_pos hindex

theorem word32_below (hbound : offset + 4 ≤ bound) : (bytes.below bound).word32 offset = bytes.word32 offset :=
  word32_congr fun index hindex => below_of_lt (by omega)

@[simp] theorem string_length (bytes : ByteMap) (offset length : Nat) :
    (bytes.string offset length).length = length := by
  simp [string]

theorem string_getD {length : Nat} (hindex : index < length) :
    (bytes.string offset length).getD index 0 = bytes (offset + index) := by
  simp [string, List.getD_eq_getElem?_getD, hindex]

end Words

end ByteMap

/-- A slice of memory: its length, and its bytes below that length. -/
structure Buffer where
  length : Nat
  bytes : ByteMap

namespace Buffer

variable {ε : Type}

def zeroed (length : Nat) : Buffer := ⟨length, fun _ => 0⟩

/-- `buffer[index]`. -/
def get (buffer : Buffer) (index : Nat) : Outcome ε UInt8 :=
  .guarded (index < buffer.length) (buffer.bytes index)

/-- `u16::from_le_bytes` at an offset. -/
def le16 (buffer : Buffer) (offset : Nat) : Outcome ε Nat :=
  .guarded (offset + 2 ≤ buffer.length) (buffer.bytes.word16 offset)

/-- `u32::from_le_bytes` at an offset. -/
def le32 (buffer : Buffer) (offset : Nat) : Outcome ε Nat :=
  .guarded (offset + 4 ≤ buffer.length) (buffer.bytes.word32 offset)

/-- `&buffer[first..last]`. -/
def slice (buffer : Buffer) (first last : Nat) : Outcome ε Buffer :=
  .guarded (first ≤ last ∧ last ≤ buffer.length) ⟨last - first, fun index => buffer.bytes (first + index)⟩

/-- `buffer[index] = byte`. -/
def set (buffer : Buffer) (index : Nat) (byte : UInt8) : Outcome ε Buffer :=
  .guarded (index < buffer.length) { buffer with bytes := buffer.bytes.patch index [byte] }

/-- `buffer[offset..offset + source.len()].copy_from_slice(source)`. -/
def copy_from_slice (buffer : Buffer) (offset : Nat) (source : List UInt8) : Outcome ε Buffer :=
  .guarded (offset + source.length ≤ buffer.length) { buffer with bytes := buffer.bytes.patch offset source }

/-- `buffer[first..last].fill(0)`. -/
def clear (buffer : Buffer) (first last : Nat) : Outcome ε Buffer :=
  .guarded (first ≤ last ∧ last ≤ buffer.length) { buffer with bytes := buffer.bytes.erase first last }

/-- Store words one after another. -/
def put_words (buffer : Buffer) (offset : Nat) : List Nat → Outcome ε Buffer
  | [] => .ok buffer
  | word :: rest => do
    let buffer ← buffer.copy_from_slice offset (Bytes.encode 4 word)
    buffer.put_words (offset + 4) rest

/-- A buffer whose part from `first` on was changed in place. -/
def splice (buffer : Buffer) (first : Nat) (part : Buffer) : Buffer :=
  { buffer with bytes := fun index =>
      if first ≤ index ∧ index < first + part.length then part.bytes (index - first) else buffer.bytes index }

/-- The bytes as a list. -/
def toList (buffer : Buffer) : List UInt8 := buffer.bytes.string 0 buffer.length

section Results

variable {buffer result : Buffer} {offset index first last value : Nat} {byte : UInt8} {source : List UInt8}

theorem le32_eq_ok_iff : (buffer.le32 offset : Outcome ε Nat) = .ok value ↔
    offset + 4 ≤ buffer.length ∧ buffer.bytes.word32 offset = value :=
  Outcome.guarded_eq_ok_iff

theorem slice_eq_ok_iff : (buffer.slice first last : Outcome ε Buffer) = .ok result ↔
    (first ≤ last ∧ last ≤ buffer.length) ∧
      (⟨last - first, fun index => buffer.bytes (first + index)⟩ : Buffer) = result :=
  Outcome.guarded_eq_ok_iff

theorem copy_from_slice_eq_ok_iff : (buffer.copy_from_slice offset source : Outcome ε Buffer) = .ok result ↔
    offset + source.length ≤ buffer.length ∧
      { buffer with bytes := buffer.bytes.patch offset source } = result :=
  Outcome.guarded_eq_ok_iff

end Results

section Safe

variable {Bad : ε → Prop} {buffer : Buffer} {offset index first last : Nat} {byte : UInt8} {source : List UInt8}
  {Q : Buffer → Prop}

@[simp] theorem safe_get {Q : UInt8 → Prop} :
    (buffer.get index : Outcome ε UInt8).Safe Bad Q ↔ index < buffer.length ∧ Q (buffer.bytes index) :=
  Outcome.safe_guarded

@[simp] theorem safe_le16 {Q : Nat → Prop} :
    (buffer.le16 offset : Outcome ε Nat).Safe Bad Q ↔ offset + 2 ≤ buffer.length ∧ Q (buffer.bytes.word16 offset) :=
  Outcome.safe_guarded

@[simp] theorem safe_le32 {Q : Nat → Prop} :
    (buffer.le32 offset : Outcome ε Nat).Safe Bad Q ↔ offset + 4 ≤ buffer.length ∧ Q (buffer.bytes.word32 offset) :=
  Outcome.safe_guarded

@[simp] theorem safe_slice : (buffer.slice first last : Outcome ε Buffer).Safe Bad Q ↔
    (first ≤ last ∧ last ≤ buffer.length) ∧ Q ⟨last - first, fun index => buffer.bytes (first + index)⟩ :=
  Outcome.safe_guarded

@[simp] theorem safe_copy_from_slice :
    (buffer.copy_from_slice offset source : Outcome ε Buffer).Safe Bad Q ↔
      offset + source.length ≤ buffer.length ∧ Q { buffer with bytes := buffer.bytes.patch offset source } :=
  Outcome.safe_guarded

end Safe

end Buffer
