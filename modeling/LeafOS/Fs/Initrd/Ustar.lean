import LeafOS.Fs.Initrd.Names

namespace leafos.fs.ustar

open Path (Below join)

/-- An entry as it is given to a writer of archives: the path, cut where the name field begins,
and the contents. -/
structure Member where
  leading : List UInt8
  name : List UInt8
  trailing_slash : Bool
  is_dir : Bool
  data : List UInt8
  safe : safe_path (join SLASH leading name) false = true
  name_fits : name.length + trailing_slash.toNat ≤ 100
  leading_fits : leading.length ≤ 155
  path_fits : (join SLASH leading name).length + trailing_slash.toNat ≤ MAX_PATH_LEN
  dir_of_slash : trailing_slash = true → is_dir = true
  empty_of_dir : is_dir = true → data = []

def Member.path (member : Member) : List UInt8 := join SLASH member.leading member.name

/-- What stands in the name field. -/
def Member.written_name (member : Member) : List UInt8 :=
  member.name ++ if member.trailing_slash then [SLASH] else []

/-- A field with a text: the text fills it, or a NUL follows. -/
def TextField (bytes text : List UInt8) : Prop := bytes = text ∨ Below 0 text bytes

/-- The value of octal digits. -/
def digits_value (digits : List UInt8) : Nat := digits.foldl (fun value digit => value * 8 + (digit.toNat - 48)) 0

/-- A field with a number: blanks, octal digits, and a blank after them unless they fill the field.
A field of blanks stands for zero. -/
def OctalField (bytes : List UInt8) (value : Nat) : Prop :=
  ∃ blanks digits rest, bytes = blanks ++ (digits ++ rest) ∧ (∀ byte ∈ blanks, is_blank byte = true) ∧
    (∀ byte ∈ digits, is_octal_digit byte = true) ∧ value = digits_value digits ∧
    (∀ byte, rest.head? = some byte → is_blank byte = true ∧ digits ≠ [])

/-- The sum of the bytes of a header, where the checksum field counts as blanks. -/
def header_sum (header : List UInt8) : Nat :=
  ((header.take 148 ++ List.replicate 8 32 ++ header.drop 156).map UInt8.toNat).sum

/-- A header block for an entry. What is not mentioned, such as the owner and the time, is up to the writer. -/
structure Member.IsHeader (member : Member) (header : List UInt8) : Prop where
  length : header.length = BLOCK_SIZE
  name : TextField (slice header 0 100) member.written_name
  size : OctalField (slice header 124 136) member.data.length
  checksum : OctalField (slice header 148 156) (header_sum header)
  typeflag : header.getD 156 0 ∈ if member.is_dir then [53] else [48, 0]
  magic : slice header 257 262 = USTAR
  leading : TextField (slice header 345 500) member.leading

/-- The archives of a list of entries: for each a header, the contents and padding to a full block,
and at the end at least one block of zeros. -/
inductive Encodes : List Member → List UInt8 → Prop
  | stop {blocks : Nat} (hblocks : 0 < blocks) : Encodes [] (List.replicate (blocks * BLOCK_SIZE) 0)
  | member {member : Member} {members : List Member} {header padding rest : List UInt8} (hheader : member.IsHeader header)
    (hpadded : (member.data.length + padding.length) % BLOCK_SIZE = 0) (hpadding : padding.length < BLOCK_SIZE)
    (hrest : Encodes members rest) : Encodes (member :: members) (header ++ (member.data ++ (padding ++ rest)))

/-- What a list of entries has to be for an archive: not too long, the paths different, and no path
of a file before a slash of another. -/
structure Archivable (members : List Member) : Prop where
  count : members.length ≤ MAX_FILES
  distinct : (members.map Member.path).Nodup
  parents : ∀ member ∈ members, ∀ other ∈ members, Below SLASH member.path other.path → member.is_dir = true

section Fields

variable {bytes text : List UInt8} {value : Nat} {byte : UInt8}

/-- `field` reads a text back. -/
theorem field_eq_iff (htext : 0 ∉ text) : field bytes = text ↔ TextField bytes text := by
  rw [field, Path.takeWhile_ne_eq_iff, TextField, and_iff_right htext]

theorem zero_not_mem_field : 0 ∉ field bytes := (Path.takeWhile_ne_eq_iff.mp rfl).1

theorem textField_field : TextField bytes (field bytes) := (field_eq_iff zero_not_mem_field).mp rfl

theorem not_blank_of_digit (hdigit : is_octal_digit byte = true) : is_blank byte = false := by
  simp only [is_octal_digit, is_blank, Bool.and_eq_true, decide_eq_true_eq, Bool.or_eq_false_iff, beq_eq_false_iff_ne, ne_eq,
    UInt8.le_iff_toNat_le, ← UInt8.toNat_inj] at hdigit ⊢
  simp at hdigit ⊢
  omega

theorem digit_lt (hdigit : is_octal_digit byte = true) : byte.toNat - 48 < 8 := by
  simp only [is_octal_digit, Bool.and_eq_true, decide_eq_true_eq, UInt8.le_iff_toNat_le] at hdigit
  simp at hdigit
  omega

/-- The digits that the loop of `octal` reads once it has started. The bound keeps the value from
overflowing. -/
theorem octal_loop_started {start : Nat} (hbound : (start + 1) * 8 ^ bytes.length ≤ 2 ^ 64) :
    octal_loop bytes start true = some value ↔
      ∃ digits rest, bytes = digits ++ rest ∧ (∀ byte ∈ digits, is_octal_digit byte = true) ∧
        value = digits.foldl (fun value digit => value * 8 + (digit.toNat - 48)) start ∧
        ∀ byte, rest.head? = some byte → is_blank byte = true := by
  induction bytes generalizing start with
  | nil =>
    rw [octal_loop, Option.some.injEq]
    constructor
    · rintro rfl
      exact ⟨[], [], rfl, by simp, rfl, by simp⟩
    · rintro ⟨digits, rest, hsplit, _, rfl, _⟩
      rw [(List.append_eq_nil_iff.mp hsplit.symm).1]
      rfl
  | cons first bytes ih =>
    rw [octal_loop, if_neg (by simp)]
    by_cases hdigit : is_octal_digit first = true
    · have hlt := digit_lt hdigit
      have hnext : (start * 8 + (first.toNat - 48) + 1) * 8 ^ bytes.length ≤ 2 ^ 64 := by
        refine Nat.le_trans (Nat.mul_le_mul_right _ (by omega : _ ≤ (start + 1) * 8)) ?_
        rwa [Nat.mul_assoc, ← Nat.pow_succ']
      have hvalue : start * 8 + (first.toNat - 48) < 2 ^ 64 :=
        Nat.lt_of_lt_of_le (Nat.lt_succ_self _) (Nat.le_trans (Nat.le_mul_of_pos_right _ (Nat.pow_pos (by decide))) hnext)
      have hshifted : start * 8 < 2 ^ 64 := Nat.lt_of_le_of_lt (Nat.le_add_right _ _) hvalue
      rw [if_pos hdigit, checked_usize, if_pos hshifted, Option.bind_eq_bind, Option.bind_some, checked_usize, if_pos hvalue,
        Option.bind_some, ih hnext]
      constructor
      · rintro ⟨digits, rest, rfl, hdigits, hsum, hrest⟩
        exact ⟨first :: digits, rest, rfl, List.forall_mem_cons.mpr ⟨hdigit, hdigits⟩, hsum, hrest⟩
      · rintro ⟨digits, rest, hsplit, hdigits, hsum, hrest⟩
        cases digits with
        | nil =>
          obtain rfl : first :: bytes = rest := hsplit
          have hblank := hrest first rfl
          rw [not_blank_of_digit hdigit] at hblank
          cases hblank
        | cons digit digits =>
          obtain ⟨rfl, rfl⟩ := List.cons.inj hsplit
          exact ⟨digits, rest, rfl, (List.forall_mem_cons.mp hdigits).2, hsum, hrest⟩
    · rw [if_neg hdigit, Option.ite_none_right_eq_some, Option.some.injEq]
      constructor
      · rintro ⟨hblank, rfl⟩
        exact ⟨[], first :: bytes, rfl, by simp, rfl, by simpa using hblank⟩
      · rintro ⟨digits, rest, hsplit, hdigits, hsum, hrest⟩
        cases digits with
        | nil =>
          obtain rfl : first :: bytes = rest := hsplit
          exact ⟨hrest first rfl, hsum.symm⟩
        | cons digit digits =>
          obtain ⟨rfl, _⟩ := List.cons.inj hsplit
          exact absurd (hdigits first List.mem_cons_self) hdigit

/-- `octal` reads a number back. -/
theorem octal_eq_some_iff (hlength : bytes.length ≤ 21) : octal bytes = some value ↔ OctalField bytes value := by
  rw [octal]
  induction bytes with
  | nil =>
    rw [octal_loop, OctalField, Option.some.injEq]
    constructor
    · rintro rfl
      exact ⟨[], [], [], rfl, by simp, by simp, rfl, by simp⟩
    · rintro ⟨blanks, digits, rest, hsplit, _, _, rfl, _⟩
      obtain ⟨_, hsplit⟩ := List.append_eq_nil_iff.mp hsplit.symm
      rw [(List.append_eq_nil_iff.mp hsplit).1]
      rfl
  | cons first bytes ih =>
    rw [List.length_cons] at hlength
    by_cases hblank : is_blank first = true
    · rw [octal_loop, if_pos (by simp [hblank]), ih (Nat.le_of_succ_le hlength)]
      constructor
      · rintro ⟨blanks, digits, rest, rfl, hblanks, hdigits, hvalue, hrest⟩
        exact ⟨first :: blanks, digits, rest, rfl, List.forall_mem_cons.mpr ⟨hblank, hblanks⟩, hdigits, hvalue, hrest⟩
      · rintro ⟨blanks, digits, rest, hsplit, hblanks, hdigits, hvalue, hrest⟩
        cases blanks with
        | cons blank blanks =>
          obtain ⟨_, rfl⟩ := List.cons.inj hsplit
          exact ⟨blanks, digits, rest, rfl, (List.forall_mem_cons.mp hblanks).2, hdigits, hvalue, hrest⟩
        | nil =>
          cases digits with
          | nil => exact absurd rfl (hrest first (by rw [show rest = first :: bytes from hsplit.symm]; rfl)).2
          | cons digit digits =>
            obtain ⟨rfl, _⟩ := List.cons.inj hsplit
            rw [not_blank_of_digit (hdigits first List.mem_cons_self)] at hblank
            cases hblank
    · have hstart : octal_loop (first :: bytes) 0 false = octal_loop (first :: bytes) 0 true := by
        simp only [octal_loop, Bool.eq_false_iff.mpr hblank, Bool.false_and, Bool.false_eq_true, if_false]
      have hbound : (0 + 1) * 8 ^ (first :: bytes).length ≤ 2 ^ 64 := by
        rw [Nat.zero_add, Nat.one_mul]
        exact Nat.le_trans (Nat.pow_le_pow_right (by decide) hlength) (by decide)
      rw [hstart, octal_loop_started hbound]
      constructor
      · rintro ⟨digits, rest, hsplit, hdigits, hvalue, hrest⟩
        refine ⟨[], digits, rest, hsplit, by simp, hdigits, hvalue, fun byte hbyte => ⟨hrest byte hbyte, ?_⟩⟩
        rintro rfl
        exact hblank (hrest first (by rw [show rest = first :: bytes from hsplit.symm]; rfl))
      · rintro ⟨blanks, digits, rest, hsplit, hblanks, hdigits, hvalue, hrest⟩
        cases blanks with
        | nil => exact ⟨digits, rest, hsplit, hdigits, hvalue, fun byte hbyte => (hrest byte hbyte).1⟩
        | cons blank blanks =>
          obtain ⟨rfl, _⟩ := List.cons.inj hsplit
          exact absurd (hblanks first List.mem_cons_self) hblank

end Fields

/-! A writer: the fields it has a choice for are zero, and numbers are filled up with zeros. -/

/-- The lowest octal digits of a number. -/
def octal_digits (width value : Nat) : List UInt8 :=
  (List.range width).reverse.map fun place => UInt8.ofNat (48 + value / 8 ^ place % 8)

/-- A text filled up with NULs. -/
def filled (width : Nat) (text : List UInt8) : List UInt8 := text ++ List.replicate (width - text.length) 0

/-- The fields of a header, with the given text for the checksum. -/
def Member.fields (member : Member) (sum : List UInt8) : List (List UInt8) :=
  [filled 100 member.written_name, List.replicate 24 0, octal_digits 11 member.data.length ++ [0], List.replicate 12 0, sum,
    [if member.is_dir then 53 else 48], List.replicate 100 0, USTAR, [0, 48, 48], List.replicate 80 0,
    filled 155 member.leading, List.replicate 12 0]

def Member.header (member : Member) : List UInt8 :=
  (member.fields (octal_digits 6 (header_sum (member.fields (List.replicate 8 32)).flatten) ++ [0, 32])).flatten

def encode : List Member → List UInt8
  | [] => List.replicate (2 * BLOCK_SIZE) 0
  | member :: members =>
    member.header ++ (member.data ++
      (List.replicate ((BLOCK_SIZE - member.data.length % BLOCK_SIZE) % BLOCK_SIZE) 0 ++ encode members))

/-- `bin/`, and a file `bin/init` whose directory stands in the prefix field. -/
def sample_members : List Member :=
  [⟨[], [98, 105, 110], true, true, [], by decide, by decide, by decide, by decide, by decide, by decide⟩,
    ⟨[98, 105, 110], [105, 110, 105, 116], false, false, [1, 2, 3], by decide, by decide, by decide, by decide, by decide,
      by decide⟩]

end leafos.fs.ustar
