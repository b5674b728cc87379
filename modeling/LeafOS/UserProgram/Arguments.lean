import LeafOS.Memory.Construction
import LeafOS.UserProgram

/-!
The argument block of a new process: the pointers, a null pointer and the strings
with their terminators. `build_argument_vector` fills it in place, and the block is
shown to decode to the path and the arguments.
-/

namespace leafos.user_program

open leafos.memory
open Outcome (expect okOr_some ok_bind)

variable {arguments strings : List (List UInt8)} {size : Nat} {path : List UInt8} (string : List UInt8)
  (rest : List (List UInt8)) (address : Nat) (first second : List (List UInt8)) (start : Nat)

/-- The strings one after the other, each with its terminator. -/
def packed (strings : List (List UInt8)) : List UInt8 := strings.flatMap (· ++ [0])

@[simp] theorem packed_nil : packed [] = [] := rfl

@[simp] theorem packed_cons : packed (string :: rest) = string ++ 0 :: packed rest := by
  simp [packed]

theorem packed_length_cons : (packed (string :: rest)).length = string.length + 1 + (packed rest).length := by
  rw [packed_cons, List.length_append, List.length_cons]
  omega

@[simp] theorem packed_append :
    packed (first ++ second) = packed first ++ packed second := List.flatMap_append

/-- The pointers to the strings, the first of which is stored at the given address. -/
def pointer_array : Nat → List (List UInt8) → List UInt8
  | _, [] => []
  | address, string :: rest => to_le_bytes address ++ pointer_array (address + (string.length + 1)) rest

@[simp] theorem to_le_bytes_length (value : Nat) : (to_le_bytes value).length = 8 := Bytes.encode_length 8 value

@[simp] theorem pointer_array_length (strings : List (List UInt8)) :
    (pointer_array address strings).length = 8 * strings.length := by
  induction strings generalizing address with
  | nil => rfl
  | cons string rest ih =>
    rw [pointer_array, List.length_append, ih, to_le_bytes_length, List.length_cons]
    omega

theorem pointer_array_append :
    pointer_array address (first ++ second) =
      pointer_array address first ++ pointer_array (address + (packed first).length) second := by
  induction first generalizing address with
  | nil => rfl
  | cons string rest ih =>
    rw [List.cons_append, pointer_array, pointer_array, ih, packed_length_cons, Nat.add_assoc, List.append_assoc]

/-- The bytes of the block before it is rounded up to whole words. -/
def unaligned_size (strings : List (List UInt8)) : Nat := 8 * (strings.length + 1) + (packed strings).length

/-- The size of the block. -/
def block_size (strings : List (List UInt8)) : Nat := (unaligned_size strings + 7) / 8 * 8

/-- The block as a whole, for the address it is placed at. -/
def argument_block (stack_start : Nat) (strings : List (List UInt8)) : List UInt8 :=
  pointer_array (stack_start + 8 * (strings.length + 1)) strings ++ List.replicate 8 0 ++ packed strings ++
    List.replicate (block_size strings - unaligned_size strings) 0

theorem unaligned_size_le (strings : List (List UInt8)) : unaligned_size strings ≤ block_size strings := by
  unfold block_size
  omega

@[simp] theorem argument_block_length (stack_start : Nat) (strings : List (List UInt8)) :
    (argument_block stack_start strings).length = block_size strings := by
  have hle := unaligned_size_le strings
  have hsize : unaligned_size strings = 8 * (strings.length + 1) + (packed strings).length := rfl
  simp only [argument_block, List.length_append, List.length_replicate, pointer_array_length]
  omega

/-- Writing over the middle part of a buffer. -/
theorem copy_from_slice_middle {offset : Nat} (before old source after : List UInt8)
    (hoffset : before.length = offset) (hlength : source.length = old.length) :
    copy_from_slice (before ++ (old ++ after)) offset source = some (before ++ (source ++ after)) := by
  subst hoffset
  unfold copy_from_slice
  rw [if_pos (by simp only [List.length_append]; omega), List.take_left, List.drop_append, hlength,
    List.drop_eq_nil_of_le (by omega), Nat.add_sub_cancel_left, List.drop_left, List.nil_append, List.append_assoc]

/-- The loop stores the remaining pointers after the ones it has stored, and the
remaining strings after the ones it has stored. The zeroed bytes it leaves are the
null pointer, the terminators and the padding. -/
theorem place_arguments_eq (stack_start room : Nat) (strings : List (List UInt8)) (front middle : List UInt8)
    (index string_offset : Nat) (hindex : front.length = 8 * index)
    (hoffset : string_offset = front.length + 8 * (strings.length + 1) + middle.length)
    (hroom : stack_start + (string_offset + (packed strings).length) < 2 ^ 64) :
    place_arguments stack_start index string_offset strings (front ++ (List.replicate (8 * (strings.length + 1)) 0 ++
      (middle ++ List.replicate ((packed strings).length + room) 0))) =
        .ok (front ++ (pointer_array (stack_start + string_offset) strings ++ (List.replicate 8 0 ++
          (middle ++ (packed strings ++ List.replicate room 0))))) := by
  induction strings generalizing front middle index string_offset with
  | nil =>
    simp only [place_arguments, pointer_array, packed_nil, List.length_nil, Nat.zero_add, List.nil_append,
      Nat.mul_one]
  | cons string rest ih =>
    rw [List.length_cons] at hoffset
    rw [packed_length_cons] at hroom
    have haddress : checked_add stack_start string_offset = some (stack_start + string_offset) := if_pos (by omega)
    have hpointer : checked_mul index 8 = some front.length := by
      rw [checked_mul, if_pos (by omega), hindex, Nat.mul_comm]
    have hend : checked_add string_offset string.length = some (string_offset + string.length) := if_pos (by omega)
    have hslots : List.replicate (8 * (rest.length + 1 + 1)) (0 : UInt8) =
        List.replicate 8 0 ++ List.replicate (8 * (rest.length + 1)) 0 := by
      rw [List.replicate_append_replicate]
      congr 1
      omega
    have hstrings : List.replicate ((packed (string :: rest)).length + room) (0 : UInt8) =
        List.replicate string.length 0 ++ ([0] ++ List.replicate ((packed rest).length + room) 0) := by
      rw [List.singleton_append, ← List.replicate_succ, List.replicate_append_replicate, packed_length_cons]
      congr 1
      omega
    have hstored := copy_from_slice_middle front (List.replicate 8 0) (to_le_bytes (stack_start + string_offset))
      (List.replicate (8 * (rest.length + 1)) 0 ++ (middle ++ (List.replicate string.length 0 ++
        ([0] ++ List.replicate ((packed rest).length + room) 0)))) rfl (by simp)
    have hbefore : (front ++ (to_le_bytes (stack_start + string_offset) ++
        (List.replicate (8 * (rest.length + 1)) 0 ++ middle))).length = string_offset := by
      simp only [List.length_append, to_le_bytes_length, List.length_replicate]
      omega
    have hcopied := copy_from_slice_middle _ (List.replicate string.length 0) string
      ([0] ++ List.replicate ((packed rest).length + room) 0) hbefore (by simp)
    have hrest := ih (front ++ to_le_bytes (stack_start + string_offset)) (middle ++ (string ++ [0])) (index + 1)
      (string_offset + string.length + 1)
      (by simp only [List.length_append, to_le_bytes_length]; omega)
      (by simp only [List.length_append, to_le_bytes_length, List.length_singleton]; omega) (by omega)
    simp only [List.append_assoc] at hrest hcopied
    rw [List.length_cons, hslots, hstrings]
    simp only [place_arguments, List.append_assoc, haddress, hpointer, hend, hstored, hcopied, hrest,
      okOr_some, ok_bind, expect]
    simp only [pointer_array, packed_cons, List.append_assoc, List.cons_append, List.nil_append, Nat.add_assoc]

theorem checked_add_of_lt {left right : Nat} (hsum : left + right < 2 ^ 64) :
    checked_add left right = some (left + right) := if_pos hsum

theorem strings_size_fold {total : Nat} (htotal : total < 2 ^ 64) :
    arguments.foldlM (fun total argument => do checked_add (← checked_add total argument.length) 1) total = some size ↔
      total + (packed arguments).length < 2 ^ 64 ∧ size = total + (packed arguments).length := by
  induction arguments generalizing total with
  | nil =>
    rw [packed_nil, List.length_nil, Nat.add_zero, and_iff_right htotal, eq_comm]
    exact Option.some_inj
  | cons argument rest ih =>
    simp only [packed_length_cons, List.foldlM_cons, Option.bind_eq_bind, Option.bind_eq_some_iff, checked_add_eq_some]
    constructor
    · rintro ⟨_, ⟨_, ⟨_, rfl⟩, hnext, rfl⟩, hrest⟩
      have hsize := (ih hnext).mp hrest
      omega
    · rintro ⟨hfits, rfl⟩
      exact ⟨_, ⟨_, ⟨by omega, rfl⟩, by omega, rfl⟩, (ih (by omega)).mpr (by omega)⟩

theorem strings_size_eq_some :
    strings_size path arguments = some size ↔
      (packed (path :: arguments)).length < 2 ^ 64 ∧ size = (packed (path :: arguments)).length := by
  simp only [strings_size, packed_length_cons, Option.bind_eq_bind, Option.bind_eq_some_iff, checked_add_eq_some]
  constructor
  · rintro ⟨_, ⟨hpath, rfl⟩, hrest⟩
    exact (strings_size_fold hpath).mp hrest
  · rintro hsize
    exact ⟨_, ⟨by omega, rfl⟩, (strings_size_fold (by omega)).mpr hsize⟩

/-- The strings that no block is built for. -/
def Refused (strings : List (List UInt8)) : Prop :=
  MAX_PROGRAM_ARGUMENTS + 1 < strings.length ∨ (∃ string ∈ strings, 0 ∈ string) ∨
    MAX_PROGRAM_ARGUMENT_BYTES < (packed strings).length

instance (strings : List (List UInt8)) : Decidable (Refused strings) := by
  unfold Refused
  infer_instance

/-- The order in which `build_argument_vector` tests for them. -/
theorem refused_cons : Refused (path :: arguments) ↔
    (MAX_PROGRAM_ARGUMENTS < arguments.length ∨ 0 ∈ path ∨ ∃ argument ∈ arguments, 0 ∈ argument) ∨
      MAX_PROGRAM_ARGUMENT_BYTES < (packed (path :: arguments)).length := by
  simp only [Refused, List.length_cons, Nat.add_lt_add_iff_right, List.exists_mem_cons_iff, or_assoc]

/-- The address of the block in the stack of the new process. -/
def block_start (strings : List (List UInt8)) : Nat :=
  USER_STACK_TOP - USER_STACK_ARGUMENT_RESERVE - block_size strings

theorem block_size_le (haccepted : ¬ Refused strings) : block_size strings ≤ 1168 := by
  have hcount : strings.length ≤ 17 := Nat.le_of_not_lt fun hmany => haccepted (.inl hmany)
  have hbytes : (packed strings).length ≤ 1024 := Nat.le_of_not_lt fun hlong => haccepted (.inr (.inr hlong))
  unfold block_size unaligned_size
  omega

/-- Filling the zeroed block. -/
theorem place_arguments_block (haccepted : ¬ Refused strings) :
    place_arguments (block_start strings) 0 (8 * (strings.length + 1)) strings (List.replicate (block_size strings) 0) =
      .ok (argument_block (block_start strings) strings) := by
  have hle := unaligned_size_le strings
  have hsize : unaligned_size strings = 8 * (strings.length + 1) + (packed strings).length := rfl
  have hsmall := block_size_le haccepted
  have htop : USER_STACK_TOP - USER_STACK_ARGUMENT_RESERVE < 2 ^ 63 := by decide
  have hplaced := place_arguments_eq (block_start strings) (block_size strings - unaligned_size strings) strings [] []
    0 (8 * (strings.length + 1)) rfl (by simp) (by unfold block_start; omega)
  rw [List.nil_append, List.nil_append, List.replicate_append_replicate, ← Nat.add_assoc, ← hsize,
    Nat.add_sub_cancel' hle] at hplaced
  rw [hplaced]
  simp only [argument_block, List.append_assoc, List.nil_append]

/-- What `build_argument_vector` returns, in closed form. -/
theorem build_argument_vector_eq (path : List UInt8) (arguments : List (List UInt8)) (reserved : Bool) :
    build_argument_vector path arguments reserved =
      if Refused (path :: arguments) ∨ reserved = false then .err .InvalidArguments
      else .ok (argument_block (block_start (path :: arguments)) (path :: arguments), arguments.length + 1) := by
  unfold build_argument_vector
  by_cases hfirst : MAX_PROGRAM_ARGUMENTS < arguments.length ∨ 0 ∈ path ∨ ∃ argument ∈ arguments, 0 ∈ argument
  · rw [if_pos hfirst, if_pos (.inl (refused_cons.mpr (.inl hfirst)))]
  · have hcount : arguments.length ≤ 16 := Nat.le_of_not_lt fun hmany => hfirst (.inl hmany)
    have hpointers : checked_mul (arguments.length + 1 + 1) 8 = some (8 * (arguments.length + 1 + 1)) := by
      rw [checked_mul, if_pos (by omega), Nat.mul_comm]
    rw [if_neg hfirst, checked_add_of_lt (by omega), okOr_some, ok_bind, checked_add_of_lt (by omega),
      okOr_some, ok_bind, hpointers, okOr_some, ok_bind]
    by_cases hlong : MAX_PROGRAM_ARGUMENT_BYTES < (packed (path :: arguments)).length
    · rw [if_pos (.inl (refused_cons.mpr (.inr hlong)))]
      cases hsize : strings_size path arguments with
      | none => rfl
      | some size =>
        obtain ⟨_, rfl⟩ := strings_size_eq_some.mp hsize
        rw [okOr_some, ok_bind, if_pos hlong]
    · have haccepted : ¬ Refused (path :: arguments) := fun hrefused => (refused_cons.mp hrefused).elim hfirst hlong
      have hbytes : (packed (path :: arguments)).length ≤ 1024 := Nat.le_of_not_lt hlong
      have hstack : ¬ USER_STACK_SIZE < block_size (path :: arguments) := by
        have hsmall := block_size_le haccepted
        have hsize : USER_STACK_SIZE = 16384 := rfl
        omega
      have hsize : (8 * (arguments.length + 1 + 1) + (packed (path :: arguments)).length + 7) / 8 * 8 =
        block_size (path :: arguments) := rfl
      rw [strings_size_eq_some.mpr ⟨by omega, rfl⟩, okOr_some, ok_bind, if_neg hlong,
        checked_add_of_lt (by omega), okOr_some, ok_bind, checked_add_of_lt (by omega),
        okOr_some, ok_bind]
      simp only [hsize, if_neg hstack]
      cases reserved with
      | false => exact (if_pos (.inr rfl)).symm
      | true =>
        have hplaced := place_arguments_block haccepted
        rw [block_start, List.length_cons] at hplaced
        simp only [Bool.not_true, Bool.false_eq_true, if_false, haccepted, reduceCtorEq, or_self, hplaced,
          ok_bind]
        rfl

/-- The pointer at the given index of the block. -/
def pointer_at (block : List UInt8) (index : Nat) : Nat := Bytes.decode ((block.drop (8 * index)).take 8)

/-- The string that starts at the given offset of the block, up to its terminator. -/
def string_at (block : List UInt8) (offset : Nat) : List UInt8 := (block.drop offset).takeWhile (· != 0)

/-- Where the string after the given ones starts. -/
def string_offset (strings before : List (List UInt8)) : Nat := 8 * (strings.length + 1) + (packed before).length

/-- Dropping a given part at the front of an append. -/
theorem drop_eq_of_length {front rest : List UInt8} {count : Nat} (hcount : front.length = count) :
    (front ++ rest).drop count = rest := by
  subst hcount
  exact List.drop_left

theorem pointer_at_string {start : Nat} {before after : List (List UInt8)} {string : List UInt8}
    (hstart : start + block_size (before ++ string :: after) < 2 ^ 64) :
    pointer_at (argument_block start (before ++ string :: after)) before.length =
      start + string_offset (before ++ string :: after) before := by
  have hsize := unaligned_size_le (before ++ string :: after)
  simp only [unaligned_size, packed_append, List.length_append] at hsize
  rw [pointer_at, argument_block, pointer_array_append]
  simp only [List.append_assoc]
  rw [drop_eq_of_length (pointer_array_length _ _), pointer_array, List.append_assoc,
    List.take_left' (to_le_bytes_length _), string_offset, ← Nat.add_assoc]
  exact Bytes.decode_encode (by simp only [List.length_append]; omega)

theorem pointer_at_end (strings : List (List UInt8)) :
    pointer_at (argument_block start strings) strings.length = 0 := by
  rw [pointer_at, argument_block]
  simp only [List.append_assoc]
  rw [drop_eq_of_length (pointer_array_length _ _), List.take_left' List.length_replicate]
  rfl

theorem block_drop_string (before after : List (List UInt8)) (string : List UInt8) :
    ∃ rest, (argument_block start (before ++ string :: after)).drop (string_offset (before ++ string :: after) before) =
      string ++ 0 :: rest := by
  have hblock : argument_block start (before ++ string :: after) =
      (pointer_array (start + 8 * ((before ++ string :: after).length + 1)) (before ++ string :: after) ++
        List.replicate 8 0 ++ packed before) ++ (string ++ 0 :: (packed after ++ List.replicate
          (block_size (before ++ string :: after) - unaligned_size (before ++ string :: after)) 0)) := by
    simp only [argument_block, packed_append, packed_cons, List.append_assoc, List.cons_append]
  refine ⟨_, hblock ▸ drop_eq_of_length ?_⟩
  simp only [List.length_append, pointer_array_length, List.length_replicate, string_offset]
  omega

/-- The block that `build_argument_vector` returns decodes to the path and the
arguments at the address `load_segments` places it at, inside the stack. Its strings
lie one after the other behind the null pointer. Only too many arguments, a NUL byte
or too many bytes are refused. -/
theorem argument_vector_decodes (path : List UInt8) (arguments : List (List UInt8)) :
    (∀ block count, build_argument_vector path arguments true = .ok (block, count) →
      let strings := path :: arguments
      let address := USER_STACK_TOP - USER_STACK_ARGUMENT_RESERVE - block.length
      count = strings.length ∧ address % 8 = 0 ∧ USER_STACK_TOP - USER_STACK_SIZE ≤ address ∧
      address + block.length ≤ USER_STACK_TOP ∧ pointer_at block count = 0 ∧
      ∀ before string after, strings = before ++ string :: after →
        let offset := string_offset strings before
        pointer_at block before.length = address + offset ∧ string_at block offset = string ∧
        block[offset + string.length]? = some 0 ∧ 8 * (count + 1) ≤ offset ∧
        ∀ middle other rest, after = middle ++ other :: rest →
          offset + (string.length + 1) ≤ string_offset strings (before ++ string :: middle)) ∧
    (build_argument_vector path arguments true = .err .InvalidArguments ↔
      16 < arguments.length ∨ (∃ string ∈ path :: arguments, 0 ∈ string) ∨ 1024 < (packed (path :: arguments)).length) ∧
    (build_argument_vector path arguments true = .err .InvalidArguments ∨
      ∃ block, build_argument_vector path arguments true = .ok block) := by
  have hrefused : Refused (path :: arguments) ↔ 16 < arguments.length ∨ (∃ string ∈ path :: arguments, 0 ∈ string) ∨
      1024 < (packed (path :: arguments)).length :=
    or_congr_left Nat.succ_lt_succ_iff
  by_cases hrefuse : Refused (path :: arguments)
  · have herror : build_argument_vector path arguments true = .err .InvalidArguments := by
      rw [build_argument_vector_eq, if_pos (.inl hrefuse)]
    refine ⟨?_, ⟨fun _ => hrefused.mp hrefuse, fun _ => herror⟩, .inl herror⟩
    intro block count hbuild
    rw [herror] at hbuild
    cases hbuild
  have hok := build_argument_vector_eq path arguments true
  rw [if_neg (by simp [hrefuse])] at hok
  refine ⟨?_, ⟨?_, fun hbad => absurd (hrefused.mpr hbad) hrefuse⟩, .inr ⟨_, hok⟩⟩
  · intro block count hbuild strings address
    obtain ⟨rfl, rfl⟩ : argument_block (block_start strings) strings = block ∧ strings.length = count := by
      rw [hok] at hbuild
      cases hbuild
      exact ⟨rfl, rfl⟩
    have haddress : address = block_start strings := by
      simp only [address, argument_block_length, block_start]
    have htop : USER_STACK_TOP = (66846720 * 512 + 512) * 512 * 8 := rfl
    have hstack : USER_STACK_SIZE = 2048 * 8 := rfl
    have hreserve : USER_STACK_ARGUMENT_RESERVE = 32 * 8 := rfl
    have hwords : block_size strings = (unaligned_size strings + 7) / 8 * 8 := rfl
    have hstart : block_start strings = USER_STACK_TOP - USER_STACK_ARGUMENT_RESERVE - block_size strings := rfl
    have hsmall : block_size strings ≤ 1168 := block_size_le hrefuse
    rw [haddress, argument_block_length]
    refine ⟨rfl, by omega, by omega, by omega, pointer_at_end _ _, ?_⟩
    intro before string after hstrings offset
    have hmem : string ∈ strings := hstrings ▸ List.mem_append_right _ List.mem_cons_self
    have hclean : 0 ∉ string := fun hnul => hrefuse (.inr (.inl ⟨string, hmem, hnul⟩))
    obtain ⟨rest, hdrop⟩ := block_drop_string (block_start strings) before after string
    have hpointer : pointer_at (argument_block (block_start strings) (before ++ string :: after)) before.length =
        block_start strings + string_offset (before ++ string :: after) before :=
      pointer_at_string (by rw [← hstrings]; omega)
    rw [← hstrings] at hdrop hpointer
    refine ⟨hpointer, ?_, ?_, Nat.le_add_right _ _, ?_⟩
    · rw [string_at, hdrop, List.takeWhile_append_of_pos, List.takeWhile_cons_of_neg (by decide), List.append_nil]
      intro byte hbyte
      rw [bne_iff_ne]
      rintro rfl
      exact hclean hbyte
    · rw [← List.getElem?_drop, hdrop, List.getElem?_append_right (Nat.le_refl _), Nat.sub_self]
      rfl
    · intro middle other rest _
      simp only [offset, string_offset, packed_append, packed_cons, List.length_append, List.length_cons]
      omega
  · intro hbuild
    rw [hok] at hbuild
    cases hbuild

end leafos.user_program
