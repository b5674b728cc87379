import Mathlib.Algebra.GroupWithZero.Nat
import Mathlib.Data.Fin.Basic

/-- A circular byte buffer. Its position and its fill level stay inside the
array by construction. -/
structure ByteRing (capacity : Nat) where
  bytes : Vector UInt8 capacity
  head : Fin capacity
  length : Nat
  length_le : length ≤ capacity
deriving Repr

namespace ByteRing

variable {capacity : Nat} [NeZero capacity] (ring : ByteRing capacity) (byte : UInt8) (input : List UInt8)

def empty : ByteRing capacity where
  bytes := Vector.replicate capacity 0
  head := 0
  length := 0
  length_le := Nat.zero_le _

/-- Remove the given number of bytes, one by one from the head. -/
def take : Nat → ByteRing capacity → List UInt8 × ByteRing capacity
  | 0, ring => ([], ring)
  | count + 1, ring =>
    let byte := ring.bytes.get ring.head
    let (rest, after) := take count
      { ring with
        head := ring.head + 1
        length := ring.length - 1
        length_le := le_trans (Nat.sub_le _ _) ring.length_le }
    (byte :: rest, after)

/-- Store one byte after the last one, unless every position is in use. -/
def push (ring : ByteRing capacity) (byte : UInt8) : ByteRing capacity :=
  if room : ring.length < capacity then
    let tail : Fin capacity := ⟨(ring.head + ring.length) % capacity, Nat.mod_lt _ (by omega)⟩
    { ring with
      bytes := ring.bytes.set tail byte
      length := ring.length + 1
      length_le := room }
  else
    ring

/-- `read` on a ring: at most `limit` bytes, in arrival order. -/
def read (ring : ByteRing capacity) (limit : Nat) : List UInt8 × ByteRing capacity :=
  ring.take (min limit ring.length)

/-- `write` on a ring: the prefix of `input` that fits, and how long it is. -/
def write (ring : ByteRing capacity) (input : List UInt8) : Nat × ByteRing capacity :=
  let count := min input.length (capacity - ring.length)
  (count, (input.take count).foldl push ring)

/-- The byte a number of places behind the head. -/
def cell (ring : ByteRing capacity) (offset : Nat) : UInt8 :=
  ring.bytes.get ⟨(ring.head + offset) % capacity, Nat.mod_lt _ (Nat.pos_of_neZero capacity)⟩

/-- The stored bytes in arrival order. -/
def contents (ring : ByteRing capacity) : List UInt8 := (List.range ring.length).map ring.cell

theorem contents_length : ring.contents.length = ring.length := by
  rw [contents, List.length_map, List.length_range]

omit [NeZero capacity] in
/-- Storing one byte changes the cell it is stored in and no nearer one. -/
theorem get_set (bytes : Vector UInt8 capacity) {tail : Nat} (htail : tail < capacity) (index : Fin capacity)
    (byte : UInt8) : (bytes.set tail byte htail).get index = if index.val = tail then byte else bytes.get index := by
  have hget : ∀ (vector : Vector UInt8 capacity) (index : Fin capacity), vector.get index = vector[index.val] :=
    fun _ _ => rfl
  rw [hget, hget]
  by_cases hsame : index.val = tail
  · simp only [hsame, Vector.getElem_set_self, if_true]
  · rw [if_neg hsame, Vector.getElem_set_ne _ _ fun hvalue => hsame hvalue.symm]

/-- Two places of the ring that are fewer than `capacity` steps apart are different. -/
theorem place_ne {capacity head near far : Nat} (hnear : near < far) (hfar : far < capacity) :
    (head + near) % capacity ≠ (head + far) % capacity := by
  intro hsame
  have hdvd : capacity ∣ (head + far) - (head + near) :=
    Nat.dvd_of_mod_eq_zero (Nat.sub_mod_eq_zero_of_mod_eq hsame.symm)
  have hzero := Nat.eq_zero_of_dvd_of_lt hdvd (by omega)
  omega

/-- A push appends its byte when there is room, and changes nothing otherwise. -/
theorem contents_push : (ring.push byte).contents = ring.contents ++ if ring.length < capacity then [byte] else [] := by
  unfold push
  split
  · rename_i hroom
    rw [contents, contents, List.range_succ, List.map_append, List.map_cons, List.map_nil]
    congr 1
    · refine List.map_congr_left fun offset hoffset => ?_
      rw [cell, get_set, if_neg (place_ne (List.mem_range.mp hoffset) hroom), cell]
    · rw [cell, get_set, if_pos rfl]
  · rw [List.append_nil]

/-- The ring without its first byte. -/
def behind (ring : ByteRing capacity) : ByteRing capacity :=
  { ring with
    head := ring.head + 1
    length := ring.length - 1
    length_le := le_trans (Nat.sub_le _ _) ring.length_le }

/-- The head moves on, so every stored byte comes one place nearer. -/
theorem contents_behind (hstored : 0 < ring.length) :
    ring.contents = ring.bytes.get ring.head :: ring.behind.contents := by
  obtain ⟨length, hlength⟩ : ∃ length, ring.length = length + 1 := ⟨ring.length - 1, by omega⟩
  have hbehind : ring.behind.length = length := by simp only [behind, hlength, Nat.add_sub_cancel]
  rw [contents, contents, hbehind, hlength, List.range_succ_eq_map, List.map_cons, List.map_map]
  congr 1
  · simp only [cell, Nat.add_zero, Nat.mod_eq_of_lt ring.head.isLt, Fin.eta]
  · refine List.map_congr_left fun offset _ => ?_
    have hplace : (ring.head.val + offset.succ) % capacity = ((ring.head + 1).val + offset) % capacity := by
      rw [Fin.val_add, Fin.val_one', Nat.add_mod_mod, Nat.mod_add_mod, Nat.succ_eq_add_one]
      congr 1
      omega
    simp only [Function.comp, cell, behind, hplace]

/-- Taking bytes removes them from the front. -/
theorem take_contents (count : Nat) (ring : ByteRing capacity) (hcount : count ≤ ring.length) :
    (ring.take count).1 = ring.contents.take count ∧
      (ring.take count).2.contents = ring.contents.drop count := by
  induction count generalizing ring with
  | zero => exact ⟨rfl, rfl⟩
  | succ count ih =>
    obtain ⟨htaken, hleft⟩ := ih ring.behind (by simp only [behind]; omega)
    rw [ring.contents_behind (by omega), List.take_succ_cons, List.drop_succ_cons, ← htaken, ← hleft]
    exact ⟨rfl, rfl⟩

theorem read_contents (limit : Nat) :
    (ring.read limit).1 = ring.contents.take limit ∧ (ring.read limit).2.contents = ring.contents.drop limit := by
  obtain ⟨htaken, hleft⟩ := ring.take_contents (min limit ring.length) (Nat.min_le_right _ _)
  rw [read, htaken, hleft, ← ring.contents_length]
  exact ⟨List.take_eq_take_min.symm, List.drop_eq_drop_min.symm⟩

omit [NeZero capacity] in
theorem push_length (hroom : ring.length < capacity) : (ring.push byte).length = ring.length + 1 := by
  rw [push, dif_pos hroom]

/-- Pushing no more bytes than there is room for appends all of them. -/
theorem contents_foldl_push (ring : ByteRing capacity)
    (hroom : ring.length + input.length ≤ capacity) : (input.foldl push ring).contents = ring.contents ++ input := by
  induction input generalizing ring with
  | nil => exact (List.append_nil _).symm
  | cons byte rest ih =>
    rw [List.length_cons] at hroom
    have hfree : ring.length < capacity := by omega
    rw [List.foldl_cons, ih _ (by rw [push_length ring byte hfree]; omega), contents_push, if_pos hfree,
      List.append_assoc, List.singleton_append]

/-- Writing stores the announced number of bytes behind what is there. -/
theorem write_contents : (ring.write input).2.contents = ring.contents ++ input.take (ring.write input).1 := by
  refine contents_foldl_push _ ring ?_
  rw [List.length_take]
  have hlength := ring.length_le
  omega

end ByteRing
