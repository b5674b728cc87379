import LeafOS.Memory.Construction
import LeafOS.Support.Buffer
import LeafOS.UserProgram

namespace leafos.user_program

open leafos.memory

variable {other : Nat × Nat} {address : Nat}

/-- The bytes of a frame, by their addresses in the direct map. -/
def InFrame (physical_offset : Nat) (frame : Nat) (address : Nat) : Prop :=
  physical_offset + frame ≤ address ∧ address < physical_offset + frame + PAGE_SIZE

/-- The direct map reaches every byte of a frame. -/
def Reachable (physical_offset : Nat) (frame : Nat) : Prop :=
  physical_offset + frame + PAGE_SIZE ≤ 2 ^ 64 ∧
    ∀ offset < PAGE_SIZE, canonical (physical_offset + frame + offset) = true

/-- A run of pages from a first one on, each in a frame that the direct map reaches,
no two frames overlapping. -/
structure Region (physical_offset first : Nat) (pages : List (Nat × Nat)) : Prop where
  consecutive : pages.map Prod.fst = List.range' first pages.length
  reachable : ∀ page ∈ pages, Reachable physical_offset page.2
  apart : pages.Pairwise fun page other => page.2 + PAGE_SIZE ≤ other.2 ∨ other.2 + PAGE_SIZE ≤ page.2

/-- What copying to a run of pages does to memory: the bytes lie one after another from
an address on, and all else is as before. The addresses are those of the pages. -/
structure Copied (physical_offset : Nat) (pages : List (Nat × Nat)) (bytes : List UInt8) (start : Nat)
    (before after : ByteMap) : Prop where
  inside : ∀ page ∈ pages, ∀ offset < PAGE_SIZE, after (physical_offset + page.2 + offset) =
    if start ≤ page.1 * PAGE_SIZE + offset ∧ page.1 * PAGE_SIZE + offset < start + bytes.length then
      bytes.getD (page.1 * PAGE_SIZE + offset - start) 0
    else before (physical_offset + page.2 + offset)
  outside : ∀ address, (∀ page ∈ pages, ¬ InFrame physical_offset page.2 address) → after address = before address

section Copying

variable {physical_offset first : Nat} {bytes : List UInt8} {pages : List (Nat × Nat)} {page frame start : Nat}
  {before after : ByteMap}

theorem Copied.nothing (start : Nat) (ram : ByteMap) : Copied physical_offset pages [] start ram ram := by
  refine ⟨fun page _ offset _ => ?_, fun _ _ => rfl⟩
  rw [if_neg]
  simp only [List.length_nil]
  omega

theorem Region.page_ge (hregion : Region physical_offset first pages) (hmem : (page, frame) ∈ pages) :
    first ≤ page := by
  have hpage : page ∈ List.range' first pages.length :=
    hregion.consecutive ▸ List.mem_map.mpr ⟨_, hmem, rfl⟩
  exact (List.mem_range'_1.mp hpage).1

section Region

variable (hregion : Region physical_offset first ((page, frame) :: pages))
include hregion

theorem Region.head : page = first :=
  (List.cons.inj hregion.consecutive).1

theorem Region.tail : Region physical_offset (first + 1) pages :=
  ⟨(List.cons.inj hregion.consecutive).2, fun found hfound => hregion.reachable found (List.mem_cons_of_mem _ hfound),
    (List.pairwise_cons.mp hregion.apart).2⟩

/-- No byte of a later page is in the frame of the first one. -/
theorem Region.head_apart (hother : other ∈ pages) (hframe : InFrame physical_offset frame address) :
    ¬ InFrame physical_offset other.2 address := by
  have hapart := (List.pairwise_cons.mp hregion.apart).1 other hother
  dsimp only at hapart
  unfold InFrame at hframe ⊢
  omega

/-- Nothing is copied to a page that lies before the start. -/
theorem Copied.skip (hstart : page * PAGE_SIZE + PAGE_SIZE ≤ start)
    (hcopied : Copied physical_offset pages bytes start before after) :
    Copied physical_offset ((page, frame) :: pages) bytes start before after := by
  refine ⟨fun found hfound offset hoffset => ?_, fun address houtside => ?_⟩
  · obtain rfl | hfound := List.mem_cons.mp hfound
    · rw [if_neg (by dsimp only; omega)]
      apply hcopied.outside
      intro other hother
      refine hregion.head_apart hother ?_
      unfold InFrame
      omega
    · exact hcopied.inside found hfound offset hoffset
  · exact hcopied.outside address fun other hother => houtside other (List.mem_cons_of_mem _ hother)

/-- A chunk fills the first page from the start on, up to the end of the page or of the
bytes; the rest goes to the pages behind it. -/
theorem Copied.chunk {chunk_len : Nat} (hstart : page * PAGE_SIZE ≤ start)
    (hpage : start < page * PAGE_SIZE + PAGE_SIZE)
    (hchunk : chunk_len = min bytes.length (PAGE_SIZE - (start - page * PAGE_SIZE)))
    (hcopied : Copied physical_offset pages (bytes.drop chunk_len) (start + chunk_len)
      (before.patch (physical_offset + frame + (start - page * PAGE_SIZE)) (bytes.take chunk_len)) after) :
    Copied physical_offset ((page, frame) :: pages) bytes start before after := by
  have hlength : (bytes.take chunk_len).length = chunk_len := by
    rw [List.length_take]
    omega
  have hdrop : (bytes.drop chunk_len).length = bytes.length - chunk_len := List.length_drop
  refine ⟨fun found hfound offset hoffset => ?_, fun address houtside => ?_⟩
  · obtain rfl | hfound := List.mem_cons.mp hfound
    · -- the first page: what follows does not touch its frame
      rw [hcopied.outside _ fun other hother => hregion.head_apart hother (by unfold InFrame; omega)]
      dsimp only
      unfold ByteMap.patch
      rw [hlength]
      by_cases hinside : start ≤ page * PAGE_SIZE + offset ∧ page * PAGE_SIZE + offset < start + bytes.length
      · rw [if_pos hinside, if_pos (by omega)]
        have hindex : physical_offset + frame + offset - (physical_offset + frame + (start - page * PAGE_SIZE)) =
            page * PAGE_SIZE + offset - start := by omega
        rw [hindex, List.getD_eq_getElem?_getD, List.getElem?_take_of_lt (by omega), ← List.getD_eq_getElem?_getD]
      · rw [if_neg hinside, if_neg (by omega)]
    · have hafter : page + 1 ≤ found.1 := hregion.head ▸ hregion.tail.page_ge hfound
      have hbehind : page * PAGE_SIZE + PAGE_SIZE ≤ found.1 * PAGE_SIZE := by
        rw [← Nat.succ_mul]
        exact Nat.mul_le_mul_right _ hafter
      have hapart : ¬ InFrame physical_offset frame (physical_offset + found.2 + offset) := fun hframe =>
        hregion.head_apart hfound hframe (by unfold InFrame; omega)
      rw [hcopied.inside found hfound offset hoffset, hdrop, ByteMap.patch_of_outside]
      · by_cases hinside : start ≤ found.1 * PAGE_SIZE + offset ∧
            found.1 * PAGE_SIZE + offset < start + bytes.length
        · rw [if_pos hinside, if_pos (by omega), List.getD_eq_getElem?_getD, List.getElem?_drop,
            ← List.getD_eq_getElem?_getD]
          congr 1
          omega
        · rw [if_neg hinside, if_neg (by omega)]
      · unfold InFrame at hapart
        rw [hlength]
        omega
  · have hframe := houtside (page, frame) List.mem_cons_self
    rw [hcopied.outside address fun other hother => houtside other (List.mem_cons_of_mem _ hother),
      ByteMap.patch_of_outside]
    unfold InFrame at hframe
    dsimp only at hframe
    rw [hlength]
    omega

end Region

/-- The loop of `copy_to_pages`, from any point on: the pages that are left take the
bytes that are left. -/
theorem copy_chunks_spec (bytes : List UInt8) (copied current_address : Nat) (hregion : Region physical_offset first pages)
    (hcopied : copied ≤ bytes.length) (hstart : copied = bytes.length ∨ first * PAGE_SIZE ≤ current_address)
    (hfits : current_address + (bytes.length - copied) ≤ (first + pages.length) * PAGE_SIZE ∨ copied = bytes.length) :
    ∃ writes, copy_chunks bytes physical_offset pages copied current_address = .ok (bytes.length, writes) ∧
      ∀ ram : ByteMap, Copied physical_offset pages (bytes.drop copied) current_address ram (ram.stores writes) := by
  have hpage_size : 0 < PAGE_SIZE := by decide
  induction pages generalizing first copied current_address with
  | nil =>
    obtain rfl : copied = bytes.length := by
      simp only [List.length_nil, Nat.add_zero] at hfits
      omega
    exact ⟨[], rfl, fun ram => ⟨nofun, fun _ _ => rfl⟩⟩
  | cons head pages ih =>
    obtain ⟨page, frame⟩ := head
    by_cases hdone : copied = bytes.length
    · subst hdone
      refine ⟨[], by simp [copy_chunks], fun ram => ?_⟩
      rw [List.drop_length]
      exact .nothing _ _
    obtain rfl := hregion.head
    have hfirst : page * PAGE_SIZE ≤ current_address := hstart.resolve_left hdone
    have hroom : current_address + (bytes.length - copied) ≤ (page + 1 + pages.length) * PAGE_SIZE := by
      have hroom := hfits.resolve_right hdone
      rwa [List.length_cons, ← Nat.add_assoc, Nat.add_right_comm] at hroom
    have hnext : (page + 1) * PAGE_SIZE = page * PAGE_SIZE + PAGE_SIZE := Nat.succ_mul _ _
    by_cases hskip : page * PAGE_SIZE + PAGE_SIZE ≤ current_address
    · obtain ⟨writes, hcall, hwrites⟩ := ih copied current_address hregion.tail hcopied (.inr (by omega)) (.inl hroom)
      refine ⟨writes, ?_, fun ram => (hwrites ram).skip hregion hskip⟩
      rw [copy_chunks, if_neg hdone, if_pos hskip]
      exact hcall
    · obtain ⟨chunk_len, hchunk⟩ : ∃ chunk_len,
          chunk_len = min (bytes.length - copied) (PAGE_SIZE - (current_address - page * PAGE_SIZE)) := ⟨_, rfl⟩
      obtain ⟨writes, hcall, hwrites⟩ := ih (copied + chunk_len) (current_address + chunk_len)
        hregion.tail (by omega) (by omega) (.inl (by omega))
      obtain ⟨hfits, hcanonical⟩ := hregion.reachable (page, frame) List.mem_cons_self
      dsimp only at hfits hcanonical
      have hbase : checked_add physical_offset frame = some (physical_offset + frame) :=
        checked_add_eq_some.mpr ⟨by omega, rfl⟩
      have haddress : checked_add (physical_offset + frame) (current_address - page * PAGE_SIZE) =
          some (physical_offset + frame + (current_address - page * PAGE_SIZE)) :=
        checked_add_eq_some.mpr ⟨by omega, rfl⟩
      have hdestination : (some (physical_offset + frame + (current_address - page * PAGE_SIZE))).filter canonical =
          some (physical_offset + frame + (current_address - page * PAGE_SIZE)) := by
        rw [Option.filter_some, if_pos (hcanonical _ (by omega))]
      refine ⟨(physical_offset + frame + (current_address - page * PAGE_SIZE), (bytes.drop copied).take chunk_len) ::
        writes, ?_, fun ram => ?_⟩
      · rw [copy_chunks, if_neg hdone, if_neg hskip, if_neg (Nat.not_lt.mpr hfirst)]
        simp only [hbase, haddress, hdestination, Outcome.okOr_some, Outcome.ok_bind, ← hchunk, hcall]
        rfl
      · refine Copied.chunk hregion hfirst (Nat.not_le.mp hskip) (hchunk.trans (by rw [List.length_drop])) ?_
        rw [List.drop_drop]
        exact hwrites _

/-- With pages that cover the bytes, `copy_to_pages` copies all of them. -/
theorem copy_to_pages_spec (bytes : List UInt8) {destination_start : Nat} (hregion : Region physical_offset first pages)
    (hstart : first * PAGE_SIZE ≤ destination_start)
    (hfits : destination_start + bytes.length ≤ (first + pages.length) * PAGE_SIZE) :
    ∃ writes, copy_to_pages bytes pages physical_offset destination_start = .ok writes ∧
      ∀ ram : ByteMap, Copied physical_offset pages bytes destination_start ram (ram.stores writes) := by
  obtain ⟨writes, hcall, hwrites⟩ := copy_chunks_spec bytes 0 destination_start hregion (Nat.zero_le _)
    (.inr hstart) (.inl hfits)
  refine ⟨writes, ?_, fun ram => hwrites ram⟩
  rw [copy_to_pages, hcall, Outcome.ok_bind]
  exact if_pos rfl

end Copying

/-- The zeros that `map_user_page` writes to a frame before it maps it. -/
def clearing (physical_offset : Nat) (pages : List (Page × PhysFrame)) : List (Nat × List UInt8) :=
  pages.map fun page => (physical_offset + page.2, List.replicate PAGE_SIZE 0)

section Bytes

variable {physical_offset : Nat} {pages : List (Nat × Nat)} {bytes : List UInt8} {start : Nat} {before after : ByteMap}
  {page : Nat × Nat} {others : List (Nat × Nat)} {source : List UInt8} {position : Nat}

/-- The pages hold the bytes from the start on, and zeros around them. -/
def Holds (physical_offset : Nat) (pages : List (Nat × Nat)) (bytes : List UInt8) (start : Nat) (ram : ByteMap) : Prop :=
  ∀ page ∈ pages, ∀ offset < PAGE_SIZE, ram (physical_offset + page.2 + offset) =
    if start ≤ page.1 * PAGE_SIZE + offset ∧ page.1 * PAGE_SIZE + offset < start + bytes.length then
      bytes.getD (page.1 * PAGE_SIZE + offset - start) 0
    else 0

/-- The pages hold zeros. -/
def Blank (physical_offset : Nat) (pages : List (Nat × Nat)) (ram : ByteMap) : Prop :=
  ∀ page ∈ pages, ∀ offset < PAGE_SIZE, ram (physical_offset + page.2 + offset) = 0

theorem Copied.holds (hcopied : Copied physical_offset pages bytes start before after)
    (hblank : Blank physical_offset pages before) : Holds physical_offset pages bytes start after := by
  intro page hpage offset hoffset
  rw [hcopied.inside page hpage offset hoffset, hblank page hpage offset hoffset]

/-- Frames that do not overlap. -/
def Apart (page other : Nat × Nat) : Prop := page.2 + PAGE_SIZE ≤ other.2 ∨ other.2 + PAGE_SIZE ≤ page.2

theorem Apart.symm (hapart : Apart page other) : Apart other page := Or.symm hapart

theorem Copied.elsewhere (hcopied : Copied physical_offset pages bytes start before after)
    (hapart : ∀ other ∈ pages, Apart page other) {offset : Nat} (hoffset : offset < PAGE_SIZE) :
    after (physical_offset + page.2 + offset) = before (physical_offset + page.2 + offset) := by
  apply hcopied.outside
  intro other hother hframe
  have hdistinct := hapart other hother
  unfold Apart at hdistinct
  unfold InFrame at hframe
  omega

theorem Holds.copied (hholds : Holds physical_offset pages bytes start before)
    (hcopied : Copied physical_offset others source position before after)
    (hapart : ∀ page ∈ pages, ∀ other ∈ others, Apart page other) : Holds physical_offset pages bytes start after :=
  fun page hpage offset hoffset => (hcopied.elsewhere (hapart page hpage) hoffset).trans (hholds page hpage offset hoffset)

theorem Blank.copied (hblank : Blank physical_offset pages before)
    (hcopied : Copied physical_offset others source position before after)
    (hapart : ∀ page ∈ pages, ∀ other ∈ others, Apart page other) : Blank physical_offset pages after :=
  fun page hpage offset hoffset => (hcopied.elsewhere (hapart page hpage) hoffset).trans (hblank page hpage offset hoffset)

/-- A byte is zero once its frame has been cleared, and remains so while others are. -/
theorem stores_clearing_zero {ram : ByteMap}
    (hzero : ram address = 0 ∨ ∃ page ∈ pages, InFrame physical_offset page.2 address) :
    ram.stores (clearing physical_offset pages) address = 0 := by
  induction pages generalizing ram with
  | nil =>
    simp only [List.not_mem_nil, false_and, exists_false, or_false] at hzero
    exact hzero
  | cons page rest ih =>
    rw [clearing, List.map_cons, ByteMap.stores_cons]
    apply ih
    dsimp only
    simp only [List.mem_cons, exists_eq_or_imp] at hzero
    by_cases hframe : InFrame physical_offset page.2 address
    · left
      unfold InFrame at hframe
      unfold ByteMap.patch
      rw [List.length_replicate, if_pos hframe, List.getD_eq_getElem?_getD, List.getElem?_replicate]
      split <;> rfl
    · obtain hzero | hzero | hzero := hzero
      · left
        rw [ByteMap.patch_of_outside]
        · exact hzero
        · unfold InFrame at hframe
          rw [List.length_replicate]
          omega
      · exact absurd hzero hframe
      · exact .inr hzero

theorem blank_clearing (physical_offset : Nat) (pages : List (Nat × Nat)) (ram : ByteMap) :
    Blank physical_offset pages (ram.stores (clearing physical_offset pages)) := by
  intro page hpage offset hoffset
  apply stores_clearing_zero
  refine .inr ⟨page, hpage, ?_⟩
  unfold InFrame
  omega

end Bytes

end leafos.user_program
