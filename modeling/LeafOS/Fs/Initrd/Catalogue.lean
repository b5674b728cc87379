import LeafOS.Fs.Initrd.Names

namespace leafos.fs

open FsError
open Outcome (bind_eq_ok_iff bind_ne_panic okOr okOr_bind_ne_panic okOr_eq_ok_iff pure_eq_ok_iff
  refuse refuse_bind_ne_panic refuse_eq_ok_iff refuse_ne_panic)

variable {found : Option TarEntry}

section Entries

variable {archive header path data : List UInt8} {offset header_end next_offset : Nat} {is_dir : Bool}
  {entry : TarEntry} (leading name : List UInt8)

theorem full_name_eq_join : full_name leading name = Path.join SLASH leading name := by
  cases leading with
  | nil => rfl
  | cons first rest => simp [full_name, Path.join]

theorem full_name_length :
    (full_name leading name).length = leading.length + (if leading.isEmpty then 0 else 1) + name.length := by
  cases leading with
  | nil => simp [full_name]
  | cons first rest =>
    simp [full_name]
    omega

/-- The path of an entry is safe, and what the two fields spell, but for the last slash of a
directory. -/
theorem entry_name_eq_ok_iff : entry_name header is_dir = .ok path ↔
    field (slice header 0 100) ≠ [] ∧
      (full_name (field (slice header 345 500)) (field (slice header 0 100))).length ≤ MAX_PATH_LEN ∧
      safe_path path false = true ∧
      (full_name (field (slice header 345 500)) (field (slice header 0 100)) = path ∨
        is_dir = true ∧ full_name (field (slice header 345 500)) (field (slice header 0 100)) = path ++ [SLASH]) := by
  simp only [entry_name, ← full_name_length]
  generalize full_name (field (slice header 345 500)) (field (slice header 0 100)) = full
  simp only [bind_eq_ok_iff, okOr_eq_ok_iff, refuse_eq_ok_iff, checked_usize_eq_some,
    List.isEmpty_eq_false_iff, decide_eq_false_iff_not, Nat.not_lt]
  constructor
  · rintro ⟨_, hname, _, ⟨_, rfl⟩, _, hlength, hpath⟩
    refine ⟨hname, hlength, ?_⟩
    by_cases hlast : full.getLast? = some SLASH
    · rw [if_pos hlast] at hpath
      simp only [bind_eq_ok_iff, refuse_eq_ok_iff, pure_eq_ok_iff, Bool.not_eq_false'] at hpath
      obtain ⟨_, hdir, _, hsafe, rfl⟩ := hpath
      exact ⟨hsafe, .inr ⟨hdir, (List.dropLast_append_getLast? _ hlast).symm⟩⟩
    · rw [if_neg hlast] at hpath
      simp only [bind_eq_ok_iff, refuse_eq_ok_iff, pure_eq_ok_iff, Bool.not_eq_false'] at hpath
      obtain ⟨_, hsafe, rfl⟩ := hpath
      exact ⟨hsafe, .inl rfl⟩
  · rintro ⟨hname, hlength, hsafe, hpath⟩
    have hmax : MAX_PATH_LEN = 255 := rfl
    refine ⟨(), hname, _, ⟨by omega, rfl⟩, (), hlength, ?_⟩
    obtain rfl | ⟨rfl, rfl⟩ := hpath
    · have hlast : full.getLast? ≠ some SLASH := fun hlast => by
        rw [← List.dropLast_append_getLast? _ hlast, safe_path_trailing] at hsafe
        cases hsafe
      rw [if_neg hlast, hsafe]
      rfl
    · rw [if_pos (by simp), List.dropLast_concat, hsafe]
      rfl

/-- The contents are the bytes after the header, as many as the size field says, and the next
header is at the block boundary after them. -/
theorem entry_data_eq_ok_iff : entry_data archive header header_end is_dir = .ok (data, next_offset) ↔
    ∃ size, octal (slice header 124 136) = some size ∧ (is_dir = true → size = 0) ∧
      next_offset = header_end + (size + (BLOCK_SIZE - 1)) / BLOCK_SIZE * BLOCK_SIZE ∧ next_offset ≤ archive.length ∧
      data = (archive.drop header_end).take size ∧ size + (BLOCK_SIZE - 1) < 2 ^ 64 ∧ next_offset < 2 ^ 64 := by
  simp only [entry_data, bind_eq_ok_iff, okOr_eq_ok_iff, refuse_eq_ok_iff, pure_eq_ok_iff,
    checked_usize_eq_some, Bytes.slice?, Option.ite_none_right_eq_some, Prod.mk.injEq]
  constructor
  · rintro ⟨size, hsize, _, hdir, _, ⟨hrounded, rfl⟩, _, _, _, ⟨hnext, rfl⟩, _, ⟨_, hdata⟩, _, hfits, rfl, rfl⟩
    refine ⟨size, hsize, by simpa using hdir, rfl, by simpa using hfits, ?_, hrounded, hnext⟩
    exact (Option.some.inj hdata).symm
  · rintro ⟨size, hsize, hdir, rfl, hfits, rfl, hrounded, hnext⟩
    have hpadded : size ≤ (size + (BLOCK_SIZE - 1)) / BLOCK_SIZE * BLOCK_SIZE := by
      rw [show BLOCK_SIZE = 512 from rfl]
      omega
    exact ⟨size, hsize, (), by simpa using hdir, _, ⟨hrounded, rfl⟩, _, ⟨by omega, rfl⟩, _, ⟨hnext, rfl⟩, _,
      ⟨by omega, rfl⟩, (), by simpa using hfits, rfl, rfl⟩

theorem decode_entry_eq_ok_iff : decode_entry archive header header_end = .ok entry ↔
    octal (slice header 148 156) = some (checksum header) ∧ slice header 257 262 = USTAR ∧
      entry_is_dir header = .ok entry.is_dir ∧ entry_name header entry.is_dir = .ok entry.name ∧
      entry_data archive header header_end entry.is_dir = .ok (entry.data, entry.next_offset) := by
  simp only [decode_entry, bind_eq_ok_iff, okOr_eq_ok_iff, refuse_eq_ok_iff,
    pure_eq_ok_iff, Bool.or_eq_false_iff, bne_eq_false_iff_eq]
  constructor
  · rintro ⟨_, hsum, _, ⟨rfl, hmagic⟩, is_dir, hdir, name, hname, ⟨data, next_offset⟩, hdata, rfl⟩
    exact ⟨hsum, hmagic, hdir, hname, hdata⟩
  · rintro ⟨hsum, hmagic, hdir, hname, hdata⟩
    exact ⟨_, hsum, (), ⟨rfl, hmagic⟩, _, hdir, _, hname, _, hdata, rfl⟩

/-- The header that stands at an offset, if the archive reaches that far. -/
theorem entry_at_of_le (hlength : offset + BLOCK_SIZE ≤ archive.length) (hbound : archive.length < 2 ^ 64) :
    entry_at archive offset =
      if ((archive.drop offset).take BLOCK_SIZE).all (· == 0) then
        .ok none
      else do
        let entry ← decode_entry archive ((archive.drop offset).take BLOCK_SIZE) (offset + BLOCK_SIZE)
        return some entry := by
  rw [entry_at, checked_usize, if_pos (by omega), Bytes.slice?, if_pos hlength]
  rfl

theorem entry_at_ok (hfound : entry_at archive offset = .ok found) : offset + BLOCK_SIZE ≤ archive.length := by
  simp only [entry_at, bind_eq_ok_iff, okOr_eq_ok_iff, Bytes.slice?, Option.ite_none_right_eq_some] at hfound
  obtain ⟨_, _, _, ⟨hlength, _⟩, _⟩ := hfound
  exact hlength

theorem entry_is_dir_ne_panic (header : List UInt8) : entry_is_dir header ≠ .panic := by
  unfold entry_is_dir
  dsimp only
  split_ifs <;> exact nofun

theorem entry_name_ne_panic (header : List UInt8) (is_dir : Bool) : entry_name header is_dir ≠ .panic := by
  refine refuse_bind_ne_panic (okOr_bind_ne_panic fun _ => refuse_bind_ne_panic ?_)
  dsimp only
  split_ifs
  · exact refuse_bind_ne_panic (refuse_bind_ne_panic nofun)
  · exact refuse_bind_ne_panic nofun

theorem entry_data_ne_panic (archive header : List UInt8) (header_end : Nat) (is_dir : Bool) :
    entry_data archive header header_end is_dir ≠ .panic := by
  refine okOr_bind_ne_panic fun _ => refuse_bind_ne_panic (okOr_bind_ne_panic fun _ => ?_)
  refine okOr_bind_ne_panic fun _ => okOr_bind_ne_panic fun _ => okOr_bind_ne_panic fun _ => ?_
  exact refuse_bind_ne_panic nofun

theorem entry_at_ne_panic (archive : List UInt8) (offset : Nat) : entry_at archive offset ≠ .panic := by
  refine okOr_bind_ne_panic fun _ => okOr_bind_ne_panic fun _ => ?_
  split_ifs
  · exact nofun
  · refine bind_ne_panic (okOr_bind_ne_panic fun _ => refuse_bind_ne_panic ?_) fun _ _ => nofun
    refine bind_ne_panic (entry_is_dir_ne_panic _) fun _ _ => ?_
    refine bind_ne_panic (entry_name_ne_panic _ _) fun _ _ => ?_
    exact bind_ne_panic (entry_data_ne_panic _ _ _ _) fun _ _ => nofun

variable (hentry : entry_at archive offset = .ok (some entry))
include hentry

theorem decode_entry_of_entry_at :
    ((archive.drop offset).take BLOCK_SIZE).all (· == 0) = false ∧
      decode_entry archive ((archive.drop offset).take BLOCK_SIZE) (offset + BLOCK_SIZE) = .ok entry := by
  simp only [entry_at, bind_eq_ok_iff, okOr_eq_ok_iff, Bytes.slice?, Option.ite_none_right_eq_some,
    checked_usize_eq_some, Option.some.injEq] at hentry
  obtain ⟨_, ⟨_, rfl⟩, _, ⟨_, rfl⟩, hentry⟩ := hentry
  cases hzero : ((archive.drop offset).take BLOCK_SIZE).all (· == 0) with
  | true =>
    rw [if_pos hzero] at hentry
    cases hentry
  | false =>
    rw [if_neg (by simp [hzero]), bind_eq_ok_iff] at hentry
    obtain ⟨found, hdecode, hsame⟩ := hentry
    obtain rfl := Option.some.inj (pure_eq_ok_iff.mp hsame)
    exact ⟨rfl, hdecode⟩

/-- An entry has a safe path, and the next header comes after its own, still in the archive. -/
theorem entry_at_some :
    safe_path entry.name false = true ∧ offset + BLOCK_SIZE ≤ entry.next_offset ∧ entry.next_offset ≤ archive.length := by
  obtain ⟨_, hdecode⟩ := decode_entry_of_entry_at hentry
  obtain ⟨_, _, _, hname, hdata⟩ := decode_entry_eq_ok_iff.mp hdecode
  obtain ⟨size, _, _, hnext, hfits, _⟩ := entry_data_eq_ok_iff.mp hdata
  exact ⟨(entry_name_eq_ok_iff.mp hname).2.2.1, hnext ▸ Nat.le_add_right _ _, hfits⟩

theorem entry_at_ascending : offset < entry.next_offset :=
  Nat.lt_of_lt_of_le (Nat.lt_add_of_pos_right (by decide)) (entry_at_some hentry).2.1

theorem entry_at_bounds : offset < entry.next_offset ∧ entry.next_offset ≤ archive.length :=
  ⟨entry_at_ascending hentry, (entry_at_some hentry).2.2⟩

end Entries

section Walks

variable {archive : List UInt8} {records : List (Nat × TarEntry)} {offset stop : Nat} {σ ρ : Type} {count : Nat}

/-- The entries of an archive all end before its end. -/
theorem chain_length_le (hchain : Scan.Chain (entry_at archive) TarEntry.next_offset 0 records stop)
    (hstop : entry_at archive stop = .ok found) : records.length < archive.length + 1 := by
  have hlength := hchain.length_le fun _ _ => entry_at_ascending
  have hblock := entry_at_ok hstop
  omega

theorem find_previous_eq (hchain : Scan.Chain (entry_at archive) TarEntry.next_offset 0 records offset)
    (hoffset : entry_at archive offset = .ok found) (test : TarEntry → Option ρ) :
    find_previous archive offset test = .ok (records.findSome? fun record => test record.2) :=
  Scan.find_eq_findSome? (hchain.before (fun _ _ => entry_at_ascending) InvalidArchive)
    (Scan.before_self (entry_at archive) InvalidArchive offset) (chain_length_le hchain hoffset)

/-- What `validate` has found out about an archive that it accepts: the entries, one after the
other from the start, and that they agree with each other. -/
structure Catalogue (archive : List UInt8) (records : List (Nat × TarEntry)) (stop : Nat) : Prop where
  size : archive.length ≤ MAX_ARCHIVE_SIZE
  blocks : archive.length % BLOCK_SIZE = 0
  chain : Scan.Chain (entry_at archive) TarEntry.next_offset 0 records stop
  ends : entry_at archive stop = .ok none
  count : records.length ≤ MAX_FILES
  compatible : records.Pairwise fun previous entry => conflicts previous.2 entry.2 = false
  zeros : ∀ byte ∈ archive.drop stop, byte = 0

/-- A turn of `validate` on an entry that comes after the given ones. -/
theorem validate_entry_eq_ok_iff (hchain : Scan.Chain (entry_at archive) TarEntry.next_offset 0 records offset)
    {entry : TarEntry} (hentry : entry_at archive offset = .ok (some entry)) {turn : Turn Nat Empty} :
    validate_entry archive offset entry count = .ok turn ↔
      count + 1 ≤ MAX_FILES ∧ (∀ previous ∈ records, conflicts previous.2 entry = false) ∧ turn = .next (count + 1) := by
  rw [validate_entry, bind_eq_ok_iff]
  simp only [find_previous_eq hchain hentry, Outcome.ok_bind, bind_eq_ok_iff, refuse_eq_ok_iff,
    pure_eq_ok_iff, decide_eq_false_iff_not, Nat.not_lt, exists_const, Option.isSome_eq_false_iff,
    Option.isNone_iff_eq_none, List.findSome?_eq_none_iff]
  refine and_congr_right fun _ => and_congr ?_ eq_comm
  refine forall₂_congr fun previous _ => ?_
  cases conflicts previous.2 entry <;> simp

/-- What the loop of `validate` keeps of the entries before its offset. -/
def Checked (records : List (Nat × TarEntry)) (count : Nat) : Prop :=
  count = records.length ∧ records.length ≤ MAX_FILES ∧
    records.Pairwise fun previous entry => conflicts previous.2 entry.2 = false

theorem checked_snoc {record : Nat × TarEntry} :
    Checked (records ++ [record]) (count + 1) ↔
      Checked records count ∧ count + 1 ≤ MAX_FILES ∧ ∀ previous ∈ records, conflicts previous.2 record.2 = false := by
  simp only [Checked, List.length_append, List.length_singleton, List.pairwise_append, List.pairwise_singleton,
    List.mem_singleton, forall_eq, true_and]
  constructor
  · rintro ⟨hcount, hlength, hpairwise, hlast⟩
    exact ⟨⟨by omega, by omega, hpairwise⟩, by omega, hlast⟩
  · rintro ⟨⟨hcount, hlength, hpairwise⟩, hmax, hlast⟩
    exact ⟨by omega, by omega, hpairwise, hlast⟩

theorem validate_eq_ok_iff : validate archive = .ok () ↔ ∃ records stop, Catalogue archive records stop := by
  simp only [validate, bind_eq_ok_iff, refuse_eq_ok_iff, exists_const, Bool.or_eq_false_iff,
    decide_eq_false_iff_not, Nat.not_lt, bne_eq_false_iff_eq]
  constructor
  · rintro ⟨⟨⟨_, hsize⟩, hblocks⟩, turn, hwalk, hzeros⟩
    match turn, hwalk, hzeros with
    | .next (stop, count), hwalk, hzeros =>
      have hstep : ∀ done offset entry count count',
          Scan.Chain (entry_at archive) TarEntry.next_offset 0 done offset →
          entry_at archive offset = .ok (some entry) → Checked done count →
          validate_entry archive offset entry count = .ok (.next count') → Checked (done ++ [(offset, entry)]) count' := by
        intro done offset entry count count' hchain hentry hdone hturn
        obtain ⟨hmax, hagree, hsame⟩ := (validate_entry_eq_ok_iff hchain hentry).mp hturn
        obtain rfl := Turn.next.inj hsame
        exact checked_snoc.mpr ⟨hdone, hmax, hagree⟩
      obtain ⟨records, hchain, hends, hcount, hmax, hpairwise⟩ :=
        Scan.run_next hstep (.nil 0) ⟨rfl, Nat.zero_le _, .nil⟩ hwalk
      refine ⟨records, stop, hsize, hblocks, hchain, hends, hmax, hpairwise, ?_⟩
      obtain ⟨_, _, hrest⟩ := bind_eq_ok_iff.mp hzeros
      simpa using refuse_eq_ok_iff.mp hrest
  · rintro ⟨records, stop, hcatalogue⟩
    have hblock := entry_at_ok hcatalogue.ends
    have hnonempty : archive.isEmpty = false := by
      rw [List.isEmpty_eq_false_iff, ← List.length_pos_iff]
      exact Nat.lt_of_lt_of_le (by decide) (Nat.le_trans (Nat.le_add_left BLOCK_SIZE stop) hblock)
    have hstep : ∀ done offset entry rest count, records = done ++ (offset, entry) :: rest → Checked done count →
        ∃ count', validate_entry archive offset entry count = .ok (.next count') ∧
          Checked (done ++ [(offset, entry)]) count' := by
      rintro done offset entry rest count rfl hdone
      obtain ⟨hchain, hentry⟩ := hcatalogue.chain.split
      have hagree : ∀ previous ∈ done, conflicts previous.2 entry = false := fun previous hprevious =>
        (List.pairwise_append.mp hcatalogue.compatible).2.2 previous hprevious (offset, entry) List.mem_cons_self
      have hmax : count + 1 ≤ MAX_FILES := by
        have hlength := hcatalogue.count
        rw [List.length_append, List.length_cons] at hlength
        rw [hdone.1]
        omega
      exact ⟨count + 1, (validate_entry_eq_ok_iff hchain hentry).mpr ⟨hmax, hagree, rfl⟩,
        checked_snoc.mpr ⟨hdone, hmax, hagree⟩⟩
    obtain ⟨count, hover, _⟩ := Scan.along_next stop hstep ⟨rfl, Nat.zero_le _, .nil⟩
    refine ⟨⟨⟨hnonempty, hcatalogue.size⟩, hcatalogue.blocks⟩, .next (stop, count), ?_, ?_⟩
    · rw [walk, Scan.run_eq_along hcatalogue.chain hcatalogue.ends (chain_length_le hcatalogue.chain hcatalogue.ends)]
      exact hover
    · refine bind_eq_ok_iff.mpr ⟨(), Outcome.unchecked_eq_ok_iff.mpr (by omega), ?_⟩
      rw [refuse_eq_ok_iff, List.any_eq_false]
      intro byte hbyte
      rw [hcatalogue.zeros byte hbyte]
      decide

theorem find_previous_ne_panic (archive : List UInt8) (offset : Nat) (test : TarEntry → Option ρ) :
    find_previous archive offset test ≠ .panic :=
  Scan.find_ne_panic (fun _ => Scan.before_ne_panic (entry_at_ne_panic archive) _ _ _)
    (fun _ _ hbefore => entry_at_bounds (Scan.before_eq_ok_some hbefore)) (by omega) (by omega)

/-- Whatever the bytes, `validate` returns. -/
theorem validate_ne_panic (archive : List UInt8) : validate archive ≠ .panic := by
  refine bind_ne_panic (refuse_ne_panic _ _) fun _ _ => ?_
  refine bind_ne_panic ?_ fun turn hwalk => ?_
  · refine Scan.run_ne_panic (entry_at_ne_panic archive) (fun _ _ => entry_at_bounds) ?_ (by omega) (by omega)
    intro offset entry count _
    refine bind_ne_panic (refuse_ne_panic _ _) fun _ _ => ?_
    refine bind_ne_panic (find_previous_ne_panic archive offset _) fun _ _ => ?_
    exact bind_ne_panic (refuse_ne_panic _ _) fun _ _ => by rintro ⟨⟩
  · rcases turn with never | ⟨stop, count⟩
    · exact never.elim
    · -- the loop stopped at a block of the archive, so the rest of it may be sliced
      obtain ⟨_, _, hends, _⟩ := Scan.run_next (I := fun _ _ => True) (fun _ _ _ _ _ _ _ _ _ => trivial) (.nil 0) trivial hwalk
      have hblock := entry_at_ok hends
      refine bind_ne_panic ?_ fun _ _ => refuse_ne_panic _ _
      rw [Outcome.unchecked, Outcome.guarded, if_pos (by omega)]
      rintro ⟨⟩

end Walks

end leafos.fs
