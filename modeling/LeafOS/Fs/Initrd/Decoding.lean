import LeafOS.Fs.Initrd.Views

namespace leafos.fs.ustar

open FsError
open Path (Below join)

variable {member : Member} {header : List UInt8} {path data : List UInt8}

section Headers

variable {is_dir : Bool} (bytes : List UInt8) (first : Nat)

/-- A part of the header where the checksum counts the bytes as they are. -/
theorem sum_outside (houtside : first + bytes.length ≤ 148 ∨ 156 ≤ first) :
    ((bytes.zipIdx first).map fun (byte, index) => if 148 ≤ index ∧ index < 156 then 32 else byte.toNat).sum =
      (bytes.map UInt8.toNat).sum := by
  induction bytes generalizing first with
  | nil => rfl
  | cons byte rest ih =>
    rw [List.length_cons] at houtside
    rw [List.zipIdx_cons, List.map_cons, List.map_cons, List.sum_cons, List.sum_cons, ih (first + 1) (by omega)]
    dsimp only
    rw [if_neg (by omega)]

/-- The part where it counts blanks. -/
theorem sum_inside (hfirst : 148 ≤ first) (hlast : first + bytes.length ≤ 156) :
    ((bytes.zipIdx first).map fun (byte, index) => if 148 ≤ index ∧ index < 156 then 32 else byte.toNat).sum =
      bytes.length * 32 := by
  induction bytes generalizing first with
  | nil => rfl
  | cons byte rest ih =>
    rw [List.length_cons] at hlast
    rw [List.zipIdx_cons, List.map_cons, List.sum_cons, ih (first + 1) (by omega) (by omega), List.length_cons]
    dsimp only
    rw [if_pos (by omega)]
    omega

/-- The sum that `entry_at` makes is that of the format. -/
theorem checksum_eq (hlength : header.length = BLOCK_SIZE) : checksum header = header_sum header := by
  have hblock : header.length = 512 := hlength
  have hsplit : header = header.take 148 ++ ((header.drop 148).take 8 ++ header.drop 156) := by
    rw [show header.drop 156 = (header.drop 148).drop 8 by rw [List.drop_drop], List.take_append_drop,
      List.take_append_drop]
  have hbefore : (header.take 148).length = 148 := by rw [List.length_take, hblock]; rfl
  have hfield : ((header.drop 148).take 8).length = 8 := by rw [List.length_take, List.length_drop, hblock]; rfl
  conv_lhs => rw [hsplit]
  rw [checksum, List.zipIdx_append, List.zipIdx_append, List.map_append, List.map_append, List.sum_append, List.sum_append,
    sum_outside _ 0 (by omega), sum_inside _ _ (by omega) (by omega), sum_outside _ _ (by omega), header_sum,
    List.map_append, List.map_append, List.sum_append, List.sum_append, hfield]
  simp [Nat.add_assoc]

theorem slice_length_le (first last : Nat) : (slice bytes first last).length ≤ last - first := by
  rw [slice, List.length_drop]
  exact Nat.sub_le_sub_right (List.length_take_le last bytes) first

theorem full_name_written (member : Member) :
    full_name member.leading member.written_name = member.path ++ if member.trailing_slash then [SLASH] else [] := by
  rw [full_name_eq_join, Member.written_name, Path.join_append, Member.path]

/-- Neither field of a path has a NUL in it. -/
theorem path_bytes (member : Member) : 0 ∉ member.leading ∧ 0 ∉ member.written_name := by
  have hpath : ∀ byte, byte ∈ member.leading ∨ byte ∈ member.name → byte ≠ 0 := fun byte hbyte =>
    (safe_path_ascii member.safe byte (Path.mem_join hbyte)).1
  refine ⟨fun hzero => hpath 0 (.inl hzero) rfl, fun hzero => ?_⟩
  obtain hzero | hslash := List.mem_append.mp hzero
  · exact hpath 0 (.inr hzero) rfl
  · split_ifs at hslash
    · exact absurd (List.mem_singleton.mp hslash) (by decide)
    · exact absurd hslash List.not_mem_nil

theorem name_ne_nil (member : Member) : member.name ≠ [] := by
  intro hname
  have hsafe := member.safe
  rw [hname] at hsafe
  by_cases hleading : member.leading = []
  · rw [hleading, Path.join_nil] at hsafe
    cases hsafe
  · rw [Path.join_of_ne_nil hleading, safe_path_trailing] at hsafe
    cases hsafe

/-- `entry_at` decodes the header of an entry. -/
theorem decode_header (hheader : member.IsHeader header) :
    octal (slice header 148 156) = some (checksum header) ∧ octal (slice header 124 136) = some member.data.length ∧
      entry_is_dir header = .ok member.is_dir ∧ entry_name header member.is_dir = .ok member.path := by
  obtain ⟨hleading, hwritten⟩ := path_bytes member
  have hname := (field_eq_iff hwritten).mpr hheader.name
  have hprefix_field := (field_eq_iff hleading).mpr hheader.leading
  refine ⟨?_, ?_, ?_, ?_⟩
  · rw [checksum_eq hheader.length]
    exact (octal_eq_some_iff (Nat.le_trans (slice_length_le _ _ _) (by decide))).mpr hheader.checksum
  · exact (octal_eq_some_iff (Nat.le_trans (slice_length_le _ _ _) (by decide))).mpr hheader.size
  · have hflag := hheader.typeflag
    unfold entry_is_dir
    cases hdir : member.is_dir with
    | true =>
      rw [hdir, if_pos rfl, List.mem_singleton] at hflag
      rw [hflag]
      rfl
    | false =>
      rw [hdir, if_neg (by simp)] at hflag
      obtain hflag | hflag : header.getD 156 0 = 48 ∨ header.getD 156 0 = 0 := by simpa using hflag
      all_goals
        rw [hflag]
        rfl
  · rw [entry_name_eq_ok_iff, hname, hprefix_field, full_name_written]
    have hfits := member.path_fits
    refine ⟨fun hempty => name_ne_nil member (List.append_eq_nil_iff.mp hempty).1, ?_, member.safe, ?_⟩
    · rw [List.length_append, Member.path]
      cases hslash : member.trailing_slash <;> simpa [hslash] using hfits
    · cases hslash : member.trailing_slash with
      | true => exact .inr ⟨member.dir_of_slash hslash, rfl⟩
      | false => exact .inl (List.append_nil _)

theorem typeflag_of_entry_is_dir (hdir : entry_is_dir header = .ok is_dir) :
    header.getD 156 0 ∈ if is_dir then [53] else [48, 0] := by
  unfold entry_is_dir at hdir
  dsimp only at hdir
  split_ifs at hdir with hfile hflag
  · obtain rfl := Outcome.ok.inj hdir
    simpa [or_comm] using hfile
  · obtain rfl := Outcome.ok.inj hdir
    simpa using hflag

/-- A header that `entry_at` decodes is that of an entry. -/
theorem exists_member (hlength : header.length = BLOCK_SIZE)
    (hchecksum : octal (slice header 148 156) = some (checksum header)) (hmagic : slice header 257 262 = USTAR)
    (hdir : entry_is_dir header = .ok is_dir) (hname : entry_name header is_dir = .ok path)
    (hsize : octal (slice header 124 136) = some data.length) (hempty : is_dir = true → data = []) :
    ∃ member : Member, member.IsHeader header ∧ member.path = path ∧ member.is_dir = is_dir ∧ member.data = data := by
  have hflag := typeflag_of_entry_is_dir hdir
  have hsum := (octal_eq_some_iff (Nat.le_trans (slice_length_le header 148 156) (by decide))).mp hchecksum
  rw [checksum_eq hlength] at hsum
  have hsize := (octal_eq_some_iff (Nat.le_trans (slice_length_le header 124 136) (by decide))).mp hsize
  obtain ⟨hne, hfits, hsafe, hpath⟩ := entry_name_eq_ok_iff.mp hname
  have hname_fits : (field (slice header 0 100)).length ≤ 100 :=
    Nat.le_trans (List.takeWhile_sublist _).length_le (slice_length_le header 0 100)
  have hleading_fits : (field (slice header 345 500)).length ≤ 155 :=
    Nat.le_trans (List.takeWhile_sublist _).length_le (slice_length_le header 345 500)
  rw [full_name_eq_join] at hfits hpath
  obtain hpath | ⟨rfl, hpath⟩ := hpath
  · refine ⟨⟨field (slice header 345 500), field (slice header 0 100), false, is_dir, data, hpath ▸ hsafe, hname_fits,
      hleading_fits, hfits, nofun, hempty⟩, ⟨hlength, ?_, hsize, hsum, hflag, hmagic, textField_field⟩, hpath, rfl, rfl⟩
    change TextField (slice header 0 100) (field (slice header 0 100) ++ [])
    rw [List.append_nil]
    exact textField_field
  · -- the last byte of the name is the slash
    obtain ⟨name, last, hlast⟩ := List.eq_nil_or_concat (field (slice header 0 100)) |>.resolve_left hne
    rw [List.concat_eq_append] at hlast
    rw [hlast, Path.join_append] at hpath
    obtain ⟨rfl, hslash⟩ := List.append_inj' hpath rfl
    obtain rfl : last = SLASH := List.singleton_inj.mp hslash
    rw [hlast, List.length_append] at hname_fits
    rw [hlast, Path.join_append, List.length_append] at hfits
    refine ⟨⟨field (slice header 345 500), name, true, true, data, hsafe, hname_fits, hleading_fits, hfits, fun _ => rfl,
      hempty⟩, ⟨hlength, ?_, hsize, hsum, hflag, hmagic, textField_field⟩, rfl, rfl, rfl⟩
    change TextField (slice header 0 100) (name ++ [SLASH])
    rw [← hlast]
    exact textField_field

end Headers

section Archives

variable {archive : List UInt8} {members : List Member} {records : List (Nat × TarEntry)} {offset stop : Nat}

/-- The entry that `entry_at` makes of a member, if the next header is at the given offset. -/
def Member.entry (member : Member) (next_offset : Nat) : TarEntry :=
  ⟨member.path, member.data, next_offset, member.is_dir⟩

theorem header_not_zero (hmagic : slice header 257 262 = USTAR) : header.all (· == 0) = false := by
  rw [List.all_eq_false]
  have hmem : (117 : UInt8) ∈ slice header 257 262 := by
    rw [hmagic]
    decide
  exact ⟨117, List.mem_of_mem_take (List.mem_of_mem_drop hmem), by decide⟩

/-- The contents of a size that is filled up to a block boundary. -/
theorem padded_size {size padding : Nat} (hpadded : (size + padding) % BLOCK_SIZE = 0) (hpadding : padding < BLOCK_SIZE) :
    (size + (BLOCK_SIZE - 1)) / BLOCK_SIZE * BLOCK_SIZE = size + padding := by
  rw [show BLOCK_SIZE = 512 from rfl] at *
  omega

/-- A header with its contents and padding is read back as the entry. -/
theorem entry_at_member {before padding rest : List UInt8} (hheader : member.IsHeader header)
    (hpadded : (member.data.length + padding.length) % BLOCK_SIZE = 0) (hpadding : padding.length < BLOCK_SIZE)
    (hlength : (before ++ (header ++ (member.data ++ (padding ++ rest)))).length < 2 ^ 64) :
    entry_at (before ++ (header ++ (member.data ++ (padding ++ rest)))) before.length =
      .ok (some (member.entry (before ++ (header ++ (member.data ++ padding))).length)) := by
  obtain ⟨hchecksum, hsize, hdir, hname⟩ := decode_header hheader
  have hblock := hheader.length
  have htake : ((before ++ (header ++ (member.data ++ (padding ++ rest)))).drop before.length).take BLOCK_SIZE = header := by
    rw [List.drop_left, ← hblock, List.take_left]
  have hdata : ((before ++ (header ++ (member.data ++ (padding ++ rest)))).drop (before.length + BLOCK_SIZE)).take
      member.data.length = member.data := by
    rw [← hblock, ← List.drop_drop, List.drop_left, List.drop_left, List.take_left]
  have hdecode : decode_entry (before ++ (header ++ (member.data ++ (padding ++ rest)))) header (before.length + BLOCK_SIZE) =
      .ok (member.entry (before ++ (header ++ (member.data ++ padding))).length) := by
    refine decode_entry_eq_ok_iff.mpr ⟨hchecksum, hheader.magic, hdir, hname, ?_⟩
    refine entry_data_eq_ok_iff.mpr ⟨_, hsize, fun his_dir => ?_, ?_, ?_, hdata.symm, ?_, ?_⟩
    · rw [member.empty_of_dir his_dir]
      rfl
    · rw [padded_size hpadded hpadding]
      simp only [Member.entry, List.length_append, hblock]
      omega
    all_goals
      simp only [Member.entry, List.length_append, show BLOCK_SIZE = 512 from rfl] at *
      omega
  rw [entry_at_of_le (by simp only [List.length_append]; omega) hlength, htake, header_not_zero hheader.magic, hdecode]
  rfl

/-- What `entry_at` reads is a header with contents and padding. -/
theorem member_of_entry_at {entry : TarEntry} (hentry : entry_at archive offset = .ok (some entry)) :
    ∃ (member : Member) (header padding : List UInt8), member.IsHeader header ∧
      (member.data.length + padding.length) % BLOCK_SIZE = 0 ∧ padding.length < BLOCK_SIZE ∧
      entry = member.entry entry.next_offset ∧ entry.next_offset % BLOCK_SIZE = offset % BLOCK_SIZE ∧
      archive.drop offset = header ++ (member.data ++ (padding ++ archive.drop entry.next_offset)) := by
  have hblock := entry_at_ok hentry
  obtain ⟨_, hdecode⟩ := decode_entry_of_entry_at hentry
  obtain ⟨hchecksum, hmagic, hdir, hname, hdata⟩ := decode_entry_eq_ok_iff.mp hdecode
  obtain ⟨size, hsize, hempty, hnext, hfits, hdata, _⟩ := entry_data_eq_ok_iff.mp hdata
  have hlength : ((archive.drop offset).take BLOCK_SIZE).length = BLOCK_SIZE := by
    rw [List.length_take, List.length_drop]
    omega
  obtain ⟨padding, hpadding, hrounded⟩ : ∃ padding < BLOCK_SIZE,
      (size + (BLOCK_SIZE - 1)) / BLOCK_SIZE * BLOCK_SIZE = size + padding := by
    refine ⟨(size + (BLOCK_SIZE - 1)) / BLOCK_SIZE * BLOCK_SIZE - size, ?_⟩
    rw [show BLOCK_SIZE = 512 from rfl]
    omega
  have haligned : (size + padding) % BLOCK_SIZE = 0 := by
    rw [← hrounded, Nat.mul_mod_left]
  rw [hrounded] at hnext
  have hcontents : entry.data.length = size := by
    rw [hdata, List.length_take, List.length_drop]
    omega
  obtain ⟨member, hheader, hpath, hmember_dir, hmember_data⟩ := exists_member hlength hchecksum hmagic hdir hname
    (hcontents.symm ▸ hsize) fun his_dir => List.eq_nil_of_length_eq_zero (hcontents.trans (hempty his_dir))
  have hfilled : ((archive.drop (offset + BLOCK_SIZE + size)).take padding).length = padding := by
    rw [List.length_take, List.length_drop]
    omega
  refine ⟨member, _, (archive.drop (offset + BLOCK_SIZE + size)).take padding, hheader, ?_, ?_, ?_, ?_, ?_⟩
  · rw [hmember_data, hcontents, hfilled, haligned]
  · rwa [hfilled]
  · rw [Member.entry, hpath, hmember_dir, hmember_data]
  · rw [hnext, Nat.add_mod, haligned, Nat.add_zero, Nat.mod_mod, Nat.add_mod_right]
  · have hrest : archive.drop entry.next_offset = (archive.drop (offset + BLOCK_SIZE + size)).drop padding := by
      rw [List.drop_drop, hnext, ← Nat.add_assoc]
    have hafter : archive.drop (offset + BLOCK_SIZE + size) = (archive.drop (offset + BLOCK_SIZE)).drop size := by
      rw [List.drop_drop]
    have hheader_end : archive.drop (offset + BLOCK_SIZE) = (archive.drop offset).drop BLOCK_SIZE := by
      rw [List.drop_drop]
    rw [hmember_data, hrest, List.take_append_drop, hdata, hafter, List.take_append_drop, hheader_end,
      List.take_append_drop]

/-- What two entries at different places of an archive have in common. -/
def contents (entry : TarEntry) : List UInt8 × List UInt8 × Bool := (entry.name, entry.data, entry.is_dir)

def Member.contents (member : Member) : List UInt8 × List UInt8 × Bool := (member.path, member.data, member.is_dir)

/-- The entries of an archive are those it encodes. -/
theorem chain_of_encodes {bytes : List UInt8} (hencodes : Encodes members bytes) (before : List UInt8)
    (hlength : (before ++ bytes).length < 2 ^ 64) :
    ∃ records stop, Scan.Chain (entry_at (before ++ bytes)) TarEntry.next_offset before.length records stop ∧
      entry_at (before ++ bytes) stop = .ok none ∧ (∀ byte ∈ (before ++ bytes).drop stop, byte = 0) ∧
      records.map (fun record => contents record.2) = members.map Member.contents := by
  induction hencodes generalizing before with
  | @stop blocks hblocks =>
    refine ⟨[], before.length, .nil _, ?_, ?_, rfl⟩
    · have hblock : BLOCK_SIZE ≤ blocks * BLOCK_SIZE := Nat.le_mul_of_pos_left _ hblocks
      have hzero : ((List.replicate (blocks * BLOCK_SIZE) (0 : UInt8)).take BLOCK_SIZE).all (· == 0) = true := by
        rw [List.take_replicate, List.all_replicate]
        simp
      rw [entry_at_of_le (by simpa using hblock) hlength, List.drop_left, if_pos hzero]
    · rw [List.drop_left]
      exact fun byte hbyte => List.eq_of_mem_replicate hbyte
  | @member member members header padding rest hheader hpadded hpadding hrest ih =>
    have hentry := entry_at_member hheader hpadded hpadding hlength
    have hassoc : before ++ (header ++ (member.data ++ (padding ++ rest))) =
        (before ++ (header ++ (member.data ++ padding))) ++ rest := by simp
    rw [hassoc] at hlength hentry ⊢
    obtain ⟨records, stop, hchain, hends, hzeros, hsame⟩ := ih _ hlength
    exact ⟨_ :: records, stop, .cons hentry hchain, hends, hzeros, by rw [List.map_cons, List.map_cons, hsame]; rfl⟩

/-- An archive that was read to its end encodes the entries that were read. -/
theorem encodes_of_chain (hchain : Scan.Chain (entry_at archive) TarEntry.next_offset offset records stop)
    (hends : entry_at archive stop = .ok none) (hzeros : ∀ byte ∈ archive.drop stop, byte = 0)
    (hblocks : archive.length % BLOCK_SIZE = 0) (haligned : offset % BLOCK_SIZE = 0) :
    ∃ members, Encodes members (archive.drop offset) ∧
      records.map (fun record => contents record.2) = members.map Member.contents := by
  induction hchain with
  | nil offset =>
    have hblock := entry_at_ok hends
    obtain ⟨blocks, hcount⟩ : ∃ blocks, (archive.drop offset).length = blocks * BLOCK_SIZE := by
      rw [List.length_drop]
      exact ⟨(archive.length - offset) / BLOCK_SIZE, (Nat.div_mul_cancel (Nat.dvd_of_mod_eq_zero (by
        rw [show BLOCK_SIZE = 512 from rfl] at *
        omega))).symm⟩
    have hpositive : 0 < blocks := by
      refine Nat.pos_of_ne_zero fun hzero => ?_
      rw [hzero, Nat.zero_mul, List.length_drop] at hcount
      have hsize : BLOCK_SIZE = 512 := rfl
      omega
    refine ⟨[], ?_, rfl⟩
    rw [List.eq_replicate_of_mem hzeros, hcount]
    exact .stop hpositive
  | @cons offset stop entry records hread hrest ih =>
    obtain ⟨member, header, padding, hheader, hpadded, hpadding, hentry, hnext, hdrop⟩ := member_of_entry_at hread
    obtain ⟨members, hencodes, hsame⟩ := ih hends hzeros (hnext.trans haligned)
    refine ⟨member :: members, hdrop ▸ .member hheader hpadded hpadding hencodes, ?_⟩
    rw [List.map_cons, List.map_cons, hsame, hentry]
    rfl

/-- Entries that may stand in one archive, by what they contain. -/
def Compatible (first second : List UInt8 × List UInt8 × Bool) : Prop :=
  first.1 ≠ second.1 ∧ (Below SLASH first.1 second.1 → first.2.2 = true) ∧ (Below SLASH second.1 first.1 → second.2.2 = true)

theorem compatible_records_iff :
    (records.Pairwise fun previous entry => conflicts previous.2 entry.2 = false) ↔
      (records.map fun record => contents record.2).Pairwise Compatible := by
  rw [List.pairwise_map]
  exact List.Pairwise.iff fun _ _ => conflicts_eq_false_iff

/-- A list of entries is fit for an archive when it is short enough and no two entries conflict. -/
theorem archivable_iff :
    Archivable members ↔ members.length ≤ MAX_FILES ∧ (members.map Member.contents).Pairwise Compatible := by
  rw [List.pairwise_map]
  constructor
  · intro harchivable
    refine ⟨harchivable.count, ?_⟩
    refine (List.pairwise_map.mp harchivable.distinct).imp_of_mem fun hfirst hsecond hne => ⟨hne, ?_, ?_⟩
    · exact harchivable.parents _ hfirst _ hsecond
    · exact harchivable.parents _ hsecond _ hfirst
  · rintro ⟨hcount, hpairwise⟩
    refine ⟨hcount, List.pairwise_map.mpr (hpairwise.imp And.left), fun member hmember other hother hbelow => ?_⟩
    have : Std.Symm fun first second : Member => Compatible first.contents second.contents :=
      ⟨fun _ _ hcompatible => ⟨hcompatible.1.symm, hcompatible.2.2, hcompatible.2.1⟩⟩
    have hne : member ≠ other := by
      rintro rfl
      exact hbelow.ne rfl
    exact (hpairwise.forall hmember hother hne).2.1 hbelow

/-- The archives that `validate` accepts are those that encode a fit list of entries, and it finds
these entries. -/
theorem catalogue_of_encodes (harchivable : Archivable members) (hencodes : Encodes members archive)
    (hsize : archive.length ≤ MAX_ARCHIVE_SIZE) (hblocks : archive.length % BLOCK_SIZE = 0) :
    ∃ records stop, Catalogue archive records stop ∧
      records.map (fun record => contents record.2) = members.map Member.contents := by
  have hbound : archive.length < 2 ^ 64 := Nat.lt_of_le_of_lt hsize (by decide)
  obtain ⟨records, stop, hchain, hends, hzeros, hsame⟩ := chain_of_encodes hencodes [] hbound
  obtain ⟨hcount, hpairwise⟩ := archivable_iff.mp harchivable
  refine ⟨records, stop, ⟨hsize, hblocks, hchain, hends, ?_, ?_, hzeros⟩, hsame⟩
  · have hlength := congrArg List.length hsame
    rw [List.length_map, List.length_map] at hlength
    omega
  · rw [compatible_records_iff, hsame]
    exact hpairwise

theorem encodes_of_catalogue (hcatalogue : Catalogue archive records stop) :
    ∃ members, Archivable members ∧ Encodes members archive := by
  obtain ⟨members, hencodes, hsame⟩ := encodes_of_chain hcatalogue.chain hcatalogue.ends hcatalogue.zeros hcatalogue.blocks
    (Nat.zero_mod _)
  refine ⟨members, archivable_iff.mpr ⟨?_, ?_⟩, hencodes⟩
  · have hlength := congrArg List.length hsame
    rw [List.length_map, List.length_map] at hlength
    have hcount := hcatalogue.count
    omega
  · rw [← hsame]
    exact compatible_records_iff.mp hcatalogue.compatible

theorem encodes_length (hencodes : Encodes members archive) : archive.length % BLOCK_SIZE = 0 := by
  induction hencodes with
  | stop hblocks => rw [List.length_replicate, Nat.mul_mod_left]
  | member hheader hpadded hpadding hrest ih =>
    simp only [List.length_append, hheader.length]
    rw [show BLOCK_SIZE = 512 from rfl] at *
    omega

theorem isFile_iff (hsame : records.map (fun record => contents record.2) = members.map Member.contents) :
    IsFile records path data ↔ ∃ member ∈ members, member.path = path ∧ member.is_dir = false ∧ member.data = data := by
  have hrecords : IsFile records path data ↔ (path, data, false) ∈ records.map fun record => contents record.2 := by
    simp only [IsFile, List.mem_map, contents, Prod.mk.injEq]
    exact exists_congr fun record => and_congr_right fun _ => and_congr_right fun _ => and_comm
  rw [hrecords, hsame]
  simp only [List.mem_map, Member.contents, Prod.mk.injEq]
  exact exists_congr fun member => and_congr_right fun _ => and_congr_right fun _ => and_comm

end Archives

/-- USTAR decoding undoes encoding. An archive of a fit list of entries, if it is not too large, is
accepted, and `read_file` returns the contents of each file and nothing for any other safe path.
Conversely `validate` returns for all bytes, and accepts only the archives of such lists. -/
theorem ustar_decoding_undoes_encoding :
    (∀ members archive, Archivable members → Encodes members archive → archive.length ≤ MAX_ARCHIVE_SIZE →
      validate archive = .ok () ∧
      (∀ member ∈ members, member.is_dir = false → read_file (some (.ok archive)) member.path = .ok (some member.data)) ∧
      ∀ path, safe_path path false = true → (∀ member ∈ members, member.is_dir = false → member.path ≠ path) →
        read_file (some (.ok archive)) path = .ok none) ∧
    ∀ archive, validate archive ≠ .panic ∧
      (validate archive = .ok () → archive.length ≤ MAX_ARCHIVE_SIZE ∧
        ∃ members, Archivable members ∧ Encodes members archive) := by
  refine ⟨fun members archive harchivable hencodes hsize => ?_, fun archive => ⟨validate_ne_panic archive, fun hvalid => ?_⟩⟩
  · obtain ⟨records, stop, hcatalogue, hsame⟩ :=
      catalogue_of_encodes harchivable hencodes hsize (encodes_length hencodes)
    refine ⟨validate_eq_ok_iff.mpr ⟨records, stop, hcatalogue⟩, fun member hmember hfile => ?_, fun path _ hother => ?_⟩
    · exact hcatalogue.read_file_eq_ok_some_iff.mpr ((isFile_iff hsame).mpr ⟨member, hmember, rfl, hfile, rfl⟩)
    · obtain ⟨found, hfound⟩ := hcatalogue.read_file_returns path
      cases found with
      | none => exact hfound
      | some data =>
        obtain ⟨member, hmember, hpath, hfile, _⟩ := (isFile_iff hsame).mp (hcatalogue.read_file_eq_ok_some_iff.mp hfound)
        exact absurd hpath (hother member hmember hfile)
  · obtain ⟨records, stop, hcatalogue⟩ := validate_eq_ok_iff.mp hvalid
    exact ⟨hcatalogue.size, encodes_of_catalogue hcatalogue⟩

theorem sample_archivable : Archivable sample_members := by
  refine ⟨by decide, by decide, fun member hmember other hother hbelow => ?_⟩
  obtain rfl | rfl : member = _ ∨ member = _ := by simpa [sample_members] using hmember
  · rfl
  · -- the path of the file is the longest
    have hlonger := hbelow.length_lt
    obtain rfl | rfl : other = _ ∨ other = _ := by simpa [sample_members] using hother
    all_goals exact absurd hlonger (by decide)

/-- The fields of a header, as they are read back. -/
theorem isHeader_of_fields (hlength : header.length = BLOCK_SIZE)
    (hname : field (slice header 0 100) = member.written_name) (hsize : octal (slice header 124 136) = some member.data.length)
    (hchecksum : octal (slice header 148 156) = some (header_sum header))
    (htypeflag : header.getD 156 0 ∈ if member.is_dir then [53] else [48, 0]) (hmagic : slice header 257 262 = USTAR)
    (hleading : field (slice header 345 500) = member.leading) : member.IsHeader header where
  length := hlength
  name := hname ▸ textField_field
  size := (octal_eq_some_iff (Nat.le_trans (slice_length_le ..) (by decide))).mp hsize
  checksum := (octal_eq_some_iff (Nat.le_trans (slice_length_le ..) (by decide))).mp hchecksum
  typeflag := htypeflag
  magic := hmagic
  leading := hleading ▸ textField_field

theorem sample_encodes : Encodes sample_members (encode sample_members) := by
  refine .member (isHeader_of_fields ?_ ?_ ?_ ?_ ?_ ?_ ?_) ?_ ?_ (.member (isHeader_of_fields ?_ ?_ ?_ ?_ ?_ ?_ ?_) ?_ ?_
    (.stop (show 0 < 2 from ?_)))
  all_goals decide +kernel

/-- The writer's archive of a directory and a file in it. -/
theorem ustar_decoding_undoes_encoding_sample : validate (encode sample_members) = .ok () :=
  (ustar_decoding_undoes_encoding.1 sample_members (encode sample_members) sample_archivable
    sample_encodes (by decide +kernel)).1

end leafos.fs.ustar
