import LeafOS.Fs.Initrd.Catalogue
import LeafOS.Fs.Initrd.Ustar
import LeafOS.Support.Assoc
import Mathlib.Data.List.Pairwise

namespace leafos.fs

open FsError
open Outcome (refuse okOr)
open Path (Below join)

variable {directory : List UInt8} {entry : TarEntry} {size : Nat}

theorem is_parent_iff {parent name : List UInt8} : is_parent parent name = true ↔ Below SLASH parent name :=
  Path.isPrefixOf_and_head?_iff

/-- Two entries do not conflict when their paths differ, and a path with another below it is
that of a directory. -/
theorem conflicts_eq_false_iff {previous : TarEntry} : conflicts previous entry = false ↔
    previous.name ≠ entry.name ∧ (Below SLASH previous.name entry.name → previous.is_dir = true) ∧
      (Below SLASH entry.name previous.name → entry.is_dir = true) := by
  simp only [conflicts, Bool.or_eq_false_iff, Bool.and_eq_false_imp, beq_eq_false_iff_ne, is_parent_iff, and_assoc,
    Bool.not_eq_false']

/-- A directory of the archive: the root, an entry, or a path that an entry lies below. -/
def IsDirectory (records : List (Nat × TarEntry)) (path : List UInt8) : Prop :=
  path = [] ∨ ∃ record ∈ records, record.2.name = path ∧ record.2.is_dir = true ∨ Below SLASH path record.2.name

/-- A file of the archive, and its contents. -/
def IsFile (records : List (Nat × TarEntry)) (path data : List UInt8) : Prop :=
  ∃ record ∈ records, record.2.name = path ∧ record.2.is_dir = false ∧ record.2.data = data

theorem relative_name_eq_some {name relative : List UInt8}
    (hrelative : relative_name name directory = some relative) : name = join SLASH directory relative := by
  by_cases hroot : directory = []
  · rw [relative_name, if_pos (by simpa using hroot)] at hrelative
    rw [hroot, Path.join_nil, Option.some.inj hrelative]
  · rw [relative_name, if_neg (by simpa using hroot)] at hrelative
    simp only [Option.ite_none_left_eq_some, not_or, Nat.not_le, Bool.not_eq_true', Bool.not_eq_false, not_not] at hrelative
    obtain ⟨⟨hlength, hstarts, hslash⟩, hrest⟩ := hrelative
    obtain ⟨rest, rfl⟩ : Below SLASH directory name :=
      Path.prefix_and_getD_iff.mp ⟨Nat.lt_of_succ_lt hlength, hstarts, hslash⟩
    rw [Path.join_of_ne_nil hroot, ← Option.some.inj hrest]
    simp [← List.drop_drop]

theorem relative_name_join {relative : List UInt8} (hrelative : relative ≠ []) :
    relative_name (join SLASH directory relative) directory = some relative := by
  by_cases hroot : directory = []
  · rw [hroot, Path.join_nil]
    rfl
  · obtain ⟨hlength, hstarts, hslash⟩ : directory.length < (join SLASH directory relative).length ∧
        directory.isPrefixOf (join SLASH directory relative) = true ∧
        (join SLASH directory relative).getD directory.length 0 = SLASH :=
      Path.prefix_and_getD_iff.mpr ⟨relative, Path.join_of_ne_nil hroot relative⟩
    have hrest : 0 < relative.length := List.length_pos_iff.mpr hrelative
    have hjoined : (join SLASH directory relative).length = directory.length + (relative.length + 1) := by
      rw [Path.join_of_ne_nil hroot, List.length_append, List.length_cons]
    rw [relative_name, if_neg (by simpa using hroot)]
    dsimp only
    rw [if_neg (by rw [hstarts, hslash, hjoined]; simp; omega), Path.join_of_ne_nil hroot]
    simp [← List.drop_drop]

/-- What an entry says about the child of a directory. -/
theorem child_entry_eq_some {child : List UInt8} {is_dir : Bool}
    (hchild : child ≠ []) : child_entry entry directory = some (child, is_dir, size) ↔
      SLASH ∉ child ∧ size = (if is_dir then 0 else entry.data.length) ∧
        (entry.name = join SLASH directory child ∧ is_dir = entry.is_dir ∨
          Below SLASH (join SLASH directory child) entry.name ∧ is_dir = true) := by
  simp only [child_entry, Option.bind_eq_bind, Option.bind_eq_some_iff, Option.pure_def, Option.some.injEq, Prod.mk.injEq]
  constructor
  · rintro ⟨relative, hrelative, hfirst, rfl, rfl⟩
    have hname := relative_name_eq_some hrelative
    obtain ⟨hslash, rfl | hbelow⟩ := Path.takeWhile_ne_eq_iff.mp hfirst
    · rw [hfirst]
      exact ⟨hslash, by simp, .inl ⟨hname, by simp⟩⟩
    · rw [hfirst]
      have hlonger := hbelow.length_lt
      exact ⟨hslash, by simp [hlonger], .inr ⟨Path.below_join_iff.mpr ⟨relative, hname, hbelow⟩, by simp [hlonger]⟩⟩
  · rintro ⟨hslash, rfl, ⟨hname, rfl⟩ | ⟨hbelow, rfl⟩⟩
    · have hfirst := Path.takeWhile_ne_eq_iff.mpr ⟨hslash, .inl rfl⟩
      exact ⟨child, hname ▸ relative_name_join hchild, hfirst, by simp [hfirst], by simp [hfirst]⟩
    · obtain ⟨relative, hname, hbelow⟩ := Path.below_join_iff.mp hbelow
      have hfirst := Path.takeWhile_ne_eq_iff.mpr ⟨hslash, .inr hbelow⟩
      have hlonger := hbelow.length_lt
      have hrelative : relative ≠ [] := List.ne_nil_of_length_pos (Nat.zero_lt_of_lt hlonger)
      exact ⟨relative, hname ▸ relative_name_join hrelative, hfirst, by simp [hfirst, hlonger], by simp [hfirst, hlonger]⟩

section Children

variable {records : List (Nat × TarEntry)} {child : List UInt8} (hchild : child ≠ []) (hslash : SLASH ∉ child)
include hchild hslash

/-- The children that entries name as directories. -/
theorem child_entry_directory_iff :
    (∃ size, ∃ record ∈ records, child_entry record.2 directory = some (child, true, size)) ↔
      IsDirectory records (join SLASH directory child) := by
  simp only [child_entry_eq_some hchild, IsDirectory, Path.join_ne_nil hchild, false_or]
  constructor
  · rintro ⟨_, record, hrecord, _, _, ⟨hname, hdir⟩ | ⟨hbelow, _⟩⟩
    · exact ⟨record, hrecord, .inl ⟨hname, hdir.symm⟩⟩
    · exact ⟨record, hrecord, .inr hbelow⟩
  · rintro ⟨record, hrecord, ⟨hname, hdir⟩ | hbelow⟩
    · exact ⟨0, record, hrecord, hslash, rfl, .inl ⟨hname, hdir.symm⟩⟩
    · exact ⟨0, record, hrecord, hslash, rfl, .inr ⟨hbelow, trivial⟩⟩

/-- The children that entries name as files. -/
theorem child_entry_file_iff :
    (∃ record ∈ records, child_entry record.2 directory = some (child, false, size)) ↔
      ∃ data, IsFile records (join SLASH directory child) data ∧ data.length = size := by
  simp only [child_entry_eq_some hchild, IsFile]
  constructor
  · rintro ⟨record, hrecord, _, rfl, ⟨hname, hdir⟩ | ⟨_, hdir⟩⟩
    · exact ⟨record.2.data, ⟨record, hrecord, hname, hdir.symm, rfl⟩, rfl⟩
    · cases hdir
  · rintro ⟨_, ⟨record, hrecord, hname, hdir, rfl⟩, rfl⟩
    exact ⟨record, hrecord, hslash, rfl, .inl ⟨hname, hdir.symm⟩⟩

end Children

theorem directory_exists_refused (bytes : List UInt8) {path : List UInt8} (hrefused : safe_path path true = false) :
    directory_exists (some (.ok bytes)) path = .ok false := by
  rw [directory_exists, hrefused]
  rfl

theorem archive_mounted (bytes : List UInt8) : archive (some (.ok bytes)) = .ok bytes := rfl

/-- The name of a child is part of the path of the entry. -/
theorem child_entry_ascii {visit : List UInt8 × Bool × Nat} (hsafe : safe_path entry.name false = true)
    (hvisit : child_entry entry directory = some visit) : from_utf8 visit.1 = some visit.1 := by
  simp only [child_entry, Option.bind_eq_bind, Option.bind_eq_some_iff, Option.pure_def, Option.some.injEq] at hvisit
  obtain ⟨relative, hrelative, rfl⟩ := hvisit
  refine if_pos (Bytes.validateUTF8_of_ascii fun byte hbyte => (safe_path_ascii hsafe byte ?_).2)
  have hmem : byte ∈ relative := (List.takeWhile_sublist _).subset hbyte
  rw [relative_name_eq_some hrelative]
  by_cases hroot : directory = []
  · rwa [hroot, Path.join_nil]
  · rw [Path.join_of_ne_nil hroot]
    exact List.mem_append_right _ (List.mem_cons_of_mem _ hmem)

/-- The visits made for the entries before an offset: one for each child they name. -/
structure Visited (directory : List UInt8) (records : List (Nat × TarEntry)) (visits : List (List UInt8 × Bool × Nat)) :
    Prop where
  nodup : (visits.map Prod.fst).Nodup
  sound : ∀ visit ∈ visits, ∃ record ∈ records, child_entry record.2 directory = some visit
  complete : ∀ record ∈ records, ∀ visit, child_entry record.2 directory = some visit →
    visit.1 ∈ visits.map Prod.fst

namespace Visited

variable {done : List (Nat × TarEntry)} {record : Nat × TarEntry} {visits : List (List UInt8 × Bool × Nat)}

/-- The child, if the entry names one, has been visited. -/
theorem skip (hvisited : Visited directory done visits)
    (hseen : ∀ visit, child_entry record.2 directory = some visit → visit.1 ∈ visits.map Prod.fst) :
    Visited directory (done ++ [record]) visits := by
  refine ⟨hvisited.nodup, fun visit hvisit => ?_, fun other hother visit hvisit => ?_⟩
  · obtain ⟨other, hother, hnamed⟩ := hvisited.sound visit hvisit
    exact ⟨other, List.mem_append_left _ hother, hnamed⟩
  · obtain hother | hlast := List.mem_append.mp hother
    · exact hvisited.complete other hother visit hvisit
    · rw [List.mem_singleton.mp hlast] at hvisit
      exact hseen visit hvisit

/-- The child has not been visited, and now is. -/
theorem visit (hvisited : Visited directory done visits) {visit : List UInt8 × Bool × Nat}
    (hnamed : child_entry record.2 directory = some visit) (hunseen : visit.1 ∉ visits.map Prod.fst) :
    Visited directory (done ++ [record]) (visits ++ [visit]) := by
  refine ⟨?_, fun other hother => ?_, fun other hother result hresult => ?_⟩
  · rw [List.map_append, List.nodup_append]
    refine ⟨hvisited.nodup, List.nodup_singleton _, fun name hname other hother => ?_⟩
    rw [List.map_singleton, List.mem_singleton] at hother
    exact fun hsame => hunseen (hother ▸ hsame ▸ hname)
  · obtain hother | hlast := List.mem_append.mp hother
    · obtain ⟨earlier, hearlier, hsame⟩ := hvisited.sound other hother
      exact ⟨earlier, List.mem_append_left _ hearlier, hsame⟩
    · rw [List.mem_singleton.mp hlast]
      exact ⟨record, List.mem_append_right _ (List.mem_singleton_self _), hnamed⟩
  · rw [List.map_append]
    obtain hother | hlast := List.mem_append.mp hother
    · exact List.mem_append_left _ (hvisited.complete other hother result hresult)
    · rw [List.mem_singleton.mp hlast, hnamed, Option.some.injEq] at hresult
      rw [← hresult]
      exact List.mem_append_right _ (List.mem_singleton_self _)

end Visited

/-- A turn of `for_each_entry` visits the child unless an entry before has named it. -/
theorem visit_entry_visited {bytes : List UInt8} {done : List (Nat × TarEntry)} {offset : Nat}
    {visits : List (List UInt8 × Bool × Nat)} (hchain : Scan.Chain (entry_at bytes) TarEntry.next_offset 0 done offset)
    (hentry : entry_at bytes offset = .ok (some entry)) (hvisited : Visited directory done visits) :
    ∃ visits', visit_entry bytes directory offset entry visits = .ok (.next visits') ∧
      Visited directory (done ++ [(offset, entry)]) visits' := by
  rw [visit_entry]
  cases hchild : child_entry entry directory with
  | none => exact ⟨visits, rfl, hvisited.skip fun visit hvisit => by rw [hchild] at hvisit; cases hvisit⟩
  | some visit =>
    obtain ⟨child, is_dir, size⟩ := visit
    dsimp only
    rw [find_previous_eq hchain hentry, Outcome.ok_bind]
    split_ifs with hseen
    · refine ⟨visits, rfl, hvisited.skip fun visit hvisit => ?_⟩
      obtain ⟨_, hfound⟩ := Option.isSome_iff_exists.mp hseen
      obtain ⟨previous, hprevious, htest⟩ := List.exists_of_findSome?_eq_some hfound
      rw [Option.ite_none_right_eq_some, Option.any_eq_true] at htest
      obtain ⟨⟨earlier, hearlier, hsame⟩, _⟩ := htest
      rw [hchild, Option.some.injEq] at hvisit
      rw [← hvisit, ← beq_iff_eq.mp hsame]
      exact hvisited.complete previous hprevious earlier hearlier
    · have hunseen : child ∉ visits.map Prod.fst := by
        intro hmem
        obtain ⟨visit, hvisit, rfl⟩ := List.mem_map.mp hmem
        obtain ⟨previous, hprevious, hnamed⟩ := hvisited.sound visit hvisit
        have htest := List.findSome?_eq_none_iff.mp (Option.not_isSome_iff_eq_none.mp hseen) previous hprevious
        rw [hnamed] at htest
        simp at htest
      have hname : from_utf8 child = some child := child_entry_ascii (entry_at_some hentry).1 hchild
      rw [hname]
      exact ⟨_, rfl, hvisited.visit hchild hunseen⟩

namespace Catalogue

variable {bytes : List UInt8} {records : List (Nat × TarEntry)} {stop : Nat}

section
variable (hcatalogue : Catalogue bytes records stop) {record other : Nat × TarEntry} {path data : List UInt8}

include hcatalogue

theorem safe (hrecord : record ∈ records) : safe_path record.2.name false = true :=
  (entry_at_some (hcatalogue.chain.read_of_mem hrecord)).1

section Pairs

variable (hrecord : record ∈ records) (hother : other ∈ records)
include hrecord hother

/-- Two different entries of an archive do not conflict, whichever comes first. -/
theorem agree (hne : record ≠ other) : conflicts record.2 other.2 = false := by
  have : Std.Symm fun previous entry : Nat × TarEntry => conflicts previous.2 entry.2 = false :=
    ⟨fun previous entry hagree => by
      obtain ⟨hname, hbelow, habove⟩ := conflicts_eq_false_iff.mp hagree
      exact conflicts_eq_false_iff.mpr ⟨hname.symm, habove, hbelow⟩⟩
  exact hcatalogue.compatible.forall hrecord hother hne

theorem unique (hname : record.2.name = other.2.name) : record = other := by
  by_contra hne
  exact (conflicts_eq_false_iff.mp (hcatalogue.agree hrecord hother hne)).1 hname

theorem is_dir_of_below (hbelow : Below SLASH record.2.name other.2.name) : record.2.is_dir = true := by
  have hne : record ≠ other := by
    rintro rfl
    exact hbelow.ne rfl
  exact (conflicts_eq_false_iff.mp (hcatalogue.agree hrecord hother hne)).2.1 hbelow

end Pairs

theorem not_directory_of_file (hfile : IsFile records path data) : ¬ IsDirectory records path := by
  obtain ⟨record, hrecord, rfl, hdir, _⟩ := hfile
  rintro (hroot | ⟨other, hother, ⟨hname, hother_dir⟩ | hbelow⟩)
  · exact safe_path_ne_nil (hcatalogue.safe hrecord) hroot
  · rw [hcatalogue.unique hother hrecord hname, hdir] at hother_dir
    cases hother_dir
  · rw [hcatalogue.is_dir_of_below hrecord hother hbelow] at hdir
    cases hdir

theorem find_entry_eq {ρ : Type} (test : TarEntry → Option ρ) :
    find_entry bytes test = .ok (records.findSome? fun record => test record.2) :=
  Scan.find_eq_findSome? hcatalogue.chain hcatalogue.ends (chain_length_le hcatalogue.chain hcatalogue.ends)

theorem read_file_eq (hsafe : safe_path path false = true) :
    read_file (some (.ok bytes)) path = .ok (records.findSome? fun record =>
      if !record.2.is_dir && record.2.name == path then some record.2.data else none) := by
  rw [read_file, hsafe]
  exact hcatalogue.find_entry_eq _

/-- `read_file` finds exactly the files. -/
theorem read_file_eq_ok_some_iff : read_file (some (.ok bytes)) path = .ok (some data) ↔ IsFile records path data := by
  constructor
  · intro hread
    by_cases hsafe : safe_path path false = true
    · rw [hcatalogue.read_file_eq hsafe] at hread
      obtain ⟨record, hrecord, htest⟩ := List.exists_of_findSome?_eq_some (Outcome.ok.inj hread)
      rw [Option.ite_none_right_eq_some, Bool.and_eq_true, Bool.not_eq_true', beq_iff_eq] at htest
      exact ⟨record, hrecord, htest.1.2, htest.1.1, Option.some.inj htest.2⟩
    · rw [read_file, if_pos (by simpa using hsafe)] at hread
      cases hread
  · rintro ⟨record, hrecord, rfl, hdir, rfl⟩
    rw [hcatalogue.read_file_eq (hcatalogue.safe hrecord)]
    refine congrArg _ (List.findSome?_of_unique hrecord (by simp [hdir]) fun other hother result htest => ?_)
    rw [Option.ite_none_right_eq_some, Bool.and_eq_true, beq_iff_eq] at htest
    rw [← Option.some.inj htest.2, hcatalogue.unique hother hrecord htest.1.2]

theorem read_file_returns (path : List UInt8) : ∃ found, read_file (some (.ok bytes)) path = .ok found := by
  cases hsafe : safe_path path false with
  | true => exact ⟨_, hcatalogue.read_file_eq hsafe⟩
  | false =>
    rw [read_file, hsafe]
    exact ⟨none, rfl⟩

/-- Every entry that the loop of `directory_exists` stops at gives the same answer. -/
theorem directory_answer_iff (hrecord : record ∈ records) {answer : Bool}
    (hanswer : directory_answer path record.2 = some answer) : answer = true ↔ IsDirectory records path := by
  by_cases hname : record.2.name = path
  · rw [directory_answer, if_pos hname, Option.some.injEq] at hanswer
    subst hanswer
    constructor
    · exact fun hdir => .inr ⟨record, hrecord, .inl ⟨hname, hdir⟩⟩
    · intro hdirectory
      by_contra hfile
      exact hcatalogue.not_directory_of_file ⟨record, hrecord, hname, Bool.eq_false_iff.mpr hfile, rfl⟩ hdirectory
  · rw [directory_answer, if_neg hname, Option.ite_none_right_eq_some, Path.prefix_and_getD_iff] at hanswer
    exact iff_of_true (Option.some.inj hanswer.2).symm (.inr ⟨record, hrecord, .inr hanswer.1⟩)

/-- `directory_exists` answers for every safe path, and truly. -/
theorem directory_exists_eq (hsafe : safe_path path true = true) :
    ∃ answer, directory_exists (some (.ok bytes)) path = .ok answer ∧ (answer = true ↔ IsDirectory records path) := by
  by_cases hroot : path = []
  · subst hroot
    exact ⟨true, rfl, iff_of_true rfl (.inl rfl)⟩
  · refine ⟨(records.findSome? fun record => directory_answer path record.2).getD false, ?_, ?_⟩
    · rw [directory_exists, archive_mounted, Outcome.ok_bind, hsafe, if_neg (by simp), if_neg (by simpa using hroot),
        hcatalogue.find_entry_eq]
      rfl
    · cases hfound : records.findSome? fun record => directory_answer path record.2 with
      | some answer =>
        obtain ⟨record, hrecord, hanswer⟩ := List.exists_of_findSome?_eq_some hfound
        exact hcatalogue.directory_answer_iff hrecord hanswer
      | none =>
        refine iff_of_false (by simp) ?_
        rintro (hempty | ⟨record, hrecord, hdirectory⟩)
        · exact hroot hempty
        · have hnone := List.findSome?_eq_none_iff.mp hfound record hrecord
          by_cases hname : record.2.name = path
          · rw [directory_answer, if_pos hname] at hnone
            cases hnone
          · rw [directory_answer, if_neg hname, if_pos] at hnone
            · cases hnone
            · exact Path.prefix_and_getD_iff.mpr (hdirectory.resolve_left fun hsame => hname hsame.1)

/-- Two entries that name the same child of a directory say the same about it. -/
theorem child_entry_unique (hrecord : record ∈ records) (hother : other ∈ records)
    {visit result : List UInt8 × Bool × Nat} (hvisit : child_entry record.2 directory = some visit)
    (hresult : child_entry other.2 directory = some result) (hname : visit.1 = result.1) (hchild : visit.1 ≠ []) :
    visit = result := by
  obtain ⟨child, is_dir, size⟩ := visit
  obtain ⟨_, is_dir', size'⟩ := result
  obtain rfl : child = _ := hname
  obtain ⟨_, rfl, hthere⟩ := (child_entry_eq_some hchild).mp hvisit
  obtain ⟨_, rfl, hthere'⟩ := (child_entry_eq_some hchild).mp hresult
  obtain ⟨hsame, rfl⟩ | ⟨hbelow, rfl⟩ := hthere
  · obtain ⟨hsame', rfl⟩ | ⟨hbelow', rfl⟩ := hthere'
    · rw [hcatalogue.unique hrecord hother (hsame.trans hsame'.symm)]
    · rw [hcatalogue.is_dir_of_below hrecord hother (hsame ▸ hbelow')]
      rfl
  · obtain ⟨hsame', rfl⟩ | ⟨hbelow', rfl⟩ := hthere'
    · rw [hcatalogue.is_dir_of_below hother hrecord (hsame' ▸ hbelow)]
      rfl
    · rfl

/-- `for_each_entry` visits what the entries say about the children of the directory. -/
theorem for_each_entry_eq (hsafe : safe_path directory true = true) :
    ∃ visits, for_each_entry (some (.ok bytes)) directory = .ok visits ∧ (visits.map Prod.fst).Nodup ∧
      ∀ visit, visit.1 ≠ [] →
        (visit ∈ visits ↔ ∃ record ∈ records, child_entry record.2 directory = some visit) := by
  obtain ⟨answer, hanswer, hdirectory⟩ := hcatalogue.directory_exists_eq hsafe
  rw [for_each_entry, hanswer, Outcome.ok_bind]
  cases answer with
  | false =>
    refine ⟨[], rfl, List.nodup_nil, fun visit hchild => iff_of_false List.not_mem_nil ?_⟩
    rintro ⟨record, hrecord, hvisit⟩
    obtain ⟨_, _, hthere⟩ := (child_entry_eq_some hchild).mp hvisit
    have hroot : directory ≠ [] := fun hroot => absurd (hdirectory.mpr (.inl hroot)) (by simp)
    have hbelow := Path.Below.of_join hroot (hthere.imp And.left And.left)
    exact absurd (hdirectory.mpr (.inr ⟨record, hrecord, .inr hbelow⟩)) (by simp)
  | true =>
    have hstep : ∀ done offset entry rest visits, records = done ++ (offset, entry) :: rest →
        Visited directory done visits → ∃ visits', visit_entry bytes directory offset entry visits = .ok (.next visits') ∧
          Visited directory (done ++ [(offset, entry)]) visits' := by
      rintro done offset entry rest visits rfl hvisited
      obtain ⟨hchain, hentry⟩ := hcatalogue.chain.split
      exact visit_entry_visited hchain hentry hvisited
    have hstart : Visited directory [] [] := ⟨List.nodup_nil, by simp, by simp⟩
    obtain ⟨visits, hover, hvisited⟩ := Scan.along_next stop hstep hstart
    refine ⟨visits, ?_, hvisited.nodup, fun visit hchild => ⟨hvisited.sound visit, ?_⟩⟩
    · rw [if_neg (by simp), archive_mounted, Outcome.ok_bind, walk,
        Scan.run_eq_along hcatalogue.chain hcatalogue.ends (chain_length_le hcatalogue.chain hcatalogue.ends), hover]
      rfl
    · rintro ⟨record, hrecord, hvisit⟩
      obtain ⟨other, hother, hname⟩ := List.mem_map.mp (hvisited.complete record hrecord visit hvisit)
      obtain ⟨source, hsource, hnamed⟩ := hvisited.sound other hother
      rw [hcatalogue.child_entry_unique hrecord hsource hvisit hnamed hname.symm hchild]
      exact hother

/-- `for_each_file` goes through the whole archive. -/
theorem for_each_file_returns : ∃ visits, for_each_file (some (.ok bytes)) = .ok visits := by
  rw [for_each_file, archive_mounted, Outcome.ok_bind, walk,
    Scan.run_eq_along hcatalogue.chain hcatalogue.ends (chain_length_le hcatalogue.chain hcatalogue.ends)]
  refine (Scan.along_next (I := fun _ _ => True) stop ?_ trivial).elim fun visits hover => ⟨visits, by rw [hover.1]; rfl⟩
  rintro done offset entry rest visits rfl _
  obtain ⟨_, hentry⟩ := hcatalogue.chain.split
  cases entry.is_dir with
  | true => exact ⟨visits, rfl, trivial⟩
  | false =>
    have hname : from_utf8 entry.name = some entry.name :=
      if_pos (Bytes.validateUTF8_of_ascii fun byte hbyte => (safe_path_ascii (entry_at_some hentry).1 byte hbyte).2)
    rw [hname]
    exact ⟨_, rfl, trivial⟩

theorem names_nodup : (records.map fun record => record.2.name).Nodup := by
  refine List.pairwise_map.mpr (hcatalogue.compatible.imp fun hagree => ?_)
  exact (conflicts_eq_false_iff.mp hagree).1

theorem directory_exists_eq_ok_true_iff (hsafe : safe_path path true = true) :
    directory_exists (some (.ok bytes)) path = .ok true ↔ IsDirectory records path := by
  obtain ⟨answer, hanswer, hdirectory⟩ := hcatalogue.directory_exists_eq hsafe
  rw [hanswer, Outcome.ok.injEq, hdirectory]

end

end Catalogue

/-- The views of an initrd agree. On a mounted archive that `validate` accepted no walk fails, whatever
its argument. `for_each_entry` visits each child of a directory once: as a directory exactly when
`directory_exists` finds the child's path, and as a file of some size exactly when `read_file` finds
contents of that size under it. No path is both, and the entries have different paths. -/
theorem initrd_views_agree (bytes : List UInt8) (hvalid : validate bytes = .ok ()) :
    (∀ path, (∃ found, read_file (some (.ok bytes)) path = .ok found) ∧
      (∃ answer, directory_exists (some (.ok bytes)) path = .ok answer) ∧
      ∃ visits, for_each_entry (some (.ok bytes)) path = .ok visits) ∧
    (∃ visits, for_each_file (some (.ok bytes)) = .ok visits) ∧
    (∀ directory visits, safe_path directory true = true →
      for_each_entry (some (.ok bytes)) directory = .ok visits →
      (visits.map Prod.fst).Nodup ∧ ∀ child, safe_component child = true →
        ((∃ size, (child, true, size) ∈ visits) ↔
          directory_exists (some (.ok bytes)) (join SLASH directory child) = .ok true) ∧
        ∀ size, (child, false, size) ∈ visits ↔
          ∃ data, read_file (some (.ok bytes)) (join SLASH directory child) = .ok (some data) ∧ data.length = size) ∧
    (∀ path data, directory_exists (some (.ok bytes)) path = .ok true →
      read_file (some (.ok bytes)) path ≠ .ok (some data)) ∧
    ∀ records stop, Scan.Chain (entry_at bytes) TarEntry.next_offset 0 records stop →
      (records.map fun record => record.2.name).Nodup := by
  obtain ⟨records, stop, hcatalogue⟩ := validate_eq_ok_iff.mp hvalid
  refine ⟨fun path => ⟨hcatalogue.read_file_returns path, ?_⟩, hcatalogue.for_each_file_returns, ?_, ?_, ?_⟩
  · cases hsafe : safe_path path true with
    | true =>
      obtain ⟨answer, hanswer, _⟩ := hcatalogue.directory_exists_eq hsafe
      obtain ⟨visits, hvisits, _⟩ := hcatalogue.for_each_entry_eq hsafe
      exact ⟨⟨answer, hanswer⟩, visits, hvisits⟩
    | false =>
      have hanswer := directory_exists_refused bytes hsafe
      exact ⟨⟨false, hanswer⟩, [], by rw [for_each_entry, hanswer]; rfl⟩
  · intro directory visits hsafe hvisits
    obtain ⟨visits', hvisits', hnodup, hmem⟩ := hcatalogue.for_each_entry_eq hsafe
    obtain rfl : visits = visits' := Outcome.ok.inj (hvisits.symm.trans hvisits')
    refine ⟨hnodup, fun child hchild => ?_⟩
    obtain ⟨hne, hbytes⟩ := safe_component_bytes hchild
    have hslash : SLASH ∉ child := fun hmem => (hbytes _ hmem).1 rfl
    have hpath := safe_path_join hsafe hchild
    constructor
    · rw [hcatalogue.directory_exists_eq_ok_true_iff (by rw [safe_path_true, hpath, Bool.or_true]),
        ← child_entry_directory_iff hne hslash]
      exact exists_congr fun size => hmem (child, true, size) hne
    · intro size
      rw [hmem (child, false, size) hne, child_entry_file_iff hne hslash]
      simp only [hcatalogue.read_file_eq_ok_some_iff]
  · intro path data hdirectory hread
    have hfile := hcatalogue.read_file_eq_ok_some_iff.mp hread
    cases hsafe : safe_path path true with
    | true =>
      exact hcatalogue.not_directory_of_file hfile ((hcatalogue.directory_exists_eq_ok_true_iff hsafe).mp hdirectory)
    | false =>
      rw [directory_exists_refused bytes hsafe] at hdirectory
      cases hdirectory
  · intro other offset hother
    obtain ⟨rest, rfl, _⟩ := hcatalogue.chain.unique hother hcatalogue.ends
    have hnodup := hcatalogue.names_nodup
    rw [List.map_append] at hnodup
    exact hnodup.of_append_left

/-- An archive with a directory and a file in it. -/
theorem initrd_views_agree_sample : validate (ustar.encode ustar.sample_members) = .ok () ∧
    ∃ visits, for_each_entry (some (.ok (ustar.encode ustar.sample_members))) [] = .ok visits ∧
      (visits.map Prod.fst).Nodup := by
  have hvalid : validate (ustar.encode ustar.sample_members) = .ok () := by decide +kernel
  obtain ⟨hreturns, _, hvisited, _⟩ := initrd_views_agree _ hvalid
  obtain ⟨visits, hvisits⟩ := (hreturns []).2.2
  exact ⟨hvalid, visits, hvisits, (hvisited [] visits rfl hvisits).1⟩

end leafos.fs
