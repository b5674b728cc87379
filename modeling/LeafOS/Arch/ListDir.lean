import LeafOS.Arch.Syscall
import LeafOS.Fs.Ext2.Directories
import Mathlib.Data.Nat.Digits.Defs

/-!
The directory listing of `sys_list_dir`. The output buffer is filled in place and
rewound when a record does not fit; what is returned are whole records, one for each
entry that there was room for.
-/

namespace leafos.arch.syscall

open leafos.fs

def MAX_SYSCALL_PATH : Nat := 255
def SPACE : UInt8 := 0x20
def NEWLINE : UInt8 := 0x0a

/-- The buffer `output` of `sys_list_dir` and how much of it is filled. -/
structure Listing where
  output : List UInt8
  length : Nat
deriving Repr, DecidableEq

namespace Listing

variable {ε : Type}

/-- `output[length..length + bytes.len()].copy_from_slice(bytes); length += bytes.len();`. -/
def append (listing : Listing) (bytes : List UInt8) : Outcome ε Listing :=
  Outcome.guarded (listing.length + bytes.length ≤ listing.output.length) {
    output := listing.output.take listing.length ++ bytes ++ listing.output.drop (listing.length + bytes.length)
    length := listing.length + bytes.length }

/-- `output[length] = byte; length += 1;`. -/
def push (listing : Listing) (byte : UInt8) : Outcome ε Listing := listing.append [byte]

end Listing

/-- The loop of `append_decimal` that fills `digits`, from the last digit on, with the given
number of slots left. -/
def decimal_digits {ε : Type} : Nat → Nat → Outcome ε (List UInt8)
  | 0, _ => .panic
  | slots + 1, value =>
    let digit := 0x30 + .ofNat (value % 10)
    if value / 10 = 0 then .ok [digit] else do
      let digits ← decimal_digits slots (value / 10)
      return digit :: digits

def append_decimal {ε : Type} (listing : Listing) (value : Nat) : Outcome ε (Bool × Listing) := do
  let digits ← decimal_digits 20 value
  if listing.output.length < listing.length + digits.length then
    return (false, listing)
  else
    let listing ← digits.reverse.foldlM Listing.push listing
    return (true, listing)

/-- The closure that `sys_list_dir` passes to `for_each_entry`. -/
def list_entry {ε : Type} (capacity : Nat) (listing : Listing) (entry : ext2.Entry) : Outcome ε Listing :=
  if capacity ≤ listing.length then return listing
  else do
    let start := listing.length
    let (appended, listing) ← append_decimal listing entry.size
    if !appended ∨ capacity < listing.length + 1 then
      return { listing with length := start }
    else
      let listing ← listing.push SPACE
      let required := entry.name.length + entry.is_dir.toNat + 1
      if listing.length + required ≤ capacity then
        let listing ← listing.append entry.name
        let listing ← (if entry.is_dir then listing.push SLASH else pure listing : Outcome ε Listing)
        listing.push NEWLINE
      else
        return { listing with length := start }

/-- `sys_list_dir`, given whether the output range is valid, the path that was copied in if it could
be, the entries that `for_each_entry` visits and how it ends, and whether the output can be copied out.
The value for `RAX` is returned with the bytes that are copied out. -/
def sys_list_dir {ε : Type} (rsi r10 : Nat) (valid : Bool) (path : Option (List UInt8)) (visited : List ext2.Entry)
    (result : Except ext2.Ext2Error Unit) (copied : Bool) : Outcome ε (UInt64 × List UInt8) :=
  if MAX_SYSCALL_PATH < rsi ∨ MAX_SYSCALL_BUFFER < r10 then return (SYS_ERR_E2BIG, [])
  else if r10 ≠ 0 ∧ !valid then return (SYS_ERR_EFAULT, [])
  else match path with
    | none => return (SYS_ERR_EFAULT, [])
    | some path =>
      if 0 ∈ path ∨ from_utf8 path = none then return (SYS_ERR_EINVAL, [])
      else do
        let listing ← visited.foldlM (list_entry r10) ⟨List.replicate MAX_SYSCALL_BUFFER 0, 0⟩
        match result with
        | .ok () =>
          if listing.length ≠ 0 ∧ !copied then return (SYS_ERR_EFAULT, [])
          else return (.ofNat listing.length, listing.output.take listing.length)
        | .error .InvalidPath => return (SYS_ERR_EINVAL, [])
        | .error _ =>
          return ( SYS_ERR_EIO, [])

variable {value capacity : Nat} {listing : Listing} {bytes : List UInt8} {ε : Type}

/-- The decimal representation of a number. -/
def decimal (value : Nat) : List UInt8 :=
  if value = 0 then [0x30] else (Nat.digits 10 value).reverse.map fun digit => 0x30 + .ofNat digit

/-- The record of an entry. -/
def entry_record (entry : ext2.Entry) : List UInt8 :=
  decimal entry.size ++ [SPACE] ++ entry.name ++ (if entry.is_dir then [SLASH] else []) ++ [NEWLINE]

/-- The entries whose records go into the given space, when each one is taken for which there is
still room. -/
def fitting : Nat → List ext2.Entry → List ext2.Entry
  | _, [] => []
  | room, entry :: rest =>
    if (entry_record entry).length ≤ room then entry :: fitting (room - (entry_record entry).length) rest
    else fitting room rest

theorem fitting_sublist (room : Nat) (entries : List ext2.Entry) : (fitting room entries).Sublist entries := by
  induction entries generalizing room with
  | nil => exact .slnil
  | cons entry rest ih =>
    rw [fitting]
    split
    · exact (ih _).cons_cons entry
    · exact (ih room).cons entry

theorem decimal_succ (hvalue : value / 10 ≠ 0) :
    decimal value = decimal (value / 10) ++ [0x30 + .ofNat (value % 10)] := by
  have hpos : 0 < value := by omega
  rw [decimal, decimal, if_neg (by omega), if_neg hvalue, Nat.digits_def' (by decide) hpos, List.reverse_cons,
    List.map_append]
  rfl

theorem decimal_lt_ten (hvalue : value < 10) : decimal value = [0x30 + .ofNat value] := by
  unfold decimal
  split
  · rename_i hzero
    rw [hzero]
    rfl
  · rename_i hzero
    rw [Nat.digits_of_lt 10 value hzero hvalue]
    rfl

/-- There are slots for the digits of every number below the power. -/
theorem decimal_digits_eq {slots : Nat} (hvalue : value < 10 ^ (slots + 1)) :
    (decimal_digits (slots + 1) value : Outcome ε (List UInt8)) = .ok (decimal value).reverse := by
  induction slots generalizing value with
  | zero =>
    rw [decimal_digits, if_pos (by omega), decimal_lt_ten (by omega), Nat.mod_eq_of_lt (by omega)]
    rfl
  | succ slots ih =>
    rw [decimal_digits]
    by_cases hlast : value / 10 = 0
    · rw [if_pos hlast, decimal_lt_ten (by omega), Nat.mod_eq_of_lt (by omega)]
      rfl
    · rw [if_neg hlast, ih (by rw [Nat.pow_succ] at hvalue; omega), decimal_succ hlast, List.reverse_append]
      rfl

/-- The buffer is whole and filled with the given bytes. -/
structure Listing.Filled (listing : Listing) (bytes : List UInt8) : Prop where
  whole : listing.output.length = MAX_SYSCALL_BUFFER
  length : listing.length = bytes.length
  filled : bytes <+: listing.output

namespace Listing.Filled

variable {more : List UInt8}

theorem append (hfilled : listing.Filled bytes) (hroom : bytes.length + more.length ≤ MAX_SYSCALL_BUFFER) :
    ∃ after : Listing, (listing.append more : Outcome ε Listing) = .ok after ∧ after.Filled (bytes ++ more) := by
  have hwhole := hfilled.whole
  have hlength := hfilled.length
  obtain ⟨rest, hrest⟩ := hfilled.filled
  have htake : listing.output.take listing.length = bytes := by
    rw [hlength, ← hrest, List.take_left]
  refine ⟨_, if_pos (by omega), ?_, ?_, ?_⟩
  · simp only [List.length_append, List.length_take, List.length_drop]
    omega
  · simp only [hlength, List.length_append]
  · simp only [htake]
    exact List.prefix_append _ _

/-- Setting the length back takes the last bytes away. -/
theorem rewind (hfilled : listing.Filled (bytes ++ more)) :
    Filled { listing with length := bytes.length } bytes where
  whole := hfilled.whole
  length := rfl
  filled := (List.prefix_append bytes more).trans hfilled.filled

theorem pushes (hfilled : listing.Filled bytes) (hroom : bytes.length + more.length ≤ MAX_SYSCALL_BUFFER) :
    ∃ after : Listing, (more.foldlM Listing.push listing : Outcome ε Listing) = .ok after ∧
      after.Filled (bytes ++ more) := by
  induction more generalizing listing bytes with
  | nil => exact ⟨listing, rfl, by rwa [List.append_nil]⟩
  | cons byte rest ih =>
    rw [List.length_cons] at hroom
    have hbyte : bytes.length + [byte].length ≤ MAX_SYSCALL_BUFFER := by
      rw [List.length_singleton]
      omega
    obtain ⟨next, hpush, hnext⟩ := hfilled.append hbyte
    obtain ⟨after, hrest, hafter⟩ := ih hnext (by simp only [List.length_append, List.length_singleton]; omega)
    refine ⟨after, ?_, by rwa [List.append_assoc, List.singleton_append] at hafter⟩
    rw [List.foldlM_cons, Listing.push, hpush]
    exact hrest

theorem append_decimal (hfilled : listing.Filled bytes) (hvalue : value < 2 ^ 64) :
    (MAX_SYSCALL_BUFFER < bytes.length + (decimal value).length ∧
      (append_decimal listing value : Outcome ε (Bool × Listing)) = .ok (false, listing)) ∨
    ∃ after : Listing, (syscall.append_decimal listing value : Outcome ε (Bool × Listing)) = .ok (true, after) ∧
      after.Filled (bytes ++ decimal value) := by
  unfold syscall.append_decimal
  rw [decimal_digits_eq (Nat.lt_trans hvalue (by decide)), Outcome.ok_bind, List.length_reverse, List.reverse_reverse,
    hfilled.whole, hfilled.length]
  by_cases hlong : MAX_SYSCALL_BUFFER < bytes.length + (decimal value).length
  · rw [if_pos hlong]
    exact .inl ⟨hlong, rfl⟩
  · obtain ⟨after, hpushes, hafter⟩ := hfilled.pushes (Nat.le_of_not_lt hlong)
    rw [if_neg hlong, hpushes]
    exact .inr ⟨after, rfl, hafter⟩

end Listing.Filled

/-- One visit appends the record of the entry if there is room for it, and nothing otherwise. -/
theorem list_entry_filled (hcapacity : capacity ≤ MAX_SYSCALL_BUFFER)
    (hfilled : listing.Filled bytes) {entry : ext2.Entry} (hsize : entry.size < 2 ^ 64) :
    ∃ after : Listing, (list_entry capacity listing entry : Outcome ε Listing) = .ok after ∧
      after.Filled (if (bytes ++ entry_record entry).length ≤ capacity then bytes ++ entry_record entry else bytes) := by
  have hrecord : (bytes ++ entry_record entry).length =
      bytes.length + (decimal entry.size).length + 1 + (entry.name.length + entry.is_dir.toNat + 1) := by
    simp only [entry_record, List.length_append, List.length_singleton]
    cases entry.is_dir <;> simp <;> omega
  have hlength := hfilled.length
  unfold list_entry
  by_cases hfull : capacity ≤ listing.length
  · rw [if_pos hfull, if_neg (by omega)]
    exact ⟨listing, rfl, hfilled⟩
  rw [if_neg hfull]
  rcases hfilled.append_decimal hsize with ⟨hlong, happend⟩ | ⟨digits, happend, hdigits⟩
  · rw [happend, if_neg (by omega)]
    exact ⟨_, rfl, hfilled⟩
  rw [happend, Outcome.ok_bind]
  have hdigits_len := hdigits.length
  rw [List.length_append] at hdigits_len
  by_cases hspace : capacity < digits.length + 1
  · rw [if_neg (by omega)]
    refine ⟨{ digits with length := listing.length }, if_pos (.inr hspace), ?_⟩
    rw [hlength]
    exact hdigits.rewind
  have hlast : bytes.length + (decimal entry.size).length + [SPACE].length ≤ MAX_SYSCALL_BUFFER := by
    rw [List.length_singleton]
    omega
  rw [← List.length_append] at hlast
  obtain ⟨spaced, hpush, hspaced⟩ := hdigits.append (ε := ε) hlast
  have hspaced_len := hspaced.length
  rw [List.length_append, List.length_append, List.length_singleton] at hspaced_len
  simp only [Bool.not_true, Bool.false_eq_true, hspace, or_self, if_false, Listing.push, hpush, Outcome.ok_bind]
  by_cases hroom : (bytes ++ entry_record entry).length ≤ capacity
  · rw [if_pos hroom, if_pos (by omega)]
    have hname : (bytes ++ decimal entry.size ++ [SPACE]).length + entry.name.length ≤ MAX_SYSCALL_BUFFER := by
      rw [← hspaced.length]
      omega
    obtain ⟨named, happend_name, hnamed⟩ := hspaced.append (ε := ε) hname
    have hnamed_len := hnamed.length
    rw [List.length_append, ← hspaced.length] at hnamed_len
    rw [happend_name, Outcome.ok_bind]
    have hend : ∃ marked : Listing,
        (if entry.is_dir = true then named.append [SLASH] else pure named : Outcome ε Listing) = .ok marked ∧
        marked.Filled (bytes ++ decimal entry.size ++ [SPACE] ++ entry.name ++ if entry.is_dir then [SLASH] else []) := by
      cases hdir : entry.is_dir with
      | false => exact ⟨named, rfl, by simpa using hnamed⟩
      | true =>
        rw [hdir, Bool.toNat_true] at hrecord
        exact hnamed.append (by rw [← hnamed.length, List.length_singleton]; omega)
    obtain ⟨marked, hmark, hmarked⟩ := hend
    rw [hmark, Outcome.ok_bind]
    have hrecord_eq : bytes ++ entry_record entry = bytes ++ decimal entry.size ++ [SPACE] ++ entry.name ++
        (if entry.is_dir then [SLASH] else []) ++ [NEWLINE] := by
      simp only [entry_record, List.append_assoc]
    rw [hrecord_eq]
    apply hmarked.append
    rw [← List.length_append, ← hrecord_eq]
    omega
  · rw [if_neg hroom, if_neg (by omega), hlength]
    rw [List.append_assoc] at hspaced
    exact ⟨_, rfl, hspaced.rewind⟩

/-- The whole walk: the listing holds the records of the entries that fitted. -/
theorem list_entries_filled (hcapacity : capacity ≤ MAX_SYSCALL_BUFFER)
    {entries : List ext2.Entry} (hsizes : ∀ entry ∈ entries, entry.size < 2 ^ 64)
    (hfilled : listing.Filled bytes) (hbytes : bytes.length ≤ capacity) :
    ∃ after : Listing, (entries.foldlM (list_entry capacity) listing : Outcome ε Listing) = .ok after ∧
      after.Filled (bytes ++ (fitting (capacity - bytes.length) entries).flatMap entry_record) ∧
      after.length ≤ capacity := by
  induction entries generalizing listing bytes with
  | nil =>
    refine ⟨listing, rfl, by simpa [fitting] using hfilled, ?_⟩
    rw [hfilled.length]
    exact hbytes
  | cons entry rest ih =>
    obtain ⟨hsize, hrest⟩ := List.forall_mem_cons.mp hsizes
    obtain ⟨next, hvisit, hnext⟩ := list_entry_filled (ε := ε) hcapacity hfilled hsize
    rw [List.foldlM_cons, hvisit, Outcome.ok_bind, fitting]
    by_cases hroom : (bytes ++ entry_record entry).length ≤ capacity
    · rw [if_pos hroom] at hnext
      obtain ⟨after, hfold, hafter, hlength⟩ := ih hrest hnext hroom
      refine ⟨after, hfold, ?_, hlength⟩
      rw [List.length_append] at hroom hafter
      rwa [if_pos (by omega), List.flatMap_cons, ← List.append_assoc, Nat.sub_sub]
    · rw [if_neg hroom] at hnext
      rw [List.length_append] at hroom
      rw [if_neg (by omega)]
      exact ih hrest hnext hbytes

section Answers

variable (rsi r10 : Nat) (valid : Bool) (path : Option (List UInt8)) (result : Except ext2.Ext2Error Unit)
  (bytes : List UInt8) (copied : Bool)

/-- What keeps `sys_list_dir` from returning the given bytes, and the answer it gives then. -/
inductive Refused : UInt64 → Prop
  | too_big (hbig : MAX_SYSCALL_PATH < rsi ∨ MAX_SYSCALL_BUFFER < r10) : Refused SYS_ERR_E2BIG
  | no_output (hroom : r10 ≠ 0) (hvalid : valid = false) : Refused SYS_ERR_EFAULT
  | no_path (hpath : path = none) : Refused SYS_ERR_EFAULT
  | not_text {text : List UInt8} (hpath : path = some text) (htext : 0 ∈ text ∨ from_utf8 text = none) : Refused SYS_ERR_EINVAL
  | bad_path (hresult : result = .error .InvalidPath) : Refused SYS_ERR_EINVAL
  | failed {error : ext2.Ext2Error} (hresult : result = .error error) (herror : error ≠ .InvalidPath) : Refused SYS_ERR_EIO
  | not_copied (hbytes : bytes ≠ []) (hcopied : copied = false) : Refused SYS_ERR_EFAULT

end Answers

/-- The checks of `sys_list_dir` around the walk of the directory. -/
theorem sys_list_dir_answers {rsi : Nat} {valid copied : Bool} {path : Option (List UInt8)} {visited : List ext2.Entry}
    {result : Except ext2.Ext2Error Unit}
    (hfold : visited.foldlM (list_entry capacity) ⟨List.replicate MAX_SYSCALL_BUFFER 0, 0⟩ =
      (.ok listing : Outcome ε Listing))
    (hlength : listing.length = bytes.length) (htake : listing.output.take listing.length = bytes) :
    ∃ rax copied_out, sys_list_dir rsi capacity valid path visited result copied =
        (.ok (rax, copied_out) : Outcome ε (UInt64 × List UInt8)) ∧
      ((¬∃ error, Refused rsi capacity valid path result bytes copied error) ∧ rax = .ofNat bytes.length ∧
          copied_out = bytes ∨
        Refused rsi capacity valid path result bytes copied rax ∧ copied_out = []) := by
  unfold sys_list_dir
  by_cases hbig : MAX_SYSCALL_PATH < rsi ∨ MAX_SYSCALL_BUFFER < capacity
  · exact ⟨_, _, if_pos hbig, .inr ⟨.too_big hbig, rfl⟩⟩
  rw [if_neg hbig]
  by_cases hvalid : capacity ≠ 0 ∧ !valid
  · exact ⟨_, _, if_pos hvalid, .inr ⟨.no_output hvalid.1 (by simpa using hvalid.2), rfl⟩⟩
  rw [if_neg hvalid]
  cases path with
  | none => exact ⟨_, _, rfl, .inr ⟨.no_path rfl, rfl⟩⟩
  | some text =>
    by_cases htext : 0 ∈ text ∨ from_utf8 text = none
    · exact ⟨_, _, if_pos htext, .inr ⟨.not_text rfl htext, rfl⟩⟩
    simp only [if_neg htext, hfold, Outcome.ok_bind]
    cases result with
    | error error =>
      by_cases herror : error = .InvalidPath
      · rw [herror]
        exact ⟨_, _, rfl, .inr ⟨.bad_path rfl, rfl⟩⟩
      · refine ⟨_, [], ?_, .inr ⟨.failed rfl herror, rfl⟩⟩
        cases error <;> first | rfl | exact absurd rfl herror
    | ok _ =>
      by_cases hcopied : listing.length ≠ 0 ∧ !copied
      · refine ⟨_, _, if_pos hcopied, .inr ⟨.not_copied ?_ (by simpa using hcopied.2), rfl⟩⟩
        rintro rfl
        exact hcopied.1 hlength
      · rw [htake, hlength]
        refine ⟨_, _, if_neg (hlength ▸ hcopied), .inl ⟨?_, rfl, rfl⟩⟩
        -- None of the checks has failed.
        rintro ⟨error, hbig' | ⟨hroom, hinvalid⟩ | hpath | ⟨hpath, hbad⟩ | hresult | ⟨hresult, _⟩ | ⟨hbytes, hlost⟩⟩
        · exact hbig hbig'
        · exact hvalid ⟨hroom, by rw [hinvalid]; rfl⟩
        · cases hpath
        · cases hpath
          exact htext hbad
        · cases hresult
        · cases hresult
        · exact hcopied ⟨by rwa [hlength, Ne, List.length_eq_zero_iff], by rw [hlost]; rfl⟩

/-- `sys_list_dir` returns whole records: those, in the order of the directory, of the entries for which there
was still room when they were visited. The writes to the buffer stay inside it, and a call returns these records
unless there is a reason not to, and then the error for it. -/
theorem list_dir_returns_whole_records {ε : Type} (entries : List ext2.Entry)
    (hsizes : ∀ entry ∈ entries, entry.size < 2 ^ 64) (capacity : Nat) (hcapacity : capacity ≤ MAX_SYSCALL_BUFFER) :
    let bytes := (fitting capacity entries).flatMap entry_record
    (∃ listing : Listing, (entries.foldlM (list_entry capacity) ⟨List.replicate MAX_SYSCALL_BUFFER 0, 0⟩ :
        Outcome ε Listing) = .ok listing ∧ listing.length ≤ capacity ∧ listing.output.take listing.length = bytes) ∧
    (fitting capacity entries).Sublist entries ∧
    ∀ rsi valid path result copied, ∃ rax copied_out,
      (sys_list_dir rsi capacity valid path entries result copied : Outcome ε (UInt64 × List UInt8)) =
        .ok (rax, copied_out) ∧
      ((¬∃ error, Refused rsi capacity valid path result bytes copied error) ∧ rax = .ofNat bytes.length ∧
          copied_out = bytes ∨
        Refused rsi capacity valid path result bytes copied rax ∧ copied_out = []) := by
  intro bytes
  have hempty : Listing.Filled ⟨List.replicate MAX_SYSCALL_BUFFER 0, 0⟩ [] :=
    ⟨List.length_replicate, rfl, List.nil_prefix⟩
  obtain ⟨after, hfold, hafter, hlength⟩ := list_entries_filled (ε := ε) hcapacity hsizes hempty (Nat.zero_le _)
  rw [List.length_nil, Nat.sub_zero, List.nil_append] at hafter
  have htake : after.output.take after.length = bytes := by
    obtain ⟨rest, hrest⟩ := hafter.filled
    rw [hafter.length, ← hrest, List.take_left]
  refine ⟨⟨after, hfold, hlength, htake⟩, fitting_sublist _ _, ?_⟩
  intro rsi valid path result copied
  exact sys_list_dir_answers hfold hafter.length htake

/-- A directory with three entries, the second of which does not fit. -/
def sample_entries : List ext2.Entry := [⟨[0x61], false, 5⟩, ⟨[0x62, 0x69, 0x6e], true, 1024⟩, ⟨[0x63], false, 0⟩]

/-- Two of the entries are listed in eight bytes. -/
theorem list_dir_returns_sample_records :
    fitting 8 sample_entries = [⟨[0x61], false, 5⟩, ⟨[0x63], false, 0⟩] ∧
    (sys_list_dir 1 8 true (some [SLASH]) sample_entries (.ok ()) true : Outcome Empty (UInt64 × List UInt8)) =
      .ok (8, [0x35, SPACE, 0x61, NEWLINE, 0x30, SPACE, 0x63, NEWLINE]) := by
  have hfitting : fitting 8 sample_entries = [⟨[0x61], false, 5⟩, ⟨[0x63], false, 0⟩] := by
    simp [sample_entries, fitting, entry_record, decimal]
  have hbytes : (fitting 8 sample_entries).flatMap entry_record =
      [0x35, SPACE, 0x61, NEWLINE, 0x30, SPACE, 0x63, NEWLINE] := by
    rw [hfitting]
    simp [entry_record, decimal]
  have hslash : ¬((0 : UInt8) ∈ [SLASH] ∨ from_utf8 [SLASH] = none) := by decide
  refine ⟨hfitting, ?_⟩
  obtain ⟨rax, copied_out, hcall, ⟨_, rfl, rfl⟩ | ⟨hrefused, _⟩⟩ :=
    (list_dir_returns_whole_records (ε := Empty) sample_entries (by decide) 8 (by decide)).2.2 1 true (some [SLASH])
      (.ok ()) true
  · rw [hcall, hbytes]
    rfl
  · rcases hrefused with hbig | ⟨_, hinvalid⟩ | hpath | ⟨hpath, hbad⟩ | hresult | ⟨hresult, _⟩ | ⟨_, hlost⟩
    · exact absurd hbig (by decide)
    · cases hinvalid
    · cases hpath
    · cases hpath
      exact absurd hbad hslash
    · cases hresult
    · cases hresult
    · cases hlost

end leafos.arch.syscall
