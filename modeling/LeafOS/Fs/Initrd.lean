import LeafOS.Fs.Basic
import LeafOS.Support.Bytes
import LeafOS.Support.Scan

namespace leafos.fs

open Outcome (refuse okOr)

def MAX_ARCHIVE_SIZE : Nat := 16 * 1024 * 1024
def BLOCK_SIZE : Nat := 512
def MAX_FILES : Nat := 256
def MAX_PATH_LEN : Nat := 255
def MAX_COMPONENT_LEN : Nat := 100

inductive FsError where
  | MissingArchive
  | InvalidArchive
  | TooManyFiles
  | NotInitialized
deriving Repr, DecidableEq

open FsError

/-- `name` is what `TarEntry::name` returns, the array cut to `name_len`. -/
structure TarEntry where
  name : List UInt8
  data : List UInt8
  next_offset : Nat
  is_dir : Bool
deriving Repr, DecidableEq

/-- `b' ' | 0`. -/
def is_blank (byte : UInt8) : Bool := byte == 32 || byte == 0

/-- `b'0'..=b'7'`. -/
def is_octal_digit (byte : UInt8) : Bool := 48 ≤ byte && byte ≤ 55

def octal_loop : List UInt8 → (value : Nat) → (started : Bool) → Option Nat
  | [], value, _ => some value
  | byte :: rest, value, started =>
    if is_blank byte && !started then
      octal_loop rest value started
    else if is_octal_digit byte then do
      let shifted ← checked_usize (value * 8)
      let value ← checked_usize (shifted + (byte.toNat - 48))
      octal_loop rest value true
    else if is_blank byte then
      some value
    else
      none

def octal (field : List UInt8) : Option Nat := octal_loop field 0 false

/-- The closure of `safe_path`. -/
def safe_component (component : List UInt8) : Bool :=
  !component.isEmpty && component.length ≤ MAX_COMPONENT_LEN && component != DOT && component != DOT_DOT &&
    component.all fun byte => is_ascii_alphanumeric byte || byte == 46 || byte == 95 || byte == 45

def safe_path (path : List UInt8) (allow_empty : Bool) : Bool :=
  if path.isEmpty then
    allow_empty
  else
    (path.splitOn SLASH).all safe_component

def field (field : List UInt8) : List UInt8 := field.takeWhile (· != 0)

/-- `&bytes[first..last]`, of a header that is long enough. -/
def slice (bytes : List UInt8) (first last : Nat) : List UInt8 := (bytes.take last).drop first

/-- `b"ustar"`. -/
def USTAR : List UInt8 := [117, 115, 116, 97, 114]

/-- The sum of the header's bytes, with blanks for the checksum field itself. -/
def checksum (header : List UInt8) : Nat :=
  (header.zipIdx.map fun (byte, index) => if 148 ≤ index ∧ index < 156 then 32 else byte.toNat).sum

def entry_is_dir (header : List UInt8) : Outcome FsError Bool :=
  let typeflag := header.getD 156 0
  if typeflag = 0 ∨ typeflag = 48 then
    .ok false
  else if typeflag = 53 then
    .ok true
  else
    .err InvalidArchive

/-- What `entry_at` writes to its `full_name` array. -/
def full_name (leading name : List UInt8) : List UInt8 := (if leading.isEmpty then [] else leading ++ [SLASH]) ++ name

/-- The path of an entry: the prefix and the name, without the slash a directory may end with. -/
def entry_name (header : List UInt8) (is_dir : Bool) : Outcome FsError (List UInt8) := do
  let name := field (slice header 0 100)
  let leading := field (slice header 345 500)
  refuse name.isEmpty InvalidArchive
  let raw_len ← okOr (checked_usize (leading.length + (if leading.isEmpty then 0 else 1) + name.length)) InvalidArchive
  refuse (MAX_PATH_LEN < raw_len) InvalidArchive
  let full_name := full_name leading name
  if full_name.getLast? = some SLASH then do
    refuse (!is_dir) InvalidArchive
    refuse (!safe_path full_name.dropLast false) InvalidArchive
    return full_name.dropLast
  else do
    refuse (!safe_path full_name false) InvalidArchive
    return full_name

/-- The contents of an entry, and where the next header is. -/
def entry_data (archive header : List UInt8) (header_end : Nat) (is_dir : Bool) :
    Outcome FsError (List UInt8 × Nat) := do
  let size ← okOr (octal (slice header 124 136)) InvalidArchive
  refuse (is_dir && size != 0) InvalidArchive
  let rounded ← okOr (checked_usize (size + (BLOCK_SIZE - 1))) InvalidArchive
  let padded_size := rounded / BLOCK_SIZE * BLOCK_SIZE
  let data_start := header_end
  let _ ← okOr (checked_usize (data_start + size)) InvalidArchive
  let next_offset ← okOr (checked_usize (data_start + padded_size)) InvalidArchive
  let data ← okOr (Bytes.slice? archive data_start size) InvalidArchive
  refuse (archive.length < next_offset) InvalidArchive
  return (data, next_offset)

/-- What a header that is not all zeros stands for. -/
def decode_entry (archive header : List UInt8) (header_end : Nat) : Outcome FsError TarEntry := do
  let expected_checksum ← okOr (octal (slice header 148 156)) InvalidArchive
  refuse (checksum header != expected_checksum || slice header 257 262 != USTAR) InvalidArchive
  let is_dir ← entry_is_dir header
  let name ← entry_name header is_dir
  let (data, next_offset) ← entry_data archive header header_end is_dir
  return { name, data, next_offset, is_dir }

def entry_at (archive : List UInt8) (offset : Nat) : Outcome FsError (Option TarEntry) := do
  let header_end ← okOr (checked_usize (offset + BLOCK_SIZE)) InvalidArchive
  let header ← okOr (Bytes.slice? archive offset BLOCK_SIZE) InvalidArchive
  if header.all (· == 0) then
    return none
  else do
    let entry ← decode_entry archive header header_end
    return some entry

section Walks

variable {σ ρ : Type} (archive : List UInt8)

/-- `while let Some(entry) = entry_at(archive, offset)?`, from the start. The headers do not
overlap, so one turn for each byte is enough. -/
def walk (body : Nat → TarEntry → σ → Outcome FsError (Turn σ ρ)) (state : σ) : Outcome FsError (Turn (Nat × σ) ρ) :=
  Scan.run (entry_at archive) TarEntry.next_offset body (archive.length + 1) 0 state

/-- Such a loop that looks for an entry. -/
def find_entry (test : TarEntry → Option ρ) : Outcome FsError (Option ρ) :=
  Scan.find (entry_at archive) TarEntry.next_offset test (archive.length + 1) 0

/-- `while previous_offset < offset`, over the entries before the one at `offset`. -/
def find_previous (offset : Nat) (test : TarEntry → Option ρ) : Outcome FsError (Option ρ) :=
  Scan.find (Scan.before (entry_at archive) InvalidArchive offset) TarEntry.next_offset test (archive.length + 1) 0

end Walks

/-- `name.strip_prefix(parent).is_some_and(|suffix| suffix.first() == Some(&b'/'))`. -/
def is_parent (parent name : List UInt8) : Bool :=
  parent.isPrefixOf name && (name.drop parent.length).head? == some SLASH

/-- Two entries of one path, or a file with an entry below it. -/
def conflicts (previous entry : TarEntry) : Bool :=
  previous.name == entry.name || (is_parent previous.name entry.name && !previous.is_dir) ||
    (is_parent entry.name previous.name && !entry.is_dir)

/-- A turn of `validate`, with the number of entries so far. -/
def validate_entry (archive : List UInt8) (offset : Nat) (entry : TarEntry) (count : Nat) :
    Outcome FsError (Turn Nat Empty) := do
  refuse (MAX_FILES < count + 1) TooManyFiles
  let conflict ← find_previous archive offset fun previous => if conflicts previous entry then some () else none
  refuse conflict.isSome InvalidArchive
  return .next (count + 1)

def validate (archive : List UInt8) : Outcome FsError Unit := do
  refuse (archive.isEmpty || MAX_ARCHIVE_SIZE < archive.length || archive.length % BLOCK_SIZE != 0) InvalidArchive
  let turn ← walk archive (validate_entry archive) 0
  match turn with
  | .next (offset, _) => do
    Outcome.unchecked (offset ≤ archive.length)
    refuse ((archive.drop offset).any (· != 0)) InvalidArchive

/-- `ARCHIVE`, a `Once`. -/
abbrev Mounted : Type := Option (Except FsError (List UInt8))

def archive (mounted : Mounted) : Outcome FsError (List UInt8) := do
  let archive ← okOr mounted NotInitialized
  match archive with
  | .ok archive => return archive
  | .error error => .err error

/-- What the loop of `directory_exists` makes of an entry. -/
def directory_answer (path : List UInt8) (entry : TarEntry) : Option Bool :=
  if entry.name = path then
    some entry.is_dir
  else if path.length < entry.name.length ∧ path.isPrefixOf entry.name ∧ entry.name.getD path.length 0 = SLASH then
    some true
  else
    none

def directory_exists (mounted : Mounted) (path : List UInt8) : Outcome FsError Bool := do
  let archive ← archive mounted
  if !safe_path path true then
    return false
  else if path.isEmpty then
    return true
  else do
    let found ← find_entry archive (directory_answer path)
    return found.getD false

/-- What stands after the directory in a name below it. -/
def relative_name (name directory : List UInt8) : Option (List UInt8) :=
  if directory.isEmpty then
    some name
  else
    let prefix_len := directory.length + 1
    if name.length ≤ prefix_len ∨ !directory.isPrefixOf name ∨ name.getD directory.length 0 ≠ SLASH then
      none
    else
      some (name.drop prefix_len)

def child_entry (entry : TarEntry) (directory : List UInt8) : Option (List UInt8 × Bool × Nat) := do
  let relative ← relative_name entry.name directory
  let child := relative.takeWhile (· != SLASH)
  let is_dir := child.length < relative.length || entry.is_dir
  return (child, is_dir, if is_dir then 0 else entry.data.length)

/-- A turn of `for_each_entry`, with the visits so far. -/
def visit_entry (archive directory : List UInt8) (offset : Nat) (entry : TarEntry)
    (visits : List (List UInt8 × Bool × Nat)) : Outcome FsError (Turn (List (List UInt8 × Bool × Nat)) Empty) :=
  match child_entry entry directory with
  | none => return .next visits
  | some (child, is_dir, size) => do
    let seen ← find_previous archive offset fun previous =>
      if (child_entry previous directory).any fun visited => visited.1 == child then some () else none
    if seen.isSome then
      return .next visits
    else do
      let name ← okOr (from_utf8 child) InvalidArchive
      return .next (visits ++ [(name, is_dir, size)])

/-- The visits that `for_each_entry` makes. -/
def for_each_entry (mounted : Mounted) (directory : List UInt8) : Outcome FsError (List (List UInt8 × Bool × Nat)) := do
  if !(← directory_exists mounted directory) then
    return []
  else do
    let archive ← archive mounted
    let turn ← walk archive (visit_entry archive directory) []
    match turn with
    | .next (_, visits) => return visits

/-- The visits that `for_each_file` makes. -/
def for_each_file (mounted : Mounted) : Outcome FsError (List (List UInt8 × Nat)) := do
  let archive ← archive mounted
  let turn ← walk (ρ := Empty) archive
    (fun _ entry visits => do
      if entry.is_dir then
        return .next visits
      else do
        let name ← okOr (from_utf8 entry.name) InvalidArchive
        return .next (visits ++ [(name, entry.data.length)])) []
  match turn with
  | .next (_, visits) => return visits

def read_file (mounted : Mounted) (name : List UInt8) : Outcome FsError (Option (List UInt8)) :=
  if !safe_path name false then
    return none
  else do
    let archive ← archive mounted
    find_entry archive fun entry => if !entry.is_dir && entry.name == name then some entry.data else none

end leafos.fs
