import LeafOS.Fs.Basic
import LeafOS.UserProgram
import Mathlib.Data.List.DropRight

namespace leafos.shell

open leafos.fs

def PATH_CAPACITY : Nat := 255

/-- `'\''` and `'"'`. -/
def QUOTES : List UInt8 := [39, 34]

def INPUT_OPERATOR : UInt8 := 60

def OUTPUT_OPERATOR : UInt8 := 62

def PIPE_OPERATOR : UInt8 := 124

def is_ascii_whitespace (byte : UInt8) : Bool :=
  byte == 32 || byte == 9 || byte == 10 || byte == 13

def trim_spaces (value : List UInt8) : List UInt8 :=
  (value.dropWhile is_ascii_whitespace).rdropWhile is_ascii_whitespace

/-- A word between two equal quotes and what follows it. -/
def split_quoted_word (value : List UInt8) : Option (List UInt8 × List UInt8) :=
  match value with
  | [] => none
  | quote :: rest =>
    if QUOTES.contains quote && rest.contains quote then
      some (rest.takeWhile (· != quote), trim_spaces ((rest.dropWhile (· != quote)).drop 1))
    else
      none

/-- A quote that is not closed is an ordinary byte. -/
def split_first_word (value : List UInt8) : List UInt8 × List UInt8 :=
  (split_quoted_word value).getD
    (value.takeWhile (!is_ascii_whitespace ·), trim_spaces (value.dropWhile (!is_ascii_whitespace ·)))

def to_ascii_lowercase (byte : UInt8) : UInt8 := if 65 ≤ byte && byte ≤ 90 then byte + 32 else byte

def eq_ignore_ascii_case (left right : List UInt8) : Bool :=
  left.map to_ascii_lowercase == right.map to_ascii_lowercase

/-- One turn of the loop of `resolve_path`. The output buffer is kept as its first `length` bytes. -/
def resolve_component (output component : List UInt8) : Option (List UInt8) :=
  if component.isEmpty || component == DOT then
    some output
  else if component == DOT_DOT then
    -- Without a separator nothing is left of the path.
    some (output.rdropWhile (· != SLASH)).dropLast
  else if 100 < component.length ||
      !component.all (fun byte => is_ascii_alphanumeric byte || [46, 95, 45].contains byte) then
    none
  else
    let longer := output ++ (if output.isEmpty then [] else [SLASH]) ++ component
    if PATH_CAPACITY < longer.length then none else some longer

def resolve_path (current input : List UInt8) : Option (List UInt8) := do
  let start ←
    if input.head? == some SLASH then some []
    else if PATH_CAPACITY < current.length then none
    else some current
  (input.splitOn SLASH).foldlM resolve_component start

/-- What `split_redirections` returns. -/
structure Redirections where
  command : List UInt8
  input_path : Option (List UInt8)
  output_path : Option (List UInt8)
  valid : Bool
deriving Repr, DecidableEq

def Redirections.refused (command : List UInt8) : Redirections := ⟨command, none, none, false⟩

/-- The loop of `split_redirections`, with the number of paths that can still be taken. Once
both are there, any further operator is refused. -/
def take_redirections (command : List UInt8) :
    Nat → List UInt8 → Option (List UInt8) → Option (List UInt8) → Redirections
  | _, [], input_path, output_path => ⟨command, input_path, output_path, true⟩
  | 0, _ :: _, _, _ => .refused command
  | turns + 1, operator :: remainder, input_path, output_path =>
    let (path, extra) := split_first_word (trim_spaces remainder)
    if operator != INPUT_OPERATOR && operator != OUTPUT_OPERATOR then
      .refused command
    else if path.isEmpty then
      .refused command
    else if operator == INPUT_OPERATOR then
      if input_path.isSome then .refused command
      else take_redirections command turns (trim_spaces extra) (some path) output_path
    else
      if output_path.isSome then .refused command
      else take_redirections command turns (trim_spaces extra) input_path (some path)

def split_redirections (command : List UInt8) : Redirections :=
  let is_word_byte (byte : UInt8) : Bool := byte != INPUT_OPERATOR && byte != OUTPUT_OPERATOR
  if command.all is_word_byte then
    ⟨command, none, none, true⟩
  else
    take_redirections (trim_spaces (command.takeWhile is_word_byte)) 2
      (trim_spaces (command.dropWhile is_word_byte)) none none

/-- A path as the shell passes it on. -/
def resolve_text (current_dir path : List UInt8) : Option (List UInt8) := do
  let path ← from_utf8 path
  let resolved ← resolve_path current_dir path
  from_utf8 resolved

/-- Why a command names no program. -/
inductive InvocationError where
  | InvalidPath
  | TooManyArguments
  | InvalidUtf8
deriving Repr, DecidableEq

/-- The loop over the arguments, with the room left in the array for them. -/
def collect_arguments : Nat → List UInt8 → Except InvocationError (List (List UInt8))
  | _, [] => .ok []
  | 0, _ :: _ => .error .TooManyArguments
  | room + 1, byte :: remaining =>
    let (argument, rest) := split_first_word (byte :: remaining)
    match from_utf8 argument with
    | none => .error .InvalidUtf8
    | some argument => (collect_arguments room rest).map (argument :: ·)

/-- The resolved path of the program that a command names, and its arguments. -/
structure Invocation where
  path : List UInt8
  arguments : List (List UInt8)
deriving Repr, DecidableEq

/-- What `launch_app` and the closure `spawn` of `launch_pipeline` do with a command. -/
def parse_invocation (current_dir command : List UInt8) : Except InvocationError Invocation :=
  let (path, raw_arguments) := split_first_word command
  match resolve_text current_dir path with
  | none => .error .InvalidPath
  | some path => (collect_arguments user_program.MAX_PROGRAM_ARGUMENTS raw_arguments).map (⟨path, ·⟩)

def RUN : List UInt8 := [114, 117, 110]

def DISKRUN : List UInt8 := [100, 105, 115, 107, 114, 117, 110]

/-- One side of a pipeline and whether its program is on the data disk. -/
def pipeline_command (command : List UInt8) (current_dir_is_ext2 : Bool) : List UInt8 × Bool :=
  let (name, arguments) := split_first_word command
  if eq_ignore_ascii_case name RUN then
    (trim_spaces arguments, current_dir_is_ext2)
  else if eq_ignore_ascii_case name DISKRUN then
    (trim_spaces arguments, true)
  else
    (command, true)

end leafos.shell
