import LeafOS.Drivers.Input
import Mathlib.Data.UInt

namespace leafos.tasking.fd

def STDIN : Nat := 0
def STDOUT : Nat := 1
def STDERR : Nat := 2
def MAX_FDS : Nat := 16
def PIPE_CAPACITY : Nat := 4096

instance : NeZero PIPE_CAPACITY := ⟨by decide⟩

inductive ReadError where
  | Invalid
  | WouldBlock
  | Io
deriving Repr, DecidableEq

inductive WriteError where
  | Invalid
  | WouldBlock
  | BrokenPipe
  | Io
deriving Repr, DecidableEq

structure FileWrite where
  path : List UInt8
  contents : List UInt8
deriving Repr, DecidableEq

structure FileRead where
  contents : List UInt8
  offset : Nat
deriving Repr, DecidableEq

/-- A descriptor. The shared objects behind an `Arc` are named by their position
in the object store, so that two descriptors share an object exactly when they
carry the same number. -/
inductive FileDescriptor where
  | Stdin
  | Console
  | PipeRead (pipe : Nat)
  | PipeWrite (pipe : Nat)
  | FileWrite (file : Nat)
  | FileRead (file : Nat)
deriving Repr, DecidableEq

structure Pipe extends ByteRing PIPE_CAPACITY where
  readers : Nat
  writers : Nat
deriving Repr

/-- The objects that descriptors refer to. -/
structure Objects where
  pipes : List Pipe
  file_writes : List FileWrite
  file_reads : List FileRead
  input : drivers.input.InputBuffer

abbrev FdTable : Type := Fin MAX_FDS → Option FileDescriptor

def Pipe.new : Pipe where
  toByteRing := ByteRing.empty
  readers := 0
  writers := 1

/-- Change one pipe of the store, if it exists. -/
def Objects.modifyPipe (self : Objects) (pipe : Nat) (update : Pipe → Pipe) : Objects :=
  { self with pipes := self.pipes.modify pipe update }

def Pipe.clone_reader (self : Pipe) : Pipe := { self with readers := self.readers + 1 }
def Pipe.clone_writer (self : Pipe) : Pipe := { self with writers := self.writers + 1 }
def Pipe.drop_reader (self : Pipe) : Pipe := { self with readers := self.readers - 1 }
def Pipe.drop_writer (self : Pipe) : Pipe := { self with writers := self.writers - 1 }

/-- `Clone for FileDescriptor`: the copy names the same object, whose endpoint
count grows. -/
def FileDescriptor.clone (self : FileDescriptor) (objects : Objects) : Objects :=
  match self with
  | .PipeRead pipe => objects.modifyPipe pipe Pipe.clone_reader
  | .PipeWrite pipe => objects.modifyPipe pipe Pipe.clone_writer
  | .Stdin | .Console | .FileWrite _ | .FileRead _ => objects

/-- `Drop for FileDescriptor`; the counts saturate at zero. -/
def FileDescriptor.drop (self : FileDescriptor) (objects : Objects) : Objects :=
  match self with
  | .PipeRead pipe => objects.modifyPipe pipe Pipe.drop_reader
  | .PipeWrite pipe => objects.modifyPipe pipe Pipe.drop_writer
  | .Stdin | .Console | .FileWrite _ | .FileRead _ => objects

def close (descriptor : FileDescriptor) (objects : Objects) : Objects := descriptor.drop objects

/-- `close` on a slot that may be empty. -/
def close_slot (slot : Option FileDescriptor) (objects : Objects) : Objects :=
  match slot with
  | some descriptor => close descriptor objects
  | none => objects

/-- `Clone` of a descriptor table clones the slots in order. -/
def clone_table (table : FdTable) (objects : Objects) : Objects :=
  (List.finRange MAX_FDS).foldl (fun objects index =>
    match table index with
    | some descriptor => descriptor.clone objects
    | none => objects) objects

/-- `Drop` of a descriptor table drops the slots in order. -/
def drop_table (table : FdTable) (objects : Objects) : Objects :=
  (List.finRange MAX_FDS).foldl (fun objects index => close_slot (table index) objects) objects

def initial_table : FdTable := fun index =>
  if index.val = STDIN then some .Stdin
  else if index.val = STDOUT then some .Console
  else if index.val = STDERR then some .Console
  else none

/-- A fresh pipe has one read end and one write end. -/
def create_pipe (objects : Objects) : (FileDescriptor × FileDescriptor) × Objects :=
  let pipe := objects.pipes.length
  ((.PipeRead pipe, .PipeWrite pipe),
    { objects with pipes := objects.pipes ++ [{ Pipe.new with readers := 1 }] })

/-- `create_file_write`, given whether `ext2::write_file` could make the file empty. -/
def create_file_write (path : List UInt8) (written : Bool) (objects : Objects) : Option (FileDescriptor × Objects) :=
  if path.isEmpty || 255 < path.length || !written then
    none
  else
    some (.FileWrite objects.file_writes.length,
      { objects with file_writes := objects.file_writes ++ [{ path, contents := [] }] })

/-- `create_file_read`, given what `ext2::read_file_vec` finds. -/
def create_file_read (contents : Option (List UInt8)) (objects : Objects) : Option (FileDescriptor × Objects) :=
  contents.map fun contents =>
    (.FileRead objects.file_reads.length,
      { objects with file_reads := objects.file_reads ++ [{ contents, offset := 0 }] })

/-- `read` with an output buffer of `capacity` bytes. -/
def read (descriptor : FileDescriptor) (capacity : Nat) (objects : Objects) :
    Except ReadError (List UInt8) × Objects :=
  match descriptor with
  | .Stdin =>
    let (bytes, input) := drivers.input.read_available objects.input capacity
    if bytes.length = 0 then
      (.error .WouldBlock, { objects with input })
    else
      (.ok bytes, { objects with input })
  | .PipeRead pipe =>
    match objects.pipes[pipe]? with
    | some state =>
      if state.length = 0 ∧ state.writers ≠ 0 then
        (.error .WouldBlock, objects)
      else
        let (bytes, ring) := state.toByteRing.read capacity
        (.ok bytes, objects.modifyPipe pipe fun state => { state with toByteRing := ring })
    | none => (.error .Invalid, objects)
  | .FileRead file =>
    match objects.file_reads[file]? with
    | some state =>
      let remaining := state.contents.drop state.offset
      let bytes := remaining.take (min capacity remaining.length)
      (.ok bytes, { objects with
        file_reads := objects.file_reads.modify file
          fun state => { state with offset := state.offset + bytes.length } })
    | none => (.error .Invalid, objects)
  | .Console | .PipeWrite _ | .FileWrite _ => (.error .Invalid, objects)

/-- `write`. For a file descriptor `stored` says whether `ext2::write_file`
accepted the accumulated contents. -/
def write (descriptor : FileDescriptor) (input : List UInt8) (stored : Bool) (objects : Objects) :
    Except WriteError Nat × Objects :=
  match descriptor with
  | .Console => (.ok input.length, objects)
  | .PipeWrite pipe =>
    match objects.pipes[pipe]? with
    | some state =>
      if state.readers = 0 then
        (.error .BrokenPipe, objects)
      else
        let (count, ring) := state.toByteRing.write input
        let after := objects.modifyPipe pipe fun state => { state with toByteRing := ring }
        if count = 0 ∧ input ≠ [] then (.error .WouldBlock, after) else (.ok count, after)
    | none => (.error .Invalid, objects)
  | .FileWrite file =>
    let after := { objects with
      file_writes := objects.file_writes.modify file
        fun state => { state with contents := state.contents ++ input } }
    if stored then (.ok input.length, after) else (.error .Io, after)
  | .Stdin | .PipeRead _ | .FileRead _ => (.error .Invalid, objects)

end leafos.tasking.fd
