import LeafOS.Memory.FrameAllocator

namespace leafos.memory

structure PageTableFlags where
  present : Bool
  writable : Bool
  user_accessible : Bool
  no_execute : Bool
deriving Repr, DecidableEq

/-- A page table below the root: its level, and the bits of the page number that
select it. -/
structure TableId where
  level : Nat
  position : Nat
deriving Repr, DecidableEq

def p4_index (page : Page) : Nat := page / 512 ^ 3

/-- The table of one level on the walk to a page. -/
def table_of (level : Nat) (page : Page) : TableId := ⟨level, page / 512 ^ level⟩

/-- The tables and leaf entries under the user slot of one root table. -/
structure UserTables where
  tables : List (TableId × PhysFrame)
  leaves : List (Page × PhysFrame × PageTableFlags)
deriving Repr, DecidableEq

namespace UserTables

/-- A root table whose user slot is unused. -/
def new : UserTables := ⟨[], []⟩

def table (self : UserTables) (id : TableId) : Option PhysFrame := self.tables.lookup id

def leaf (self : UserTables) (page : Page) : Option (PhysFrame × PageTableFlags) := self.leaves.lookup page

/-- Whether every entry of a table is unused. -/
def is_empty (self : UserTables) (id : TableId) : Bool :=
  if id.level = 1 then
    self.leaves.all fun entry => (table_of 1 entry.1).position != id.position
  else
    self.tables.all fun entry =>
      !(entry.1.level + 1 == id.level && entry.1.position / 512 == id.position)

def add_table (self : UserTables) (id : TableId) (frame : PhysFrame) : UserTables :=
  { self with tables := (id, frame) :: self.tables }

def remove_table (self : UserTables) (id : TableId) : UserTables :=
  { self with tables := self.tables.filter fun entry => entry.1 != id }

def add_leaf (self : UserTables) (page : Page) (frame : PhysFrame) (flags : PageTableFlags) : UserTables :=
  { self with leaves := (page, frame, flags) :: self.leaves }

def remove_leaf (self : UserTables) (page : Page) : UserTables :=
  { self with leaves := self.leaves.filter fun entry => entry.1 != page }

/-- The frames that hold the tables and back the pages. -/
def frames (self : UserTables) : List PhysFrame :=
  self.tables.map Prod.snd ++ self.leaves.map fun entry => entry.2.1

end UserTables

namespace BootInfoFrameAllocator

open Prog

variable {ε : Type}

/-- `allocate_frame` for a caller with its own error type; it has no error case. -/
def allocate : Prog BootInfoFrameAllocator ε (Option PhysFrame) := fun self =>
  match allocate_frame self with
  | (.ok frame, after) => (.ok frame, after)
  | (.err _, after) | (.panic, after) => (.panic, after)

/-- `assert!(self.reclaim_frame(frame))`. -/
def assert_reclaimed (frame : PhysFrame) : Prog BootInfoFrameAllocator ε Unit := fun self =>
  match self.reclaim_frame frame with
  | (true, after) => (.ok (), after)
  | (false, after) => (.panic, after)

end BootInfoFrameAllocator

/-- The page-table crate on the tables of one root, with the allocator it is given. -/
abbrev MapperM (ε : Type) : Type → Type := Prog (UserTables × BootInfoFrameAllocator) ε

namespace MapperM

open Prog BootInfoFrameAllocator

variable {ε : Type}

def with_allocator {α : Type} (method : Prog BootInfoFrameAllocator ε α) : MapperM ε α :=
  zoom Prod.snd (fun frame_allocator state => (state.1, frame_allocator)) method

def change_tables (update : UserTables → UserTables) : MapperM ε Unit :=
  modify fun (tables, frame_allocator) => (update tables, frame_allocator)

/-- One step of the walk of `map_to`: a missing table is allocated. -/
def create_next_table (id : TableId) : MapperM MapToError Unit := do
  let (tables, _) ← get
  if (tables.table id).isNone then
    let found ← with_allocator allocate
    let frame ← okOr found .FrameAllocationFailed
    change_tables fun tables => tables.add_table id frame

/-- `map_to` for a page under the user slot. -/
def map_to (page : Page) (frame : PhysFrame) (flags : PageTableFlags) : MapperM MapToError Unit := do
  create_next_table (table_of 3 page)
  create_next_table (table_of 2 page)
  create_next_table (table_of 1 page)
  let (tables, _) ← get
  if (tables.leaf page).isSome then
    throw .PageAlreadyMapped
  else
    change_tables fun tables => tables.add_leaf page frame flags

def unmap (page : Page) : MapperM UnmapError PhysFrame := do
  let (tables, _) ← get
  let (frame, _) ← okOr (tables.leaf page) .PageNotMapped
  change_tables fun tables => tables.remove_leaf page
  return frame

/-- One level of `clean_up_addr_range`: an empty table goes back to the allocator. -/
def clean_up_table (id : TableId) : MapperM Empty Unit := do
  let (tables, _) ← get
  match tables.table id with
  | none => pure ()
  | some frame =>
    if tables.is_empty id then
      change_tables fun tables => tables.remove_table id
      with_allocator (assert_reclaimed frame)

/-- `clean_up_addr_range` for a single page: the tables on its path, from the
lowest level up. It has no error case. -/
def clean_up_addr_range (page : Page) : MapperM Empty Unit := do
  clean_up_table (table_of 1 page)
  clean_up_table (table_of 2 page)
  clean_up_table (table_of 3 page)

end MapperM

end leafos.memory
