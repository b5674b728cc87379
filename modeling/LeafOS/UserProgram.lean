import LeafOS.Memory.Manager

namespace leafos.user_program

open leafos.memory Prog

def RAW_PROGRAM_BASE : Nat := USER_SPACE_START + PAGE_SIZE
def APP_MAX_MEMORY_SIZE : Nat := 64 * 1024
def MAX_PROGRAM_ARGUMENTS : Nat := 16
def MAX_PROGRAM_ARGUMENT_BYTES : Nat := 1024
def USER_STACK_SIZE : Nat := 16 * 1024
def USER_STACK_TOP : Nat := USER_SPACE_START + 0x200000
def USER_STACK_ARGUMENT_RESERVE : Nat := 256

/-- The errors of loading an image that has been read. -/
inductive ProgramError where
  | EmptyImage
  | ImageTooLarge
  | InvalidAppFormat
  | UnsupportedAppVersion
  | InvalidArguments
  | AddressSpace (error : AddressSpaceError)
  | AddressSpaceCleanup (error : AddressSpaceError)
  | InvalidPhysicalAddress
deriving Repr, DecidableEq

structure LoadedProgram where
  address_space : AddressSpace
  entry : Nat
  stack : Nat
  argument_count : Nat
  argument_vector : Nat
  data_start : Option Nat
deriving Repr, DecidableEq

/-- `u64::to_le_bytes`. -/
def to_le_bytes (value : Nat) : List UInt8 :=
  (List.range 8).map fun index => UInt8.ofNat (value / 256 ^ index)

/-- `destination[offset..offset + source.len()].copy_from_slice(source)`. -/
def copy_from_slice (destination : List UInt8) (offset : Nat) (source : List UInt8) : Option (List UInt8) :=
  if offset + source.length ≤ destination.length then
    some (destination.take offset ++ source ++ destination.drop (offset + source.length))
  else
    none

/-- The loop of `build_argument_vector` over the strings from the given index on. -/
def place_arguments (stack_start : Nat) : Nat → Nat → List (List UInt8) → List UInt8 →
    Outcome ProgramError (List UInt8)
  | _, _, [], stack_data => .ok stack_data
  | index, string_offset, argument :: rest, stack_data => do
    let string_address ← Outcome.okOr (checked_add stack_start string_offset) .InvalidArguments
    let pointer_offset ← Outcome.okOr (checked_mul index 8) .InvalidArguments
    let stack_data ← Outcome.expect (copy_from_slice stack_data pointer_offset (to_le_bytes string_address))
    let string_end ← Outcome.okOr (checked_add string_offset argument.length) .InvalidArguments
    let stack_data ← Outcome.expect (copy_from_slice stack_data string_offset argument)
    place_arguments stack_start (index + 1) (string_end + 1) rest stack_data

/-- The bytes of all strings with their terminators. -/
def strings_size (path : List UInt8) (arguments : List (List UInt8)) : Option Nat := do
  arguments.foldlM (fun total argument => do checked_add (← checked_add total argument.length) 1)
    (← checked_add path.length 1)

/-- `reserved` is the outcome of reserving the block on the heap. -/
def build_argument_vector (path : List UInt8) (arguments : List (List UInt8)) (reserved : Bool) :
    Outcome ProgramError (List UInt8 × Nat) := do
  if MAX_PROGRAM_ARGUMENTS < arguments.length ∨ 0 ∈ path ∨ ∃ argument ∈ arguments, 0 ∈ argument then
    .err .InvalidArguments
  else
    let argument_count ← Outcome.okOr (checked_add arguments.length 1) .InvalidArguments
    let pointers ← Outcome.okOr (checked_add argument_count 1) .InvalidArguments
    let pointer_bytes ← Outcome.okOr (checked_mul pointers 8) .InvalidArguments
    let strings_bytes ← Outcome.okOr (strings_size path arguments) .InvalidArguments
    if MAX_PROGRAM_ARGUMENT_BYTES < strings_bytes then
      .err .InvalidArguments
    else
      let unaligned_size ← Outcome.okOr (checked_add pointer_bytes strings_bytes) .InvalidArguments
      let padded_size ← Outcome.okOr (checked_add unaligned_size 7) .InvalidArguments
      let total_size := padded_size / 8 * 8
      if USER_STACK_SIZE < total_size then
        .err .InvalidArguments
      else if !reserved then
        .err .InvalidArguments
      else
        let stack_start := USER_STACK_TOP - USER_STACK_ARGUMENT_RESERVE - total_size
        let stack_data ← place_arguments stack_start 0 pointer_bytes (path :: arguments)
          (List.replicate total_size 0)
        return (stack_data, argument_count)

/-- The loop of `copy_to_pages`: the writes that copy the bytes from position
`copied` on, each as the address it goes to and the bytes. -/
def copy_chunks (bytes : List UInt8) (physical_offset : Nat) : List (Page × PhysFrame) → Nat → Nat →
    Outcome ProgramError (Nat × List (Nat × List UInt8))
  | [], copied, _ => .ok (copied, [])
  | (page, frame) :: rest, copied, current_address =>
    let page_start := page * PAGE_SIZE
    if copied = bytes.length then
      .ok (copied, [])
    else if page_start + PAGE_SIZE ≤ current_address then
      copy_chunks bytes physical_offset rest copied current_address
    else if current_address < page_start then
      .err (.AddressSpace .UserPageNotMapped)
    else do
      let page_offset := current_address - page_start
      let chunk_len := min (bytes.length - copied) (PAGE_SIZE - page_offset)
      let base ← Outcome.okOr (checked_add physical_offset frame) .InvalidPhysicalAddress
      let address ← Outcome.okOr (checked_add base page_offset) .InvalidPhysicalAddress
      let destination ← Outcome.okOr ((some address).filter canonical) .InvalidPhysicalAddress
      let (total, writes) ← copy_chunks bytes physical_offset rest (copied + chunk_len)
        (current_address + chunk_len)
      return (total, (destination, (bytes.drop copied).take chunk_len) :: writes)

/-- The writes of `copy_to_pages`. The pages must cover the segment. -/
def copy_to_pages (bytes : List UInt8) (pages : List (Page × PhysFrame)) (physical_offset : Nat)
    (destination_start : Nat) : Outcome ProgramError (List (Nat × List UInt8)) := do
  let (copied, writes) ← copy_chunks bytes physical_offset pages 0 destination_start
  if copied = bytes.length then return writes else .panic

/-- One of the mapping loops of `load_segments`, over the remaining page indices.
`reserved` tells for each page whether the list of user pages could grow. -/
def map_pages (start : Nat) (access : UserPageAccess) (reserved : Nat → Bool) :
    List Nat → AddressSpace.SpaceM (List (Page × PhysFrame))
  | [] => return []
  | page_index :: rest => do
    let page := (start + page_index * PAGE_SIZE) / PAGE_SIZE
    let frame ← AddressSpace.map_user_page page access (reserved page_index)
    let pages ← map_pages start access reserved rest
    return (page, frame) :: pages

/-- A computation that touches no state. -/
def lift_outcome {σ α : Type} (outcome : Outcome ProgramError α) : Prog σ ProgramError α :=
  fun state => (outcome, state)

/-- The closure of `load_segments`: map the three regions and copy the contents.
The copies are returned; frame contents are not part of the manager. -/
def fill_address_space (code data argument_data : List UInt8)
    (code_page_count data_page_count data_start stack_start argument_vector : Nat) (reserved : Nat → Bool) :
    Prog (AddressSpace × MemoryManager) ProgramError (List (Nat × List UInt8)) := do
  let stack_page_count := USER_STACK_SIZE / PAGE_SIZE
  let (_, manager) ← get
  let code_pages ← mapErr .AddressSpace (map_pages RAW_PROGRAM_BASE .ReadExecute reserved
    (List.range code_page_count))
  let data_pages ← mapErr .AddressSpace (map_pages data_start .ReadWrite
    (fun page_index => reserved (code_page_count + page_index)) (List.range data_page_count))
  let stack_pages ← mapErr .AddressSpace (map_pages stack_start .ReadWrite
    (fun page_index => reserved (code_page_count + data_page_count + page_index))
    (List.range stack_page_count))
  let code_writes ← lift_outcome (copy_to_pages code code_pages manager.physical_memory_offset
    RAW_PROGRAM_BASE)
  let data_writes ← lift_outcome (copy_to_pages data data_pages manager.physical_memory_offset data_start)
  let argument_writes ← lift_outcome (copy_to_pages argument_data stack_pages
    manager.physical_memory_offset argument_vector)
  return code_writes ++ data_writes ++ argument_writes

/-- What the heap answers during one load: for the argument block, for the three
lists of pages, and for each page that is mapped. -/
structure Reservations where
  argument_block : Bool
  page_lists : Bool
  user_pages : Nat → Bool

def Reservations.granted : Reservations := ⟨true, true, fun _ => true⟩

/-- The checks of `load_segments` on the segments, before anything is allocated:
the page counts and the start of the data. -/
def segment_layout (code data : List UInt8) (bss_len entry_offset : Nat) :
    Outcome ProgramError (Nat × Nat × Nat) := do
  if code = [] then
    .err .EmptyImage
  else
    let data_memory_len ← Outcome.okOr (checked_add data.length bss_len) .ImageTooLarge
    let memory_size ← Outcome.okOr (checked_add code.length data_memory_len) .ImageTooLarge
    if APP_MAX_MEMORY_SIZE < memory_size then
      .err .ImageTooLarge
    else if code.length ≤ entry_offset then
      .err .InvalidAppFormat
    else
      let code_page_count := (code.length + PAGE_SIZE - 1) / PAGE_SIZE
      let data_page_count := (data_memory_len + PAGE_SIZE - 1) / PAGE_SIZE
      let code_mapped_size ← Outcome.okOr (checked_mul code_page_count PAGE_SIZE) .ImageTooLarge
      let data_start ← Outcome.okOr (checked_add RAW_PROGRAM_BASE code_mapped_size) .ImageTooLarge
      let data_mapped_size ← Outcome.okOr (checked_mul data_page_count PAGE_SIZE) .ImageTooLarge
      let data_end ← Outcome.okOr (checked_add data_start data_mapped_size) .ImageTooLarge
      if USER_STACK_TOP - USER_STACK_SIZE - PAGE_SIZE < data_end then
        .err .ImageTooLarge
      else
        return (code_page_count, data_page_count, data_start)

/-- The end of `load_segments`: fill the new space, or destroy it again when that fails.
What a failed `destroy` leaves is lost with the local variable. -/
def fill_or_destroy {α : Type} (active : PhysFrame)
    (fill : Prog (AddressSpace × MemoryManager) ProgramError α) (space : AddressSpace) :
    Prog MemoryManager ProgramError AddressSpace := fun manager =>
  match fill (space, manager) with
  | (.ok _, (space, manager)) => (.ok space, manager)
  | (.err error, (space, manager)) =>
    match AddressSpace.destroy active (space, manager) with
    | (.ok _, (_, manager)) => (.err error, manager)
    | (.err cleanup, (_, manager)) => (.err (.AddressSpaceCleanup cleanup), manager)
    | (.panic, (_, manager)) => (.panic, manager)
  | (.panic, (_, manager)) => (.panic, manager)

/-- `active` is the root in `cr3`. -/
def load_segments (active : PhysFrame) (code data : List UInt8) (bss_len entry_offset : Nat)
    (path : List UInt8) (arguments : List (List UInt8)) (reservations : Reservations) :
    Prog MemoryManager ProgramError LoadedProgram := do
  let (code_page_count, data_page_count, data_start) ←
    lift_outcome (segment_layout code data bss_len entry_offset)
  let (argument_data, argument_count) ←
    lift_outcome (build_argument_vector path arguments reservations.argument_block)
  let stack_start := USER_STACK_TOP - USER_STACK_SIZE
  let argument_vector := USER_STACK_TOP - USER_STACK_ARGUMENT_RESERVE - argument_data.length
  if !reservations.page_lists then
    throw (.AddressSpace .AllocationFailed)
  else
    let space ← mapErr (fun error => .AddressSpace (.Memory error)) MemoryManager.create_address_space
    let address_space ← fill_or_destroy active (fill_address_space code data argument_data code_page_count
      data_page_count data_start stack_start argument_vector reservations.user_pages) space
    return {
      address_space
      entry := RAW_PROGRAM_BASE + entry_offset
      stack := USER_STACK_TOP
      argument_count
      argument_vector
      data_start := if data_page_count ≠ 0 then some data_start else none }

end leafos.user_program
