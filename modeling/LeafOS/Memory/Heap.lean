import LeafOS.Memory.Paging
import Mathlib.Data.List.Sort

namespace leafos.memory

open Prog

/-- `checked_sub` on unsigned integers. -/
def checked_sub (left right : Nat) : Option Nat := if right ≤ left then some (left - right) else none

namespace BootInfoFrameAllocator

/-- The inner loop of `available_frame_count`: the reserved ranges, in order of their
start, are taken off the page count; `reserved_cursor` is where the last one ended. -/
def unreserved_pages (range : PhysicalRange) : List PhysicalRange → Nat → Nat → Nat
  | [], pages, _ => pages
  | reserved :: rest, pages, reserved_cursor =>
    let overlap_start := max range.start reserved.start
    let overlap_end := min range.stop reserved.stop
    if overlap_start < overlap_end then
      let unique_start := max overlap_start reserved_cursor
      let pages := if unique_start < overlap_end then pages - (overlap_end - unique_start) / PAGE_SIZE else pages
      unreserved_pages range rest pages (max reserved_cursor overlap_end)
    else
      unreserved_pages range rest pages reserved_cursor

/-- Cached frames and conventional frames ahead of the cursor. -/
def available_frame_count {ε : Type} (self : BootInfoFrameAllocator) : Outcome ε Nat :=
  count (self.reserved_ranges.insertionSort fun range other => range.start ≤ other.start)
    (List.range' self.descriptor_index (self.descriptor_count - self.descriptor_index)) self.reclaimed_count
where
  count (reserved_ranges : List PhysicalRange) : List Nat → Nat → Outcome ε Nat
    | [], total => .ok total
    | index :: rest, total => do
      let descriptor ← Outcome.expect (read_descriptor self.memory_map self.descriptor_size index)
      let first_page := if index = self.descriptor_index then self.page_index else 0
      if descriptor.memory_type ≠ EFI_CONVENTIONAL_MEMORY ∨ descriptor.number_of_pages ≤ first_page then
        count reserved_ranges rest total
      else
        let offset ← Outcome.expect (checked_mul first_page PAGE_SIZE)
        let start ← Outcome.expect (checked_add descriptor.physical_start offset)
        let region_size ← Outcome.expect (checked_mul descriptor.number_of_pages PAGE_SIZE)
        let stop ← Outcome.expect (checked_add descriptor.physical_start region_size)
        let pages := unreserved_pages ⟨start, stop⟩ reserved_ranges (descriptor.number_of_pages - first_page) start
        count reserved_ranges rest (min (total + pages) (2 ^ 64 - 1))

end BootInfoFrameAllocator

namespace MemoryManager

open BootInfoFrameAllocator

/-- `map_to` on the manager's own mapper, which is that of the kernel's root. The
manager's `physical_limit` is the allocator's. -/
def map_to (kernel_root : PhysFrame) (page : Page) (frame : PhysFrame) (flags : PageTableFlags) :
    ManagerM MappingError Unit := do
  let self ← get
  if self.frame_allocator.physical_limit ≤ frame ∨ self.frame_allocator.physical_limit < frame + PAGE_SIZE then
    throw .PhysicalAddressOutOfRange
  else
    match ← attempt (with_mapper kernel_root (·.map_to page frame flags)) with
    | .ok _ => return ()
    | .error error =>
      clean_up kernel_root page
      throw (.Mapper error)

def allocate_and_map (kernel_root : PhysFrame) (page : Page) (flags : PageTableFlags) :
    ManagerM MappingError PhysFrame := do
  let found ← with_allocator allocate
  let frame ← okOr found (.Mapper .FrameAllocationFailed)
  match ← attempt (map_to kernel_root page frame flags) with
  | .ok _ => return frame
  | .error error =>
    with_allocator (assert_reclaimed frame)
    throw error

def unmap_and_deallocate (kernel_root : PhysFrame) (page : Page) : ManagerM UnmappingError Unit := do
  let self ← get
  if RECLAIMED_FRAME_CAPACITY - MAX_FRAMES_RECLAIMED_PER_UNMAP < self.frame_allocator.reclaimed_count then
    throw .ReclaimCapacityExceeded
  else
    let (frame, _) ← okOr ((self.page_tables kernel_root).leaf page) .PageNotMapped
    match self.frame_allocator.is_allocatable_frame frame with
    | .ok true =>
      let unmapped_frame ← mapErr .Mapper (with_mapper kernel_root (·.unmap page))
      assert (unmapped_frame = frame)
      with_allocator (assert_reclaimed frame)
      clean_up kernel_root page
    | .ok false => throw .FrameNotAllocatorOwned
    | .err _ | .panic => panic

end MemoryManager

namespace heap

def HEAP_SIZE : Nat := 1024 * 1024
def HEAP_PAGES : Nat := HEAP_SIZE / PAGE_SIZE
def HEAP_GROWTH_PAGES : Nat := HEAP_PAGES
def PML4_SLOT_SIZE : Nat := 2 ^ 39
def LOWER_HALF_PML4_ENTRIES : Nat := 256
def PML4_SLOT_PAGES : Nat := PML4_SLOT_SIZE / PAGE_SIZE
def PAGES_PER_PAGE_TABLE : Nat := 512
def PAGES_PER_PAGE_DIRECTORY : Nat := 2 ^ 18

inductive HeapError where
  | Memory (error : MemoryError)
  | Mapping (error : MappingError)
  | AlreadyInitialized
  | NoVirtualRange
  | InsufficientPhysicalMemory
  | RollbackFailed
deriving Repr, DecidableEq

def ceil_div (value divisor : Nat) : Option Nat := do
  let before ← checked_sub divisor 1
  let sum ← checked_add value before
  if divisor = 0 then none else return sum / divisor

def added_table_pages (previous_pages growth_pages pages_per_table : Nat) : Option Nat := do
  let end_pages ← checked_add previous_pages growth_pages
  let after ← ceil_div end_pages pages_per_table
  let before ← ceil_div previous_pages pages_per_table
  checked_sub after before

/-- The frames that a growth takes: its pages, and the tables that it reaches first. -/
def required_frames_for_growth (previous_pages growth_pages : Nat) : Option Nat := do
  if growth_pages = 0 then
    none
  else
    let page_tables ← added_table_pages previous_pages growth_pages PAGES_PER_PAGE_TABLE
    let leaf_and_pt ← checked_add growth_pages page_tables
    let directories ← added_table_pages previous_pages growth_pages PAGES_PER_PAGE_DIRECTORY
    let with_pd ← checked_add leaf_and_pt directories
    checked_add with_pd (if previous_pages = 0 then 1 else 0)

def growth_chunk_pages (target_total_pages already_mapped_pages available_pages : Nat) : Nat :=
  let desired_pages :=
    if already_mapped_pages < target_total_pages then target_total_pages - already_mapped_pages
    else HEAP_GROWTH_PAGES
  min (min desired_pages HEAP_GROWTH_PAGES) available_pages

/-- The slot of a heap that starts there: one of the lower half, but not the first. -/
def slot_index (start_address : Nat) : Option Nat :=
  if start_address % PML4_SLOT_SIZE ≠ 0 then
    none
  else
    let slot_index := start_address / PML4_SLOT_SIZE
    if slot_index = 0 ∨ LOWER_HALF_PML4_ENTRIES ≤ slot_index then none else some slot_index

def available_pages_in_slot (heap_start mapped_pages : Nat) : Option Nat := do
  let _ ← slot_index heap_start
  checked_sub PML4_SLOT_PAGES mapped_pages

/-- Where the growth starts, if the whole heap remains in its slot. -/
def checked_growth_start (heap_start mapped_pages additional_pages : Nat) : Option Nat := do
  if additional_pages = 0 then
    none
  else
    let slot_index ← slot_index heap_start
    let total_pages ← checked_add mapped_pages additional_pages
    let total_bytes ← checked_mul total_pages PAGE_SIZE
    let end_exclusive ← checked_add heap_start total_bytes
    let slot_end ← (checked_add slot_index 1).bind fun next => checked_mul next PML4_SLOT_SIZE
    let last ← checked_sub end_exclusive 1
    if slot_end < end_exclusive ∨ !canonical last then
      none
    else
      let offset ← checked_mul mapped_pages PAGE_SIZE
      (checked_add heap_start offset).filter canonical

/-- `PRESENT | WRITABLE | NO_EXECUTE`. -/
def HEAP_PAGE_FLAGS : PageTableFlags :=
  { present := true, writable := true, user_accessible := false, no_execute := true }

/-- `Page::containing_address(growth_start + mapped_pages * PAGE_SIZE)`. -/
def growth_page (growth_start mapped_pages : Nat) : Page := (growth_start + mapped_pages * PAGE_SIZE) / PAGE_SIZE

end heap

end leafos.memory
