import LeafOS.Memory.Heap

namespace leafos.memory.heap

open Prog

def MIN_HOLE_SIZE : Nat := 16

/-- `core::alloc::Layout`. -/
structure Layout where
  size : Nat
  align : Nat
deriving Repr, DecidableEq

/-- The least total of pages that can hold an allocation, and one that allows for its alignment. -/
def growth_pages_for_layout (layout : Layout) : Option (Nat × Nat) := do
  let allocation_bytes := max layout.size MIN_HOLE_SIZE
  let minimum_bytes ← checked_add allocation_bytes (PAGE_SIZE - 1)
  let minimum_pages := minimum_bytes / PAGE_SIZE
  let slack ← checked_sub layout.align 1
  let aligned_bytes ← checked_add allocation_bytes slack
  let rounded_aligned_bytes ← checked_add aligned_bytes (PAGE_SIZE - 1)
  let target_pages := rounded_aligned_bytes / PAGE_SIZE
  return (minimum_pages, target_pages)

/-- The calls that the loops of `grow` make. Pages are allocated with `HEAP_PAGE_FLAGS`. -/
structure PageCalls (M : Type) where
  allocate_and_map : Page → Prog M MappingError PhysFrame
  unmap_and_deallocate : Page → Prog M UnmappingError Unit

/-- What the kernel allocator calls of the memory manager. -/
structure Manager (M : Type) extends PageCalls M where
  first_unused_low_half_page : M → Option Nat
  available_frame_count : M → Outcome HeapError Nat

/-- What it calls of `linked_list_allocator::Heap`. -/
structure HeapMethods (H : Type) where
  init : Nat → Nat → H → H
  extend : Nat → H → H
  allocate_first_fit : Layout → H → Option Nat × H

namespace PageCalls

variable {M : Type} (calls : PageCalls M)

/-- The rollback of `grow`, from the last mapped page on; whether an unmapping failed. -/
def roll_back (growth_start : Nat) : Nat → Prog M HeapError Bool
  | 0 => return false
  | mapped_pages + 1 => do
    match ← attempt (calls.unmap_and_deallocate (growth_page growth_start mapped_pages)) with
    | .ok _ => roll_back growth_start mapped_pages
    | .error _ =>
      let _ ← roll_back growth_start mapped_pages
      return true

/-- The loop of `grow`: pages still to map, and pages mapped so far. -/
def map_growth (growth_start : Nat) : Nat → Nat → Prog M HeapError Unit
  | 0, _ => return ()
  | remaining + 1, mapped_pages => do
    match ← attempt (calls.allocate_and_map (growth_page growth_start mapped_pages)) with
    | .ok _ => map_growth growth_start remaining (mapped_pages + 1)
    | .error error =>
      let rollback_failed ← calls.roll_back growth_start mapped_pages
      if rollback_failed then throw .RollbackFailed else throw (.Mapping error)

end PageCalls

/-- The closure that `grow` runs on the memory manager: the start and the pages of the growth. What
it copied of the heap is `state`. -/
def Manager.extend_mapping {M : Type} (manager : Manager M) (state : HeapState) (target_total_pages : Nat) :
    Prog M HeapError (Nat × Nat) := do
  let self ← get
  let already_mapped_pages := state.mapped_pages
  let base ← okOr (state.start.or (manager.first_unused_low_half_page self)) .NoVirtualRange
  let available_pages ← okOr (available_pages_in_slot base already_mapped_pages) .NoVirtualRange
  let pages := growth_chunk_pages target_total_pages already_mapped_pages available_pages
  if pages = 0 then
    throw .NoVirtualRange
  else
    let growth_start ← okOr (checked_growth_start base already_mapped_pages pages) .NoVirtualRange
    let required_frames ← okOr (required_frames_for_growth already_mapped_pages pages) .InsufficientPhysicalMemory
    let available_frames ← manager.available_frame_count self
    if available_frames < required_frames then
      throw .InsufficientPhysicalMemory
    else
      manager.map_growth growth_start pages 0
      return (growth_start, pages)

/-- The global allocator: the free list, what it records about its mappings, and the memory
manager that it works on. -/
structure KernelAllocator (H M : Type) where
  free_list : H
  state : HeapState
  manager : M

namespace KernelAllocator

variable {H M : Type} (manager : Manager M) (methods : HeapMethods H)

/-- What `grow` does once its pages are mapped. -/
def commit (growth_start pages : Nat) (self : KernelAllocator H M) : KernelAllocator H M :=
  { self with
    free_list :=
      if self.state.start.isSome then methods.extend (pages * PAGE_SIZE) self.free_list
      else methods.init growth_start (pages * PAGE_SIZE) self.free_list
    state := { self.state with
      start := some (self.state.start.getD growth_start)
      mapped_pages := self.state.mapped_pages + pages } }

def on_manager {ε α : Type} (method : Prog M ε α) : Prog (KernelAllocator H M) ε α :=
  zoom KernelAllocator.manager (fun manager self => { self with manager }) method

def grow (target_total_pages : Nat) : Prog (KernelAllocator H M) HeapError Unit := do
  let self ← get
  if self.state.poisoned then
    throw .RollbackFailed
  else
    match ← attempt (on_manager (manager.extend_mapping self.state target_total_pages)) with
    | .ok (growth_start, pages) => modify (commit methods growth_start pages)
    | .error .RollbackFailed => do
      modify fun self => { self with state.poisoned := true }
      throw .RollbackFailed
    | .error error => throw error

/-- `heap::initialize`. -/
def initialize_heap : Prog (KernelAllocator H M) HeapError Unit := do
  let self ← get
  if self.state.initialized then
    throw .AlreadyInitialized
  else if self.state.poisoned then
    throw .RollbackFailed
  else
    grow manager methods HEAP_GROWTH_PAGES
    modify fun self => { self with state.initialized := true }

def allocate_first_fit (layout : Layout) : Prog (KernelAllocator H M) Empty (Option Nat) := fun self =>
  match methods.allocate_first_fit layout self.free_list with
  | (allocation, free_list) => (.ok allocation, { self with free_list })

/-- The loop of `alloc`, for a bounded number of turns. -/
def retry (layout : Layout) (target_total_pages : Nat) (target_requires_growth : Bool) :
    Nat → Prog (KernelAllocator H M) Empty (Option Nat)
  | 0 => panic
  | turns + 1 => do
    match ← attempt (grow manager methods target_total_pages) with
    | .error _ => return none
    | .ok _ =>
      match ← allocate_first_fit methods layout with
      | some allocation => return some allocation
      | none =>
        let self ← get
        if target_requires_growth && target_total_pages ≤ self.state.mapped_pages then
          return none
        else
          retry layout target_total_pages target_requires_growth turns

/-- `GlobalAlloc::alloc`; a null pointer is `none`. Every turn of its loop adds a page to a slot. -/
def alloc (layout : Layout) : Prog (KernelAllocator H M) Empty (Option Nat) := do
  let self ← get
  if !self.state.initialized || self.state.poisoned then
    return none
  else
    match ← allocate_first_fit methods layout with
    | some allocation => return some allocation
    | none =>
      match growth_pages_for_layout layout with
      | none => return none
      | some (minimum_total_pages, target_total_pages) =>
        if PML4_SLOT_PAGES < target_total_pages then
          return none
        else
          let target_requires_growth := decide (self.state.mapped_pages < target_total_pages)
          let turns := PML4_SLOT_PAGES + 1
          let minimum_additional_pages := minimum_total_pages - self.state.mapped_pages
          if minimum_additional_pages = 0 then
            retry manager methods layout target_total_pages target_requires_growth turns
          else
            match required_frames_for_growth self.state.mapped_pages minimum_additional_pages with
            | none => return none
            | some required_frames =>
              match manager.available_frame_count self.manager with
              | .panic => panic
              | .err _ => return none
              | .ok available_frames =>
                if available_frames < required_frames then
                  return none
                else
                  retry manager methods layout target_total_pages target_requires_growth turns

end KernelAllocator

/-- The memory manager, whose mapper is that of the kernel's root. -/
def root_calls (kernel_root : PhysFrame) : PageCalls MemoryManager where
  allocate_and_map page := MemoryManager.allocate_and_map kernel_root page HEAP_PAGE_FLAGS
  unmap_and_deallocate := MemoryManager.unmap_and_deallocate kernel_root

section RootCalls

variable (kernel_root : PhysFrame) (page : Page)

@[simp] theorem root_calls_allocate_and_map : (root_calls kernel_root).allocate_and_map page =
    MemoryManager.allocate_and_map kernel_root page HEAP_PAGE_FLAGS := rfl

@[simp] theorem root_calls_unmap_and_deallocate : (root_calls kernel_root).unmap_and_deallocate page =
    MemoryManager.unmap_and_deallocate kernel_root page := rfl

end RootCalls

abbrev roll_back (kernel_root : PhysFrame) : Nat → Nat → ManagerM HeapError Bool := (root_calls kernel_root).roll_back

abbrev map_growth (kernel_root : PhysFrame) : Nat → Nat → Nat → ManagerM HeapError Unit :=
  (root_calls kernel_root).map_growth

/-- The kernel's own memory manager, as its heap calls it. -/
def kernel_manager : Manager Paging where
  first_unused_low_half_page := Paging.first_unused_low_half_page
  available_frame_count self := self.manager.frame_allocator.available_frame_count
  allocate_and_map page := do
    let self ← get
    Paging.on_manager (MemoryManager.allocate_and_map self.kernel_root page HEAP_PAGE_FLAGS)
  unmap_and_deallocate page := do
    let self ← get
    Paging.on_manager (MemoryManager.unmap_and_deallocate self.kernel_root page)

/-- A method of the kernel's allocator, whose record of the heap is part of the state. Its free list
is left out: it does not touch the page tables. -/
def on_allocator (method : HeapMethods Unit → Prog (KernelAllocator Unit Paging) HeapError Unit) :
    Prog Paging HeapError Unit :=
  zoom (fun self => ⟨(), self.heap, self⟩) (fun after _ => { after.manager with heap := after.state })
    (method ⟨fun _ _ _ => (), fun _ _ => (), fun _ _ => (none, ())⟩)

def grow (target_total_pages : Nat) : Prog Paging HeapError Unit :=
  on_allocator fun methods => KernelAllocator.grow kernel_manager methods target_total_pages

def initialize_heap : Prog Paging HeapError Unit := on_allocator (KernelAllocator.initialize_heap kernel_manager)

end leafos.memory.heap
