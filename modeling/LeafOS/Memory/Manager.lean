import LeafOS.Memory.Mapping

namespace leafos.memory

open Prog

def MAX_FRAMES_RECLAIMED_PER_UNMAP : Nat := 4

/-- `VirtAddr::try_new`: the upper 17 bits are all equal. -/
def canonical (address : Nat) : Bool := address < 2 ^ 47 || 2 ^ 64 - 2 ^ 47 ≤ address

def UserPageAccess.flags (access : UserPageAccess) : PageTableFlags :=
  match access with
  | .ReadOnly => { present := true, writable := false, user_accessible := true, no_execute := true }
  | .ReadWrite => { present := true, writable := true, user_accessible := true, no_execute := true }
  | .ReadExecute => { present := true, writable := false, user_accessible := true, no_execute := false }

/-- The memory manager: the page-table crate, the frame allocator, where physical memory is mapped, and
what the tables of each root hold under the user slot. The kernel's own root
never changes that slot, so only whether it is unused is kept. -/
structure MemoryManager where
  mapper : Mapper
  frame_allocator : BootInfoFrameAllocator
  physical_memory_offset : Nat
  kernel_user_slot_unused : Bool
  page_tables : PhysFrame → UserTables

abbrev ManagerM (ε : Type) : Type → Type := Prog MemoryManager ε

namespace MemoryManager

open BootInfoFrameAllocator

variable {ε : Type}

def with_allocator {α : Type} (method : Prog BootInfoFrameAllocator ε α) : ManagerM ε α :=
  zoom frame_allocator (fun frame_allocator self => { self with frame_allocator }) method

/-- Run a method of the mapper for one root, with the manager's allocator. -/
def with_mapper {α : Type} (root : PhysFrame) (method : Mapper → MapperM ε α) : ManagerM ε α := fun self =>
  zoom (fun self => (self.page_tables root, self.frame_allocator))
    (fun (tables, frame_allocator) self => { self with
      page_tables := Function.update self.page_tables root tables
      frame_allocator }) (method self.mapper) self

/-- `clean_up_addr_range` for a caller with its own error type. -/
def clean_up (root : PhysFrame) (page : Page) : ManagerM ε Unit :=
  mapErr Empty.elim (with_mapper root (·.clean_up_addr_range page))

def physical_to_virtual (self : MemoryManager) (frame : PhysFrame) : Option Nat :=
  (checked_add self.physical_memory_offset frame).filter canonical

def deallocate_frame (frame : PhysFrame) : ManagerM MemoryError Unit :=
  with_allocator (BootInfoFrameAllocator.deallocate_frame frame)

def create_address_space : ManagerM MemoryError AddressSpace := do
  let self ← get
  if !self.kernel_user_slot_unused then
    throw .NoUserAddressSpaceSlot
  else
    let found ← with_allocator allocate
    let root ← okOr found .FrameAllocationFailed
    match self.physical_to_virtual root with
    | none => do
      with_allocator (assert_reclaimed root)
      throw .InvalidPhysicalMemoryOffset
    | some _ => do
      modify fun self => { self with page_tables := Function.update self.page_tables root .new }
      return { root := some root, user_pages := [] }

def map_user_page (root : PhysFrame) (page : Page) (access : UserPageAccess) :
    ManagerM MappingError PhysFrame := do
  let self ← get
  let found ← with_allocator allocate
  let frame ← okOr found (.Mapper .FrameAllocationFailed)
  match self.physical_to_virtual frame with
  | none => do
    with_allocator (assert_reclaimed frame)
    throw .PhysicalAddressOutOfRange
  | some _ =>
    match self.physical_to_virtual root with
    | none => do
      with_allocator (assert_reclaimed frame)
      throw .InvalidPageTableRoot
    | some _ =>
      match ← attempt (with_mapper root (·.map_to page frame access.flags)) with
      | .ok _ => return frame
      | .error error =>
        clean_up root page
        with_allocator (assert_reclaimed frame)
        throw (.Mapper error)

def unmap_page (root : PhysFrame) (page : Page) : ManagerM UnmappingError Unit := do
  let self ← get
  if RECLAIMED_FRAME_CAPACITY - MAX_FRAMES_RECLAIMED_PER_UNMAP < self.frame_allocator.reclaimed_count then
    throw .ReclaimCapacityExceeded
  else
    let _ ← okOr (self.physical_to_virtual root) .PageNotMapped
    let (frame, _) ← okOr ((self.page_tables root).leaf page) .PageNotMapped
    match self.frame_allocator.is_allocatable_frame frame with
    | .ok true =>
      let unmapped_frame ← mapErr .Mapper (with_mapper root (·.unmap page))
      assert (unmapped_frame = frame)
      with_allocator (assert_reclaimed frame)
      clean_up root page
    | .ok false => throw .FrameNotAllocatorOwned
    | .err _ | .panic => panic

end MemoryManager

namespace AddressSpace

/-- Methods of `AddressSpace`, which also work on the global memory manager. -/
abbrev SpaceM : Type → Type := Prog (AddressSpace × MemoryManager) AddressSpaceError

/-- `with_manager` on an initialised manager, with its error converted. -/
def with_manager {ε α : Type} (convert : ε → AddressSpaceError) (method : ManagerM ε α) : SpaceM α :=
  mapErr convert (zoom Prod.snd (fun manager state => (state.1, manager)) method)

/-- `reserved` is the outcome of `try_reserve` on the list of pages. -/
def map_user_page (page : Page) (access : UserPageAccess) (reserved : Bool) : SpaceM PhysFrame := do
  let (self, _) ← get
  let root ← okOr self.root .Released
  if p4_index page ≠ USER_PML4_INDEX then
    throw .InvalidUserPage
  else if self.user_pages.any fun mapped => mapped.1 == page then
    throw .DuplicateUserPage
  else if !reserved then
    throw .AllocationFailed
  else
    let frame ← with_manager .Mapping (MemoryManager.map_user_page root page access)
    modify fun (self, manager) => ({ self with user_pages := self.user_pages ++ [(page, access)] }, manager)
    return frame

def unmap_user_page (page : Page) : SpaceM Unit := do
  let (self, _) ← get
  let root ← okOr self.root .Released
  let index ← okOr (self.user_pages.findIdx? fun mapped => mapped.1 == page) .UserPageNotMapped
  with_manager .Unmapping (MemoryManager.unmap_page root page)
  modify fun (self, manager) => ({ self with user_pages := self.user_pages.eraseIdx index }, manager)

/-- The loop of `destroy`: pages are given back from the last one on. The first
argument lists the pages from the last. -/
def unmap_all (root : PhysFrame) : List (Page × UserPageAccess) → SpaceM Unit
  | [] => pure ()
  | (page, _) :: rest => do
    with_manager .Unmapping (MemoryManager.unmap_page root page)
    modify fun (self, manager) => ({ self with user_pages := self.user_pages.dropLast }, manager)
    unmap_all root rest

/-- `active` is the root in `cr3`. -/
def destroy (active : PhysFrame) : SpaceM Unit := do
  let (self, _) ← get
  let root ← okOr self.root .Released
  if active = root then
    throw .ActiveAddressSpace
  else
    unmap_all root self.user_pages.reverse
    with_manager .Memory (MemoryManager.deallocate_frame root)
    modify fun (self, manager) => ({ self with root := none }, manager)

end AddressSpace

end leafos.memory
