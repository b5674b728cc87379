import LeafOS.Memory.Manager

namespace leafos.memory

open Prog

def EFI_MEMORY_MAP_VERSION : UInt32 := 2
def EFI_MEMORY_DESCRIPTOR_VERSION : UInt32 := 1

/-- An entry of a page table. Of an entry that leads to another table the walk below
reads only the present bit and the user bit: the other rights are those of the leaf. -/
structure PageTableEntry where
  frame : PhysFrame
  flags : PageTableFlags
  huge_page : Bool
deriving Repr, DecidableEq

/-- `entry.flags() & !USER_ACCESSIBLE`. -/
def PageTableEntry.without_user (self : PageTableEntry) : PageTableEntry :=
  { self with flags := { self.flags with user_accessible := false } }

/-- Physical memory, read as page tables. An unused entry is `none`. -/
abbrev TableMemory : Type := PhysFrame → Nat → Option PageTableEntry

/-- Where a page lies, the flags of its leaf, and whether user code may pass at every
level. -/
structure Translation where
  address : Nat
  flags : PageTableFlags
  user_accessible : Bool
deriving Repr, DecidableEq

/-- The processor's walk through the tables from one level down. Level 4 is the root. -/
def walk (memory : TableMemory) : Nat → PhysFrame → Page → Option Translation
  | 0, _, _ => none
  | level + 1, table, page =>
    match memory table (page / 512 ^ level % 512) with
    | none => none
    | some entry =>
      -- the huge bit is reserved in the root
      if !entry.flags.present || (entry.huge_page && level == 3) then
        none
      else if level = 0 ∨ entry.huge_page then
        some ⟨entry.frame + page % 512 ^ level * PAGE_SIZE, entry.flags, entry.flags.user_accessible⟩
      else
        (walk memory level entry.frame page).map fun found =>
          { found with user_accessible := entry.flags.user_accessible && found.user_accessible }

/-- The page of a virtual address, of which the processor translates 48 bits. -/
def page_of (address : Nat) : Page := address % 2 ^ 48 / PAGE_SIZE

def translate (memory : TableMemory) (root : PhysFrame) (address : Nat) : Option Translation :=
  walk memory 4 root (page_of address)

def translate_addr (memory : TableMemory) (root : PhysFrame) (address : Nat) : Option Nat :=
  (translate memory root address).map fun found => found.address + address % PAGE_SIZE

/-- What the kernel allocator records about its mappings; `start` is the address of
the first heap page. -/
structure HeapState where
  initialized : Bool
  poisoned : Bool
  start : Option Nat
  mapped_pages : Nat
deriving Repr, DecidableEq

def HeapState.new : HeapState := ⟨false, false, none, 0⟩

/-- The memory manager with everything that its page tables depend on. The tables of
`kernel_root` in `manager` are those that the kernel added in slots that the loader
left unused. `loader` is what the loader left in memory, and `copies` what
`create_address_space` wrote into each root outside the user slot. -/
structure Paging where
  manager : MemoryManager
  kernel_root : PhysFrame
  loader : TableMemory
  copies : TableMemory
  spaces : List AddressSpace
  heap : HeapState

/-- What the kernel added to its own root. -/
abbrev Paging.kernel_tables (paging : Paging) : UserTables := paging.manager.page_tables paging.kernel_root

/-- `MemoryManager::create`; `active_root` is the root in `cr3`. -/
def create (mapper : Mapper) (version descriptor_version : UInt32) (physical_memory_offset : UInt64)
    (active_root : PhysFrame) (bits : Option UInt8) (memory : Nat → UInt8) (boot_info : BootInfo)
    (boot_info_address : UInt64) (loader : TableMemory) : Outcome MemoryError Paging := do
  let page_table_root := boot_info.page_table_root.toNat
  Outcome.refuse (version != EFI_MEMORY_MAP_VERSION || descriptor_version != EFI_MEMORY_DESCRIPTOR_VERSION ||
    page_table_root % PAGE_SIZE != 0) .InvalidBootInfo
  Outcome.refuse (active_root != page_table_root) .InvalidPageTableRoot
  let physical_limit ← physical_address_limit bits
  Outcome.refuse (2 ^ 52 ≤ page_table_root || physical_limit ≤ page_table_root) .InvalidPageTableRoot
  Outcome.refuse (!canonical physical_memory_offset.toNat) .InvalidPhysicalMemoryOffset
  let root_virtual_address ← Outcome.okOr
    ((checked_add physical_memory_offset.toNat page_table_root).filter canonical) .InvalidPhysicalMemoryOffset
  let frame_allocator ← BootInfoFrameAllocator.new memory boot_info boot_info_address physical_limit
  Outcome.refuse (root_virtual_address % PAGE_SIZE != 0) .InvalidPageTableRoot
  Outcome.refuse (translate_addr loader page_table_root root_virtual_address != some page_table_root)
    .InvalidPhysicalMemoryOffset
  return {
    manager := {
      mapper
      frame_allocator
      physical_memory_offset := physical_memory_offset.toNat
      kernel_user_slot_unused := (loader page_table_root USER_PML4_INDEX).isNone
      page_tables := fun _ => .new }
    kernel_root := active_root
    loader
    copies := fun _ _ => none
    spaces := []
    heap := .new }

namespace Paging

/-- The flags of an entry that `map_to` makes for a table. The user bit is that of
the pages below: all of them have it under a space's root, none under the kernel's. -/
def table_flags (self : Paging) (root : PhysFrame) : PageTableFlags :=
  { present := true, writable := true, user_accessible := root != self.kernel_root, no_execute := false }

/-- The entry that leads to a table. -/
def table_entry (self : Paging) (root : PhysFrame) (id : TableId) : Option PageTableEntry :=
  ((self.manager.page_tables root).table id).map fun frame => ⟨frame, self.table_flags root, false⟩

/-- The entries of a table below the root. -/
def row (self : Paging) (root : PhysFrame) (id : TableId) (index : Nat) : Option PageTableEntry :=
  if id.level = 1 then
    ((self.manager.page_tables root).leaf (id.position * 512 + index)).map fun (frame, flags) =>
      ⟨frame, flags, false⟩
  else
    self.table_entry root ⟨id.level - 1, id.position * 512 + index⟩

/-- The entries of the kernel's root table. -/
def kernel_entry (self : Paging) (index : Nat) : Option PageTableEntry :=
  (self.loader self.kernel_root index).or (self.table_entry self.kernel_root ⟨3, index⟩)

/-- The entries of a space's root table. -/
def root_entry (self : Paging) (root : PhysFrame) (index : Nat) : Option PageTableEntry :=
  if index = USER_PML4_INDEX then self.table_entry root ⟨3, index⟩ else self.copies root index

def live_roots (self : Paging) : List PhysFrame := self.spaces.filterMap AddressSpace.root

/-- The frames that hold tables, each with the root and the table it is for. -/
def table_frames (self : Paging) : List (PhysFrame × PhysFrame × TableId) :=
  (self.kernel_root :: self.live_roots).flatMap fun root =>
    (self.manager.page_tables root).tables.map fun (id, frame) => (frame, root, id)

/-- What the processor finds in memory when it reads a frame as a page table. -/
def contents (self : Paging) : TableMemory := fun frame index =>
  if frame = self.kernel_root then
    self.kernel_entry index
  else if frame ∈ self.live_roots then
    self.root_entry frame index
  else
    match self.table_frames.lookup frame with
    | some (root, id) => self.row root id index
    | none => self.loader frame index

/-- Run a method of the memory manager. -/
def on_manager {ε α : Type} (method : ManagerM ε α) : Prog Paging ε α :=
  zoom manager (fun manager self => { self with manager }) method

/-- `MemoryManager::create_address_space` with the entries that it copies into the
new root. -/
def create_address_space : Prog Paging MemoryError AddressSpace := do
  modify fun self => { self with manager.kernel_user_slot_unused := (self.kernel_entry USER_PML4_INDEX).isNone }
  let space ← on_manager MemoryManager.create_address_space
  match space.root with
  | none => pure ()
  | some root =>
    modify fun self => { self with
      copies := Function.update self.copies root fun index =>
        if index = USER_PML4_INDEX then none else (self.kernel_entry index).map PageTableEntry.without_user }
  modify fun self => { self with spaces := self.spaces ++ [space] }
  return space

/-- The first unused slot of the lower half, without the first one and the user's.
The page is given by its address. -/
def first_unused_low_half_page (self : Paging) : Option Nat :=
  (((List.range' 1 255).filter fun index => index != USER_PML4_INDEX).find? fun index =>
    (self.kernel_entry index).isNone).map fun index => index * 2 ^ 39

end Paging

end leafos.memory
