import Mathlib.Algebra.GroupWithZero.Nat
import Mathlib.Data.Nat.Notation

namespace leafos.memory

def PAGE_SIZE : Nat := 4096
def USER_PML4_INDEX : Nat := 255
def USER_SPACE_START : Nat := USER_PML4_INDEX * 2 ^ 39
def USER_SPACE_END : Nat := USER_SPACE_START + 2 ^ 39

/-- A physical frame, named by its start address. -/
abbrev PhysFrame : Type := Nat

/-- A virtual page, named by its start address divided by the page size. -/
abbrev Page : Type := Nat

inductive MemoryError where
  | MissingMemoryMap
  | InvalidMemoryMap
  | InvalidPhysicalAddressWidth
  | InvalidBootInfo
  | InvalidPageTableRoot
  | InvalidPhysicalMemoryOffset
  | PhysicalAddressOutOfRange
  | FrameReclaimCapacityExceeded
  | NotInitialized
  | FrameAllocationFailed
  | NoUserAddressSpaceSlot
deriving Repr, DecidableEq

/-- The errors of the page-table crate's `map_to`. -/
inductive MapToError where
  | FrameAllocationFailed
  | ParentEntryHugePage
  | PageAlreadyMapped
deriving Repr, DecidableEq

/-- The errors of the page-table crate's `unmap`. -/
inductive UnmapError where
  | ParentEntryHugePage
  | PageNotMapped
  | InvalidFrameAddress
deriving Repr, DecidableEq

inductive MappingError where
  | PhysicalAddressOutOfRange
  | InvalidPageTableRoot
  | Mapper (error : MapToError)
deriving Repr, DecidableEq

inductive UnmappingError where
  | PageNotMapped
  | FrameNotAllocatorOwned
  | ReclaimCapacityExceeded
  | Mapper (error : UnmapError)
deriving Repr, DecidableEq

inductive UserPageAccess where
  | ReadOnly
  | ReadWrite
  | ReadExecute
deriving Repr, DecidableEq

inductive AddressSpaceError where
  | Memory (error : MemoryError)
  | Mapping (error : MappingError)
  | Unmapping (error : UnmappingError)
  | InvalidUserPage
  | DuplicateUserPage
  | UserPageNotMapped
  | AllocationFailed
  | Released
  | ActiveAddressSpace
deriving Repr, DecidableEq

/-- The kernel's record of a user address space: its root table until it is
released, and the user pages in the order in which they were mapped. -/
structure AddressSpace where
  root : Option PhysFrame
  user_pages : List (Page × UserPageAccess)
deriving Repr, DecidableEq

end leafos.memory
