import LeafOS.Memory.Types
import LeafOS.Support.Bytes
import LeafOS.Support.Prog

namespace leafos.memory

def EFI_CONVENTIONAL_MEMORY : Nat := 7
def EFI_DESCRIPTOR_MIN_SIZE : Nat := 40
def RECLAIMED_FRAME_CAPACITY : Nat := 260

/-- `checked_add` on `u64` and on the 64-bit `usize`. -/
def checked_add (left right : Nat) : Option Nat :=
  if left + right < 2 ^ 64 then some (left + right) else none

/-- `checked_mul` on `u64` and on the 64-bit `usize`. -/
def checked_mul (left right : Nat) : Option Nat :=
  if left * right < 2 ^ 64 then some (left * right) else none

/-- The fields of the loader's handoff that the frame allocator reads. -/
structure BootInfo where
  system_table : UInt64
  memory_map : UInt64
  memory_map_size : UInt64
  descriptor_size : UInt64
  kernel_base : UInt64
  kernel_reserved_size : UInt64
  page_table_root : UInt64
  framebuffer_base : UInt64
  framebuffer_size : UInt64
deriving Repr, DecidableEq

/-- `size_of::<BootInfo>()`. -/
def BOOT_INFO_SIZE : Nat := 144

structure PhysicalRange where
  start : Nat
  stop : Nat
deriving Repr, DecidableEq

def PhysicalRange.EMPTY : PhysicalRange := ⟨0, 0⟩

def PhysicalRange.overlaps (self other : PhysicalRange) : Bool :=
  self.start < other.stop && other.start < self.stop

def PhysicalRange.contains (self : PhysicalRange) (address : Nat) : Bool :=
  self.start ≤ address && address < self.stop

structure EfiMemoryDescriptor where
  memory_type : Nat
  physical_start : Nat
  number_of_pages : Nat
deriving Repr, DecidableEq

/-- `bits` is what `cpuid` reports, if it reports anything. -/
def physical_address_limit (bits : Option UInt8) : Outcome MemoryError Nat :=
  Outcome.okOr ((bits.filter fun bits => 32 ≤ bits && bits ≤ 52).map fun bits => 2 ^ bits.toNat)
    .InvalidPhysicalAddressWidth

/-- The record at one position of the map. UEFI may use a stride larger than the
record. -/
def read_descriptor (memory_map : List UInt8) (descriptor_size index : Nat) :
    Option EfiMemoryDescriptor := do
  let offset ← checked_mul index descriptor_size
  let _ ← checked_add offset EFI_DESCRIPTOR_MIN_SIZE
  let descriptor_bytes ← Bytes.slice? memory_map offset EFI_DESCRIPTOR_MIN_SIZE
  return {
    memory_type := Bytes.decode (descriptor_bytes.take 4)
    physical_start := Bytes.decode ((descriptor_bytes.drop 8).take 8)
    number_of_pages := Bytes.decode ((descriptor_bytes.drop 24).take 8) }

/-- The descriptor's region, with the checked arithmetic of `validate_memory_map`. -/
def region (memory_map : List UInt8) (descriptor_size index : Nat) :
    Outcome MemoryError (EfiMemoryDescriptor × PhysicalRange) := do
  let descriptor ← Outcome.okOr (read_descriptor memory_map descriptor_size index) .InvalidMemoryMap
  let region_size ← Outcome.okOr (checked_mul descriptor.number_of_pages PAGE_SIZE) .InvalidMemoryMap
  let region_end ← Outcome.okOr (checked_add descriptor.physical_start region_size) .InvalidMemoryMap
  return (descriptor, ⟨descriptor.physical_start, region_end⟩)

def validate_memory_map (memory_map : List UInt8) (descriptor_size physical_limit : Nat) :
    Outcome MemoryError Nat := do
  Outcome.refuse (descriptor_size < EFI_DESCRIPTOR_MIN_SIZE || memory_map.isEmpty ||
    memory_map.length % descriptor_size != 0 || physical_limit ≤ PAGE_SIZE) .InvalidMemoryMap
  let descriptor_count := memory_map.length / descriptor_size
  Outcome.forEach (List.range descriptor_count) fun index => do
    let (descriptor, current) ← region memory_map descriptor_size index
    Outcome.refuse (descriptor.number_of_pages == 0 || descriptor.physical_start % PAGE_SIZE != 0 ||
      physical_limit ≤ descriptor.physical_start || physical_limit < current.stop) .InvalidMemoryMap
    Outcome.forEach (List.range index) fun other_index => do
      let (_, other) ← region memory_map descriptor_size other_index
      Outcome.refuse (current.overlaps other) .InvalidMemoryMap
  return descriptor_count

def page_covering_range (address size physical_limit : Nat) : Outcome MemoryError PhysicalRange := do
  if size = 0 then
    return .EMPTY
  else
    let stop ← Outcome.okOr (checked_add address size) .InvalidBootInfo
    let aligned_start := address / PAGE_SIZE * PAGE_SIZE
    let rounded ← Outcome.okOr (checked_add stop (PAGE_SIZE - 1)) .InvalidBootInfo
    let aligned_end := rounded / PAGE_SIZE * PAGE_SIZE
    Outcome.refuse (physical_limit < aligned_end || aligned_end ≤ aligned_start) .InvalidBootInfo
    return ⟨aligned_start, aligned_end⟩

/-- The six ranges that the loader handed over in use: kernel image, boot
information, memory map, root page table, system table and framebuffer. -/
def reserved_ranges (boot_info : BootInfo) (boot_info_address : UInt64) (physical_limit : Nat) :
    Outcome MemoryError (List PhysicalRange) := do
  let kernel ← page_covering_range boot_info.kernel_base.toNat boot_info.kernel_reserved_size.toNat
    physical_limit
  let handoff ← page_covering_range boot_info_address.toNat BOOT_INFO_SIZE physical_limit
  let map ← page_covering_range boot_info.memory_map.toNat boot_info.memory_map_size.toNat physical_limit
  let root ← page_covering_range boot_info.page_table_root.toNat PAGE_SIZE physical_limit
  let system_table ← page_covering_range boot_info.system_table.toNat PAGE_SIZE physical_limit
  let framebuffer ← page_covering_range boot_info.framebuffer_base.toNat boot_info.framebuffer_size.toNat
    physical_limit
  return [kernel, handoff, map, root, system_table, framebuffer]

structure BootInfoFrameAllocator where
  memory_map : List UInt8
  descriptor_size : Nat
  descriptor_count : Nat
  descriptor_index : Nat
  page_index : Nat
  physical_limit : Nat
  reserved_ranges : List PhysicalRange
  reclaimed_frames : Fin RECLAIMED_FRAME_CAPACITY → Option PhysFrame
  reclaimed_count : Nat

namespace BootInfoFrameAllocator

/-- The map's bytes are those that `memory` holds at the address the loader gave. -/
def new (memory : Nat → UInt8) (boot_info : BootInfo) (boot_info_address : UInt64)
    (physical_limit : Nat) : Outcome MemoryError BootInfoFrameAllocator := do
  let descriptor_size := boot_info.descriptor_size.toNat
  let memory_map_size := boot_info.memory_map_size.toNat
  Outcome.refuse (boot_info.memory_map == 0 || memory_map_size == 0) .MissingMemoryMap
  Outcome.refuse (descriptor_size < EFI_DESCRIPTOR_MIN_SIZE || 2 ^ 63 ≤ memory_map_size ||
    memory_map_size % descriptor_size != 0) .InvalidMemoryMap
  let memory_map := (List.range memory_map_size).map fun offset => memory (boot_info.memory_map.toNat + offset)
  let descriptor_count ← validate_memory_map memory_map descriptor_size physical_limit
  let reserved_ranges ← leafos.memory.reserved_ranges boot_info boot_info_address physical_limit
  Outcome.forEach (List.range descriptor_count) fun index => do
    let descriptor ← Outcome.okOr (read_descriptor memory_map descriptor_size index) .InvalidMemoryMap
    if descriptor.memory_type = EFI_CONVENTIONAL_MEMORY then
      let region_size ← Outcome.expect (checked_mul descriptor.number_of_pages PAGE_SIZE)
      let stop ← Outcome.expect (checked_add descriptor.physical_start region_size)
      let range : PhysicalRange := ⟨descriptor.physical_start, stop⟩
      Outcome.refuse (reserved_ranges.any fun reserved => range.overlaps reserved) .InvalidMemoryMap
  return {
    memory_map, descriptor_size, descriptor_count
    descriptor_index := 0
    page_index := 0
    physical_limit, reserved_ranges
    reclaimed_frames := fun _ => none
    reclaimed_count := 0 }

/-- The page count of a descriptor. -/
def pages_of (self : BootInfoFrameAllocator) (index : Nat) : Nat :=
  ((read_descriptor self.memory_map self.descriptor_size index).map
    EfiMemoryDescriptor.number_of_pages).getD 0

/-- A bound on the turns that the loop of `next_usable_frame` can still take: each
turn passes a page or a descriptor. -/
def turns (self : BootInfoFrameAllocator) : Nat :=
  ((List.range' self.descriptor_index (self.descriptor_count - self.descriptor_index)).map
    fun index => self.pages_of index + 1).sum + 1

/-- The `while` loop of `next_usable_frame`. -/
def advance : Nat → BootInfoFrameAllocator →
    Outcome MemoryError (Option PhysFrame) × BootInfoFrameAllocator
  | 0, self => (.panic, self)
  | turns + 1, self =>
    if self.descriptor_index < self.descriptor_count then
      match read_descriptor self.memory_map self.descriptor_size self.descriptor_index with
      | none => (.panic, self)
      | some descriptor =>
        if descriptor.memory_type ≠ EFI_CONVENTIONAL_MEMORY ∨
            descriptor.number_of_pages ≤ self.page_index then
          advance turns { self with descriptor_index := self.descriptor_index + 1, page_index := 0 }
        else
          match (checked_mul self.page_index PAGE_SIZE).bind (checked_add descriptor.physical_start) with
          | none => (.panic, self)
          | some address =>
            let after := { self with page_index := self.page_index + 1 }
            if self.physical_limit ≤ address ∨
                (self.reserved_ranges.any fun range => range.contains address) then
              advance turns after
            -- `PhysAddr::new` panics on a bit above the 52 that the architecture has
            else if 2 ^ 52 ≤ address then
              (.panic, after)
            else if address % PAGE_SIZE = 0 then
              (.ok (some address), after)
            else
              advance turns after
    else
      (.ok none, self)

/-- `next_usable_frame`: the last reclaimed frame, or else the next one under the
cursor. -/
def next_usable_frame (self : BootInfoFrameAllocator) :
    Outcome MemoryError (Option PhysFrame) × BootInfoFrameAllocator :=
  if self.reclaimed_count ≠ 0 then
    let reclaimed_count := self.reclaimed_count - 1
    if bound : reclaimed_count < RECLAIMED_FRAME_CAPACITY then
      let slot : Fin RECLAIMED_FRAME_CAPACITY := ⟨reclaimed_count, bound⟩
      (.ok (self.reclaimed_frames slot), { self with
        reclaimed_count
        reclaimed_frames := Function.update self.reclaimed_frames slot none })
    else
      (.panic, { self with reclaimed_count })
  else
    advance self.turns self

def reclaim_frame (self : BootInfoFrameAllocator) (frame : PhysFrame) : Bool × BootInfoFrameAllocator :=
  if bound : self.reclaimed_count < RECLAIMED_FRAME_CAPACITY then
    (true, { self with
      reclaimed_frames := Function.update self.reclaimed_frames ⟨self.reclaimed_count, bound⟩ (some frame)
      reclaimed_count := self.reclaimed_count + 1 })
  else
    (false, self)

def is_allocatable_frame (self : BootInfoFrameAllocator) (frame : PhysFrame) : Outcome MemoryError Bool := do
  if self.physical_limit ≤ frame ∨ (self.reserved_ranges.any fun range => range.contains frame) then
    return false
  else
    any_descriptor frame (List.range self.descriptor_count)
where
  any_descriptor (frame : PhysFrame) : List Nat → Outcome MemoryError Bool
    | [] => return false
    | index :: rest => do
      let descriptor ← Outcome.expect (read_descriptor self.memory_map self.descriptor_size index)
      if descriptor.memory_type = EFI_CONVENTIONAL_MEMORY ∧ descriptor.physical_start ≤ frame then
        let region_size ← Outcome.expect (checked_mul descriptor.number_of_pages PAGE_SIZE)
        let stop ← Outcome.expect (checked_add descriptor.physical_start region_size)
        if frame < stop then return true else any_descriptor frame rest
      else
        any_descriptor frame rest

/-- `FrameAllocator::allocate_frame`, also behind `MemoryManager::allocate_frame`. -/
def allocate_frame : Prog BootInfoFrameAllocator MemoryError (Option PhysFrame) := next_usable_frame

/-- `MemoryManager::deallocate_frame`. -/
def deallocate_frame (frame : PhysFrame) : Prog BootInfoFrameAllocator MemoryError Unit := fun self =>
  match self.is_allocatable_frame frame with
  | .ok true =>
    match self.reclaim_frame frame with
    | (true, after) => (.ok (), after)
    | (false, after) => (.err .FrameReclaimCapacityExceeded, after)
  | .ok false => (.err .InvalidMemoryMap, self)
  | .err error => (.err error, self)
  | .panic => (.panic, self)

/-- `FrameDeallocator::deallocate_frame`, used by the page-table code. -/
def deallocate_table_frame (frame : PhysFrame) : Prog BootInfoFrameAllocator MemoryError Unit := fun self =>
  match self.reclaim_frame frame with
  | (true, after) => (.ok (), after)
  | (false, after) => (.panic, after)

end BootInfoFrameAllocator

end leafos.memory
