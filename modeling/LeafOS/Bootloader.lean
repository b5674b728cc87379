import LeafOS.Support.Ensures
import LeafOS.Support.Masks

/-! The page tables the boot loader hands to the kernel: the firmware's four-level tables copied
into pages of the loader's own, and RAM mapped a second time at an offset in the upper half. -/

namespace leafos.bootloader

def EFI_PAGE_SIZE : UInt64 := 4096
def PAGE_TABLE_ENTRY_PRESENT : UInt64 := 0x001
def PAGE_TABLE_ENTRY_WRITABLE : UInt64 := 0x002
def PAGE_TABLE_ENTRY_HUGE : UInt64 := 0x080
def PAGE_TABLE_ADDRESS_MASK : UInt64 := 0x000FFFFFFFFFF000
def PAGE_TABLE_ENTRY_COUNT : Nat := 512
def PAGE_TABLE_ENTRY_NO_EXECUTE : UInt64 := 0x8000000000000000
def HUGE_PAGE_SIZE : UInt64 := 2 * 1024 * 1024
def PHYSICAL_MAP_WINDOW_SIZE : UInt64 := 512 * 1024 * 1024 * 1024

/-- The values of `EFI_STATUS` for which `EFI_ERROR` holds. -/
inductive EfiStatus where
  | load_error
  | invalid_parameter
  | unsupported
  | buffer_too_small
  | access_denied
  | out_of_resources
  | other (code : UInt64)
deriving Repr, DecidableEq

/-- Page tables as the loader sees them, through the firmware's identity mapping: the entries of
the table whose page starts at an address. -/
abbrev TableMemory := UInt64 → Nat → UInt64

def TableMemory.write (memory : TableMemory) (table : UInt64) (index : Nat) (entry : UInt64) : TableMemory :=
  Function.update memory table (Function.update (memory table) index entry)

/-- The loader's globals, the memory that holds page tables, and the pages that `AllocatePages`
has still to give out, in that order. -/
structure Loader where
  memory : TableMemory
  pages : List UInt64
  original_page_table_root : UInt64
  kernel_page_table_root : UInt64
  physical_memory_offset : UInt64
  physical_memory_pml4_index : Nat

abbrev LoaderM := Prog Loader EfiStatus

/-- `(entry & flag) != 0`. -/
def has (entry flag : UInt64) : Bool := entry &&& flag != 0

/-- `gBS->AllocatePages(EFI_ALLOCATE_ANY_PAGES, EfiLoaderData, 1, &address)`. -/
def allocate_pages : LoaderM UInt64 := do
  let loader ← Prog.get
  match loader.pages with
  | [] => Prog.throw .out_of_resources
  | page :: pages => do
    Prog.set { loader with pages }
    pure page

def read_entry (table : UInt64) (index : Nat) : LoaderM UInt64 := do
  let loader ← Prog.get
  pure (loader.memory table index)

def write_entry (table : UInt64) (index : Nat) (entry : UInt64) : LoaderM Unit :=
  Prog.modify fun loader => { loader with memory := loader.memory.write table index entry }

/-- An entry with its flags kept and its address replaced. -/
def relink (entry address : UInt64) : UInt64 := UInt64.merge PAGE_TABLE_ADDRESS_MASK entry address

/-- One turn of the loop of `ClonePageTableLevel`, where `clone_child` copies a table one level
down. -/
def clone_entry (clone_child : UInt64 → UInt64 → LoaderM Unit) (source_address destination_address : UInt64)
    (level index : Nat) : LoaderM Unit := do
  let loader ← Prog.get
  let entry := loader.memory source_address index
  write_entry destination_address index entry
  if !has entry PAGE_TABLE_ENTRY_PRESENT || level == 1 then
    pure ()
  else
    let child_address := entry &&& PAGE_TABLE_ADDRESS_MASK
    -- The test for the root comes before the one for a huge page, as in the source.
    if child_address = loader.original_page_table_root then
      write_entry destination_address index (relink entry loader.kernel_page_table_root)
    else if has entry PAGE_TABLE_ENTRY_HUGE then
      pure ()
    else do
      let cloned_child_address ← allocate_pages
      clone_child child_address cloned_child_address
      write_entry destination_address index (relink entry cloned_child_address)

/-- `ClonePageTableLevel`. The levels of a walk are 4 to 1, so level 0 is never asked for. -/
def clone_page_table_level : UInt64 → UInt64 → Nat → LoaderM Unit
  | _, _, 0 => pure ()
  | source_address, destination_address, level + 1 =>
    Prog.forEach (List.range PAGE_TABLE_ENTRY_COUNT) fun index =>
      clone_entry (fun source destination => clone_page_table_level source destination level)
        source_address destination_address (level + 1) index

def allocate_zeroed_page : LoaderM UInt64 := do
  let address ← allocate_pages
  Prog.modify fun loader => { loader with memory := Function.update loader.memory address fun _ => 0 }
  pure address

/-- The entry that links a table of the direct map. -/
def table_entry (new_page : UInt64) : UInt64 :=
  (new_page &&& PAGE_TABLE_ADDRESS_MASK) ||| PAGE_TABLE_ENTRY_PRESENT ||| PAGE_TABLE_ENTRY_WRITABLE

/-- The block that `EnsurePhysicalPageDirectory` has twice and `EnsurePhysicalPageTable` once:
an absent entry is given a new empty table. -/
def ensure_table (table : UInt64) (index : Nat) : LoaderM Unit := do
  let entry ← read_entry table index
  if has entry PAGE_TABLE_ENTRY_PRESENT then
    pure ()
  else do
    let new_page ← allocate_zeroed_page
    write_entry table index (table_entry new_page)

/-- The table below an entry, unless the entry is a huge page. -/
def enter_table (table : UInt64) (index : Nat) : LoaderM UInt64 := do
  let entry ← read_entry table index
  if has entry PAGE_TABLE_ENTRY_HUGE then
    Prog.throw .access_denied
  else
    pure (entry &&& PAGE_TABLE_ADDRESS_MASK)

def level3_index (physical_address : UInt64) : Nat := ((physical_address >>> 30) &&& 0x1FF).toNat

def level2_index (physical_address : UInt64) : Nat := ((physical_address >>> 21) &&& 0x1FF).toNat

def page_index (physical_address : UInt64) : Nat := ((physical_address >>> 12) &&& 0x1FF).toNat

/-- `EnsurePhysicalPageDirectory`: the page directory for an address, linked where it was
missing. The entry of the root is not tested for a huge page. -/
def ensure_physical_page_directory (physical_address : UInt64) : LoaderM UInt64 := do
  let loader ← Prog.get
  let level4 := loader.kernel_page_table_root
  ensure_table level4 loader.physical_memory_pml4_index
  let entry ← read_entry level4 loader.physical_memory_pml4_index
  let level3 := entry &&& PAGE_TABLE_ADDRESS_MASK
  ensure_table level3 (level3_index physical_address)
  enter_table level3 (level3_index physical_address)

def ensure_physical_page_table (physical_address : UInt64) : LoaderM UInt64 := do
  let level2 ← ensure_physical_page_directory physical_address
  ensure_table level2 (level2_index physical_address)
  enter_table level2 (level2_index physical_address)

def is_direct_mapped_ram_type (type : UInt32) : Bool :=
  [1, 2, 3, 4, 5, 6, 7, 9, 10, 13, 14].contains type

/-- The entry of a 4 KiB page of the direct map. -/
def page_entry (physical_address : UInt64) : UInt64 :=
  (physical_address &&& PAGE_TABLE_ADDRESS_MASK) ||| PAGE_TABLE_ENTRY_PRESENT ||| PAGE_TABLE_ENTRY_WRITABLE |||
    PAGE_TABLE_ENTRY_NO_EXECUTE

/-- The entry of a 2 MiB page of the direct map. -/
def huge_entry (physical_address : UInt64) : UInt64 :=
  (physical_address &&& PAGE_TABLE_ADDRESS_MASK) ||| PAGE_TABLE_ENTRY_PRESENT ||| PAGE_TABLE_ENTRY_WRITABLE |||
    PAGE_TABLE_ENTRY_HUGE ||| PAGE_TABLE_ENTRY_NO_EXECUTE

def map_physical_page_4kib (physical_address : UInt64) : LoaderM Unit := do
  let page_table ← ensure_physical_page_table physical_address
  let entry ← read_entry page_table (page_index physical_address)
  if has entry PAGE_TABLE_ENTRY_PRESENT then
    Prog.throw .access_denied
  else
    write_entry page_table (page_index physical_address) (page_entry physical_address)

/-- One turn of the loop of `MapPhysicalPage2MiB`, which fills the gaps of a table that is
there already. -/
def fill_page (physical_page : UInt64) : LoaderM Unit := do
  let page_table ← ensure_physical_page_table physical_page
  let entry ← read_entry page_table (page_index physical_page)
  if has entry PAGE_TABLE_ENTRY_PRESENT then
    pure ()
  else
    write_entry page_table (page_index physical_page) (page_entry physical_page)

def map_physical_page_2mib (physical_address : UInt64) : LoaderM Unit := do
  let level2 ← ensure_physical_page_directory physical_address
  let entry ← read_entry level2 (level2_index physical_address)
  if has entry PAGE_TABLE_ENTRY_PRESENT then
    if has entry PAGE_TABLE_ENTRY_HUGE then
      Prog.throw .access_denied
    else
      Prog.forEach (List.range PAGE_TABLE_ENTRY_COUNT) fun index =>
        fill_page (physical_address + UInt64.ofNat index * EFI_PAGE_SIZE)
  else
    write_entry level2 (level2_index physical_address) (huge_entry physical_address)

/-- The loop of `MapPhysicalMemoryRange`. Each turn advances by a page at least, so the number
of pages bounds the number of turns. -/
def map_range (finish : UInt64) : Nat → UInt64 → LoaderM Unit
  | 0, _ => pure ()
  | turns + 1, address =>
    if address < finish then
      if address &&& (HUGE_PAGE_SIZE - 1) = 0 ∧ finish - address ≥ HUGE_PAGE_SIZE then do
        map_physical_page_2mib address
        map_range finish turns (address + HUGE_PAGE_SIZE)
      else do
        map_physical_page_4kib address
        map_range finish turns (address + EFI_PAGE_SIZE)
    else
      pure ()

def map_physical_memory_range (start page_count : UInt64) : LoaderM Unit :=
  if page_count > 0xFFFFFFFFFFFFFFFF / EFI_PAGE_SIZE then
    Prog.throw .invalid_parameter
  else
    let size := page_count * EFI_PAGE_SIZE
    if start > 0xFFFFFFFFFFFFFFFF - size then
      Prog.throw .invalid_parameter
    else
      let finish := start + size
      if finish > PHYSICAL_MAP_WINDOW_SIZE then
        Prog.throw .unsupported
      else
        map_range finish page_count.toNat start

/-- The fields of `EFI_MEMORY_DESCRIPTOR` that the loader reads. -/
structure EfiMemoryDescriptor where
  type : UInt32
  physical_start : UInt64
  number_of_pages : UInt64
deriving Repr, DecidableEq

/-- What `GetMemoryMap` leaves behind: its error if it has one, the sizes it stores, and the
descriptor at `Map + Index * DescriptorSize` for each index. -/
structure MemoryMapReply where
  status : Option EfiStatus
  map_size : UInt64
  descriptor_size : UInt64
  descriptor : Nat → EfiMemoryDescriptor

/-- The boot services the mapping asks for the memory map. The first argument numbers the
call, the second is the size that is passed. -/
structure Firmware where
  allocate_pool : Nat → UInt64 → Option EfiStatus
  get_memory_map : Nat → UInt64 → MemoryMapReply

/-- The loop over `Attempt` in `BuildPhysicalMemoryMapping`, up to the memory map it reads. -/
def fetch_memory_map (firmware : Firmware) : Nat → Nat → UInt64 → Outcome EfiStatus (List EfiMemoryDescriptor)
  | 0, _, _ => .err .out_of_resources
  | attempts + 1, attempt, map_size =>
    match firmware.allocate_pool attempt map_size with
    | some status => .err status
    | none =>
      let reply := firmware.get_memory_map (attempt + 1) map_size
      match reply.status with
      | some .buffer_too_small =>
        fetch_memory_map firmware attempts (attempt + 1) (reply.map_size + reply.descriptor_size * 32)
      | some status => .err status
      | none => .ok ((List.range (reply.map_size / reply.descriptor_size).toNat).map reply.descriptor)

def read_memory_map (firmware : Firmware) : Outcome EfiStatus (List EfiMemoryDescriptor) :=
  let reply := firmware.get_memory_map 0 0
  if reply.status ≠ some .buffer_too_small ∨ reply.descriptor_size = 0 then
    .err .load_error
  else
    fetch_memory_map firmware 8 0 (reply.map_size + reply.descriptor_size * 32)

def map_descriptor (descriptor : EfiMemoryDescriptor) : LoaderM Unit :=
  if is_direct_mapped_ram_type descriptor.type then
    map_physical_memory_range descriptor.physical_start descriptor.number_of_pages
  else
    pure ()

/-- The first entry of the upper half of a root table that is not in use. -/
def free_slot (level4 : Nat → UInt64) : Option Nat :=
  (List.range' 256 256).find? fun index => !has (level4 index) PAGE_TABLE_ENTRY_PRESENT

def slot_offset (index : Nat) : UInt64 := (0xFFFF000000000000 : UInt64) ||| (UInt64.ofNat index <<< 39)

def choose_slot : LoaderM Unit := do
  let loader ← Prog.get
  match free_slot (loader.memory loader.kernel_page_table_root) with
  | none => do
    Prog.set { loader with physical_memory_pml4_index := PAGE_TABLE_ENTRY_COUNT }
    Prog.throw .out_of_resources
  | some index =>
    Prog.set { loader with physical_memory_pml4_index := index, physical_memory_offset := slot_offset index }

def build_physical_memory_mapping (firmware : Firmware) : LoaderM Unit := do
  choose_slot
  let descriptors ← read_memory_map firmware
  Prog.forEach descriptors map_descriptor

/-- `CloneActivePageTables`, given what it reads from the control registers. -/
def clone_active_page_tables (firmware : Firmware) (cr3_value cr4_value : UInt64) : LoaderM UInt64 :=
  if has cr4_value ((1 : UInt64) <<< 12) then
    Prog.throw .unsupported
  else do
    Prog.modify fun loader => { loader with original_page_table_root := cr3_value &&& PAGE_TABLE_ADDRESS_MASK }
    let root ← allocate_pages
    Prog.modify fun loader => { loader with kernel_page_table_root := root }
    clone_page_table_level (cr3_value &&& PAGE_TABLE_ADDRESS_MASK) root 4
    build_physical_memory_mapping firmware
    pure root

end leafos.bootloader
