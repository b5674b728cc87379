import LeafOS.Memory.UserRanges
import LeafOS.UserProgram.Arguments
import LeafOS.UserProgram.Regions
import Mathlib.Data.List.GetD

namespace leafos.user_program

open leafos.memory leafos.arch.user AddressSpace Prog

/-- The end of the pages that hold a segment. -/
def pages_end (start length : Nat) : Nat := start + (length + PAGE_SIZE - 1) / PAGE_SIZE * PAGE_SIZE

/-- The pages that lie between two addresses. -/
def InPages (start stop page : Nat) : Prop := start ≤ page * PAGE_SIZE ∧ page * PAGE_SIZE < stop

/-- A byte of a user address: the page tables lead to a frame, and the frame's bytes are
those of the direct map. -/
def read_user (manager : MemoryManager) (ram : ByteMap) (root : PhysFrame) (address : Nat) : Option UInt8 :=
  ((manager.page_tables root).leaf (address / PAGE_SIZE)).map fun entry =>
    ram (manager.physical_memory_offset + entry.1 + address % PAGE_SIZE)

/-- The image of a process. Code, data and arguments are where they belong, followed by
zeros up to the end of their pages; exactly the code is executable, exactly data and
stack can be written, and the tables grant what the space records. The regions follow
each other, with pages between data and stack that are not mapped. -/
structure ProcessImage (code data argument_data : List UInt8) (bss_len argument_vector data_start : Nat)
    (space : AddressSpace) (tables : UserTables) (read : Nat → Option UInt8) : Prop where
  code_at : ∀ index (hindex : index < code.length), read (RAW_PROGRAM_BASE + index) = some code[index]
  code_rest : ∀ address, RAW_PROGRAM_BASE + code.length ≤ address → address < data_start → read address = some 0
  data_at : ∀ index (hindex : index < data.length), read (data_start + index) = some data[index]
  data_rest : ∀ address, data_start + data.length ≤ address →
    address < pages_end data_start (data.length + bss_len) → read address = some 0
  arguments_at : ∀ index (hindex : index < argument_data.length),
    read (argument_vector + index) = some argument_data[index]
  executable : ∀ page, user_page_access space page = some .ReadExecute ↔ InPages RAW_PROGRAM_BASE data_start page
  writable : ∀ page, user_page_access space page = some .ReadWrite ↔
    InPages data_start (pages_end data_start (data.length + bss_len)) page ∨
      InPages (USER_STACK_TOP - USER_STACK_SIZE) USER_STACK_TOP page
  granted : ∀ page, (tables.leaf page).map Prod.snd = (user_page_access space page).map UserPageAccess.flags
  code_covered : RAW_PROGRAM_BASE + code.length ≤ data_start
  bss_covered : data_start + data.length + bss_len ≤ pages_end data_start (data.length + bss_len)
  below_stack : pages_end data_start (data.length + bss_len) + PAGE_SIZE ≤ USER_STACK_TOP - USER_STACK_SIZE
  guarded : ∀ page, InPages (pages_end data_start (data.length + bss_len)) (USER_STACK_TOP - USER_STACK_SIZE) page →
    tables.leaf page = none

/-- The argument block is small enough for the last page of the stack. -/
theorem build_argument_vector_length {path : List UInt8} {arguments : List (List UInt8)} {reserved : Bool}
    {argument_data : List UInt8} {argument_count : Nat}
    (hbuild : build_argument_vector path arguments reserved = .ok (argument_data, argument_count)) :
    argument_data.length ≤ 1168 := by
  rw [build_argument_vector_eq] at hbuild
  split_ifs at hbuild with hrefused
  cases hbuild
  rw [argument_block_length]
  exact block_size_le fun hmany => hrefused (.inl hmany)

section Image

variable {root : PhysFrame} {physical_offset first code_page_count data_page_count data_start : Nat}
  {code_pages data_pages stack_pages : List (Nat × Nat)} {space : AddressSpace} {manager : MemoryManager}
  {pages : List (Nat × Nat)} {code data argument_data : List UInt8} {bss_len entry_offset argument_vector start : Nat}
  {ram : ByteMap}

theorem Region.mem_numbers (hregion : Region physical_offset first pages) {number : Nat} :
    (∃ page ∈ pages, page.1 = number) ↔ first ≤ number ∧ number < first + pages.length := by
  have hmem : number ∈ pages.map Prod.fst ↔ number ∈ List.range' first pages.length := by rw [hregion.consecutive]
  rw [List.mem_map, List.mem_range'_1] at hmem
  exact hmem

theorem inPages_iff {stop : Nat} (hregion : Region physical_offset first pages)
    (hstart : first * PAGE_SIZE = start) (hstop : (first + pages.length) * PAGE_SIZE = stop) {page : Nat} :
    InPages start stop page ↔ ∃ mapped ∈ pages, mapped.1 = page := by
  rw [hregion.mem_numbers, InPages, ← hstart, ← hstop]
  unfold PAGE_SIZE
  omega

theorem le_pages (length : Nat) : length ≤ (length + PAGE_SIZE - 1) / PAGE_SIZE * PAGE_SIZE := by
  unfold PAGE_SIZE
  omega

/-- The tables grant what the space records. -/
theorem Mirrors.granted (hmirrors : space.Mirrors (manager.page_tables root)) (page : Page) :
    ((manager.page_tables root).leaf page).map Prod.snd = (user_page_access space page).map UserPageAccess.flags := by
  have hexact := hmirrors.exact
  cases haccess : user_page_access space page with
  | none =>
    cases hleaf : (manager.page_tables root).leaf page with
    | none => rfl
    | some entry =>
      obtain ⟨_, access, hmem⟩ := hexact.complete page entry hleaf
      rw [(user_page_access_eq_some_iff hexact.pages_nodup).mpr hmem] at haccess
      cases haccess
  | some access =>
    obtain ⟨frame, hleaf⟩ := (hexact.listed page access).mp ((user_page_access_eq_some_iff hexact.pages_nodup).mp haccess)
    rw [hleaf]
    rfl

section Laid

variable
  (hlaid : Laid root physical_offset code_page_count data_page_count data_start code_pages data_pages stack_pages space
    manager)
include hlaid

/-- Reading an address of a region: the byte that belongs there. -/
theorem Laid.read {bytes : List UInt8} (address : Nat) (hregion : Region physical_offset first pages)
    (hpages : ∀ page ∈ pages, page ∈ code_pages ++ data_pages ++ stack_pages)
    (hholds : Holds physical_offset pages bytes start ram) (hge : first * PAGE_SIZE ≤ address)
    (hlt : address < (first + pages.length) * PAGE_SIZE) :
    read_user manager ram root address =
      some (if start ≤ address ∧ address < start + bytes.length then bytes.getD (address - start) 0 else 0) := by
  have hsize : 0 < PAGE_SIZE := by decide
  obtain ⟨⟨number, frame⟩, hpage, hnumber⟩ := hregion.mem_numbers.mpr
    ⟨(Nat.le_div_iff_mul_le hsize).mpr hge, (Nat.div_lt_iff_lt_mul hsize).mpr hlt⟩
  dsimp only at hnumber
  subst hnumber
  obtain ⟨flags, hleaf⟩ := hlaid.leaves _ (hpages _ hpage)
  have hbyte := hholds _ hpage (address % PAGE_SIZE) (Nat.mod_lt _ hsize)
  dsimp only at hbyte
  rw [Nat.div_add_mod'] at hbyte
  rw [read_user, (UserTables.leaf_eq_some hlaid.mirrors.settled.keyed).mpr hleaf, Option.map_some, hlaid.based, hbyte]

theorem Laid.accesses {page : Page} {access : UserPageAccess} : user_page_access space page = some access ↔
      (access = .ReadExecute ∧ ∃ mapped ∈ code_pages, mapped.1 = page) ∨
        (access = .ReadWrite ∧ ((∃ mapped ∈ data_pages, mapped.1 = page) ∨ ∃ mapped ∈ stack_pages, mapped.1 = page)) := by
  rw [user_page_access_eq_some_iff hlaid.mirrors.pages_nodup, hlaid.listed]
  simp only [List.mem_append, List.mem_map, Prod.mk.injEq]
  constructor
  · rintro ((⟨mapped, hmapped, hpage, rfl⟩ | ⟨mapped, hmapped, hpage, rfl⟩) | ⟨mapped, hmapped, hpage, rfl⟩)
    · exact .inl ⟨rfl, mapped, hmapped, hpage⟩
    · exact .inr ⟨rfl, .inl ⟨mapped, hmapped, hpage⟩⟩
    · exact .inr ⟨rfl, .inr ⟨mapped, hmapped, hpage⟩⟩
  · rintro (⟨rfl, mapped, hmapped, hpage⟩ | ⟨rfl, ⟨mapped, hmapped, hpage⟩ | ⟨mapped, hmapped, hpage⟩⟩)
    · exact .inl (.inl ⟨mapped, hmapped, hpage, rfl⟩)
    · exact .inl (.inr ⟨mapped, hmapped, hpage, rfl⟩)
    · exact .inr ⟨mapped, hmapped, hpage, rfl⟩

variable (haccepted : Accepted code data bss_len entry_offset code_page_count data_page_count data_start)
include haccepted

/-- Where the pages of the three regions begin and end, and that the segments fit into them. -/
theorem Laid.spans :
    (RAW_PROGRAM_BASE / PAGE_SIZE * PAGE_SIZE = RAW_PROGRAM_BASE ∧
      (RAW_PROGRAM_BASE / PAGE_SIZE + code_pages.length) * PAGE_SIZE = data_start ∧
      RAW_PROGRAM_BASE + code.length ≤ data_start) ∧
    (data_start / PAGE_SIZE * PAGE_SIZE = data_start ∧ (data_start / PAGE_SIZE + data_pages.length) * PAGE_SIZE =
      pages_end data_start (data.length + bss_len) ∧
      data_start + data.length + bss_len ≤ pages_end data_start (data.length + bss_len)) ∧
    (USER_STACK_TOP - USER_STACK_SIZE) / PAGE_SIZE * PAGE_SIZE = USER_STACK_TOP - USER_STACK_SIZE ∧
      ((USER_STACK_TOP - USER_STACK_SIZE) / PAGE_SIZE + stack_pages.length) * PAGE_SIZE = USER_STACK_TOP := by
  have hfirst : RAW_PROGRAM_BASE / PAGE_SIZE * PAGE_SIZE = RAW_PROGRAM_BASE := by decide
  have hstop : (RAW_PROGRAM_BASE / PAGE_SIZE + code_pages.length) * PAGE_SIZE = data_start := by
    rw [hlaid.code.2, Nat.add_mul, hfirst, haccepted.start_eq]
  have hdata : data_start / PAGE_SIZE * PAGE_SIZE = data_start := by rw [← hstop, Nat.mul_div_cancel _ (by decide)]
  refine ⟨⟨hfirst, hstop, ?_⟩, ⟨hdata, ?_, ?_⟩, by decide, by rw [hlaid.stack.2]; decide⟩
  · rw [haccepted.start_eq, haccepted.code_pages]
    exact Nat.add_le_add_left (le_pages _) _
  · rw [hlaid.data.2, Nat.add_mul, hdata, pages_end, haccepted.data_pages]
  · rw [Nat.add_assoc]
    exact Nat.add_le_add_left (le_pages _) _

variable (hvector : USER_STACK_TOP - USER_STACK_SIZE ≤ argument_vector)
include hvector

variable (hblock : argument_vector + argument_data.length ≤ USER_STACK_TOP)
include hblock

/-- What the copies leave in memory, starting from cleared frames. -/
theorem Laid.copies :
    ∃ code_writes data_writes argument_writes,
      copy_to_pages code code_pages physical_offset RAW_PROGRAM_BASE = .ok code_writes ∧
      copy_to_pages data data_pages physical_offset data_start = .ok data_writes ∧
      copy_to_pages argument_data stack_pages physical_offset argument_vector = .ok argument_writes ∧
      ∀ ram : ByteMap,
        let final := (ram.stores (clearing physical_offset (code_pages ++ data_pages ++ stack_pages))).stores
          (code_writes ++ data_writes ++ argument_writes)
        Holds physical_offset code_pages code RAW_PROGRAM_BASE final ∧
          Holds physical_offset data_pages data data_start final ∧
          Holds physical_offset stack_pages argument_data argument_vector final := by
  obtain ⟨⟨hcode_first, hcode_stop, hcode_covered⟩, ⟨hdata_first, hdata_stop, hdata_covered⟩, hstack_first, hstack_stop⟩ :=
    hlaid.spans haccepted
  obtain ⟨code_writes, hcode_copy, hcode_copied⟩ := copy_to_pages_spec code hlaid.code.1 hcode_first.le
    (hcode_covered.trans_eq hcode_stop.symm)
  obtain ⟨data_writes, hdata_copy, hdata_copied⟩ := copy_to_pages_spec data hlaid.data.1 hdata_first.le
    (((Nat.le_add_right _ _).trans hdata_covered).trans_eq hdata_stop.symm)
  obtain ⟨argument_writes, hargument_copy, hargument_copied⟩ := copy_to_pages_spec argument_data hlaid.stack.1
    (hstack_first.trans_le hvector) (hblock.trans_eq hstack_stop.symm)
  refine ⟨code_writes, data_writes, argument_writes, hcode_copy, hdata_copy, hargument_copy, fun ram => ?_⟩
  obtain ⟨hfront, _, hlast⟩ := List.pairwise_append.mp hlaid.apart
  obtain ⟨_, _, hearly⟩ := List.pairwise_append.mp hfront
  have hblank := blank_clearing physical_offset (code_pages ++ data_pages ++ stack_pages) ram
  rw [ByteMap.stores_append, ByteMap.stores_append]
  have hfirst_copy := hcode_copied (ram.stores (clearing physical_offset (code_pages ++ data_pages ++ stack_pages)))
  have hsecond_copy := hdata_copied ((ram.stores (clearing physical_offset
    (code_pages ++ data_pages ++ stack_pages))).stores code_writes)
  have hthird_copy := hargument_copied (((ram.stores (clearing physical_offset
    (code_pages ++ data_pages ++ stack_pages))).stores code_writes).stores data_writes)
  refine ⟨?_, ?_, ?_⟩
  · apply ((hfirst_copy.holds fun page hpage => hblank page (by simp [hpage])).copied hsecond_copy hearly).copied
      hthird_copy
    exact fun page hpage other hother => hlast page (List.mem_append_left _ hpage) other hother
  · have hdata_blank : Blank physical_offset data_pages _ := fun page hpage => hblank page (by simp [hpage])
    apply (hsecond_copy.holds (hdata_blank.copied hfirst_copy ?_)).copied hthird_copy
    · exact fun page hpage other hother => hlast page (List.mem_append_right _ hpage) other hother
    · exact fun page hpage other hother => Apart.symm (hearly other hother page hpage)
  · have hstack_blank : Blank physical_offset stack_pages _ := fun page hpage => hblank page (by simp [hpage])
    apply hthird_copy.holds ((hstack_blank.copied hfirst_copy ?_).copied hsecond_copy ?_)
    · exact fun page hpage other hother => Apart.symm (hlast other (List.mem_append_left _ hother) page hpage)
    · exact fun page hpage other hother => Apart.symm (hlast other (List.mem_append_right _ hother) page hpage)

theorem Laid.image (hcode : Holds physical_offset code_pages code RAW_PROGRAM_BASE ram)
    (hdata : Holds physical_offset data_pages data data_start ram)
    (hstack : Holds physical_offset stack_pages argument_data argument_vector ram) :
    ProcessImage code data argument_data bss_len argument_vector data_start space (manager.page_tables root)
      (read_user manager ram root) := by
  obtain ⟨⟨hcode_first, hcode_stop, hcode_covered⟩, ⟨hdata_first, hdata_stop, hbss_covered⟩, hstack_first, hstack_stop⟩ :=
    hlaid.spans haccepted
  have hcode_region := hlaid.code.1
  have hdata_region := hlaid.data.1
  have hstack_region := hlaid.stack.1
  have hbelow : pages_end data_start (data.length + bss_len) + PAGE_SIZE ≤ USER_STACK_TOP - USER_STACK_SIZE := by
    rw [← hdata_stop, hlaid.data.2, Nat.add_mul, hdata_first]
    exact Nat.add_le_of_le_sub (by decide) haccepted.end_le
  have hread_code := fun address hge hlt => hlaid.read address hcode_region (by simp +contextual) hcode
    (hcode_first.trans_le hge) (Nat.lt_of_lt_of_eq hlt hcode_stop.symm)
  have hread_data := fun address hge hlt => hlaid.read address hdata_region (by simp +contextual) hdata
    (hdata_first.trans_le hge) (Nat.lt_of_lt_of_eq hlt hdata_stop.symm)
  have hread_stack := fun address hge hlt => hlaid.read address hstack_region (by simp +contextual) hstack
    (hstack_first.trans_le hge) (Nat.lt_of_lt_of_eq hlt hstack_stop.symm)
  refine ⟨?_, ?_, ?_, ?_, ?_, ?_, ?_, Mirrors.granted hlaid.mirrors, hcode_covered, hbss_covered, hbelow, ?_⟩
  · intro index hindex
    rw [hread_code _ (by omega) (by omega), if_pos (by omega), Nat.add_sub_cancel_left,
      List.getD_eq_getElem _ _ hindex]
  · intro address hge hlt
    rw [hread_code _ (by omega) (by omega), if_neg (by omega)]
  · intro index hindex
    rw [hread_data _ (by omega) (by omega), if_pos (by omega), Nat.add_sub_cancel_left,
      List.getD_eq_getElem _ _ hindex]
  · intro address hge hlt
    rw [hread_data _ (by omega) (by omega), if_neg (by omega)]
  · intro index hindex
    rw [hread_stack _ (by omega) (by omega), if_pos (by omega), Nat.add_sub_cancel_left,
      List.getD_eq_getElem _ _ hindex]
  · intro page
    rw [hlaid.accesses, inPages_iff hcode_region hcode_first hcode_stop]
    simp
  · intro page
    rw [hlaid.accesses, inPages_iff hdata_region hdata_first hdata_stop, inPages_iff hstack_region hstack_first hstack_stop]
    simp
  · intro page hpage
    have hgranted := Mirrors.granted hlaid.mirrors page
    cases haccess : user_page_access space page with
    | none =>
      rw [haccess] at hgranted
      exact Option.map_eq_none_iff.mp hgranted
    | some access =>
      exfalso
      unfold InPages at hpage
      rw [hlaid.accesses, ← inPages_iff hcode_region hcode_first hcode_stop,
        ← inPages_iff hdata_region hdata_first hdata_stop, ← inPages_iff hstack_region hstack_first hstack_stop] at haccess
      unfold InPages at haccess
      omega

end Laid

/-- The entry is executable and the stack can be written, so the context is accepted. -/
theorem ProcessImage.context {tables : UserTables} {read : Nat → Option UInt8}
    (himage : ProcessImage code data argument_data bss_len argument_vector data_start space tables read)
    (hentry : entry_offset < code.length) (hvector : USER_STACK_TOP - USER_STACK_SIZE ≤ argument_vector)
    (hblock : argument_vector + argument_data.length ≤ USER_STACK_TOP - USER_STACK_ARGUMENT_RESERVE)
    (argument_count : Nat) :
    UserContext.for_address_space_with_arguments space (RAW_PROGRAM_BASE + entry_offset) USER_STACK_TOP argument_count
      argument_vector = .ok ⟨RAW_PROGRAM_BASE + entry_offset, USER_STACK_TOP, argument_count, argument_vector⟩ := by
  have hbelow := himage.below_stack
  have hcode := himage.code_covered
  have hdata := himage.bss_covered
  have hsize : PAGE_SIZE = 4096 := rfl
  have hspace : USER_SPACE_START = 66846720 * 512 * 4096 := rfl
  have hspace_end : USER_SPACE_END = 66846720 * 512 * 4096 + 2 ^ 39 := rfl
  have hbase : RAW_PROGRAM_BASE = (66846720 * 512 + 1) * 4096 := rfl
  have htop : USER_STACK_TOP = (66846720 * 512 + 512) * 4096 := rfl
  have hstack : USER_STACK_SIZE = 4 * 4096 := rfl
  have hreserve : USER_STACK_ARGUMENT_RESERVE = 256 := rfl
  have hexecutable : user_page_access space ((RAW_PROGRAM_BASE + entry_offset) / PAGE_SIZE) = some .ReadExecute := by
    rw [himage.executable, InPages, hsize]
    omega
  have hwritable : ∀ address, USER_STACK_TOP - USER_STACK_SIZE ≤ address → address < USER_STACK_TOP →
      user_page_access space (address / PAGE_SIZE) = some .ReadWrite := by
    intro address hge hlt
    rw [himage.writable, InPages, InPages, hsize]
    omega
  have hin_user : ∀ address, USER_SPACE_START ≤ address → address < USER_SPACE_END →
      contains_user_address address = true := by
    intro address hge hlt
    simp only [contains_user_address, Bool.and_eq_true, decide_eq_true_eq]
    exact ⟨hge, hlt⟩
  have hcontext : UserContext.with_arguments (RAW_PROGRAM_BASE + entry_offset) USER_STACK_TOP argument_count argument_vector =
      .ok ⟨RAW_PROGRAM_BASE + entry_offset, USER_STACK_TOP, argument_count, argument_vector⟩ := by
    simp [UserContext.with_arguments, hin_user (RAW_PROGRAM_BASE + entry_offset) (by omega) (by omega),
      hin_user USER_STACK_TOP (by omega) (by omega), hin_user argument_vector (by omega) (by omega),
      show USER_STACK_TOP % 16 = 0 from rfl]
  unfold UserContext.for_address_space_with_arguments
  rw [hcontext]
  simp only [bind, Except.bind, hexecutable, hwritable (USER_STACK_TOP - 1) (by omega) (by omega),
    hwritable argument_vector (by omega) (by omega), ne_eq, not_true_eq_false, and_false, if_false]

end Image

section Runs

variable {mapper : Mapper} {version descriptor_version : UInt32} {physical_memory_offset : UInt64}
  {active_root : PhysFrame} {bits : Option UInt8} {memory : Nat → UInt8} {boot_info : BootInfo}
  {boot_info_address : UInt64} {loader : TableMemory} {booted ready paging : Paging} {calls : List MemoryCall}

/-- The direct map of an accepted handoff is aligned, and stays where it is. -/
theorem direct_map_aligned
    (hcreate : create mapper version descriptor_version physical_memory_offset active_root bits memory boot_info
      boot_info_address loader = .ok booted)
    (hready : heap.initialize_heap booted = (.ok (), ready)) (hrun : perform_memory_calls calls ready = some paging) :
    paging.manager.physical_memory_offset % PAGE_SIZE = 0 := by
  simp only [create, Outcome.bind_eq_ok_iff, Outcome.pure_eq_ok_iff, Outcome.refuse_eq_ok_iff,
    Outcome.okOr_eq_ok_iff] at hcreate
  obtain ⟨_, hversion, _, _, _, _, _, _, _, _, root_virtual_address, hvirtual, _, _, _, haligned, _, _, hbooted⟩ := hcreate
  have hstart : booted.manager.Fixed fun offset _ => offset = physical_memory_offset.toNat := by
    rw [← hbooted]
    rfl
  have hinitialized := initialize_heap_fixed booted hstart
  rw [hready] at hinitialized
  have hbased : paging.manager.physical_memory_offset = physical_memory_offset.toNat :=
    (perform_memory_calls_offset calls hrun).trans hinitialized
  obtain ⟨hsum, _⟩ := Option.filter_eq_some_iff.mp hvirtual
  obtain ⟨_, rfl⟩ := checked_add_eq_some.mp hsum
  simp only [Bool.or_eq_false_iff, bne_eq_false_iff_eq] at hversion haligned
  rw [hbased]
  unfold PAGE_SIZE at *
  omega

end Runs

/-- The loader builds exactly the image that was described. In any state that the memory
manager reaches, for segments and arguments that pass the checks, once the three regions
are mapped the load succeeds, and no assertion fails: the new space holds the image, in
memory that was cleared when its pages were mapped, and a context with the program's
entry, stack and arguments is accepted. -/
theorem loader_builds_process_image (mapper : Mapper) (version descriptor_version : UInt32)
    (physical_memory_offset : UInt64) (active_root : PhysFrame) (bits : Option UInt8) (memory : Nat → UInt8)
    (boot_info : BootInfo) (boot_info_address : UInt64) (loader : TableMemory) (booted ready paging : Paging)
    (calls : List MemoryCall)
    (hcreate : create mapper version descriptor_version physical_memory_offset active_root bits memory boot_info
      boot_info_address loader = .ok booted)
    (hready : heap.initialize_heap booted = (.ok (), ready)) (hrun : perform_memory_calls calls ready = some paging)
    (active : PhysFrame) (code data : List UInt8) (bss_len entry_offset : Nat) (path : List UInt8)
    (arguments : List (List UInt8)) (reservations : Reservations)
    (code_page_count data_page_count data_start : Nat) (argument_data : List UInt8) (argument_count : Nat)
    (hlayout : segment_layout code data bss_len entry_offset = .ok (code_page_count, data_page_count, data_start))
    (harguments : build_argument_vector path arguments reservations.argument_block = .ok (argument_data, argument_count))
    (hlists : reservations.page_lists = true) (space filled : AddressSpace) (created after : MemoryManager)
    (hspace : MemoryManager.create_address_space paging.manager = (.ok space, created))
    (code_pages data_pages stack_pages : List (Page × PhysFrame))
    (hmapped : map_regions code_page_count data_page_count data_start (USER_STACK_TOP - USER_STACK_SIZE)
      reservations.user_pages (space, created) = (.ok (code_pages, data_pages, stack_pages), (filled, after))) :
    let argument_vector := USER_STACK_TOP - USER_STACK_ARGUMENT_RESERVE - argument_data.length
    ∃ root program writes, filled.root = some root ∧
      load_segments active code data bss_len entry_offset path arguments reservations paging.manager =
        (.ok program, after) ∧
      program = ⟨filled, RAW_PROGRAM_BASE + entry_offset, USER_STACK_TOP, argument_count, argument_vector,
        if data.length + bss_len = 0 then none else some data_start⟩ ∧
      fill_address_space code data argument_data code_page_count data_page_count data_start
        (USER_STACK_TOP - USER_STACK_SIZE) argument_vector reservations.user_pages (space, created) =
          (.ok writes, (filled, after)) ∧
      (∀ ram : ByteMap, ProcessImage code data argument_data bss_len argument_vector data_start filled
        (after.page_tables root) (read_user after ((ram.stores (clearing after.physical_memory_offset
          (code_pages ++ data_pages ++ stack_pages))).stores writes) root)) ∧
      UserContext.for_address_space_with_arguments filled program.entry program.stack program.argument_count
        program.argument_vector = .ok ⟨program.entry, program.stack, program.argument_count, program.argument_vector⟩ := by
  intro argument_vector
  obtain ⟨hmapped_boot, base, hready_inv⟩ := booted_inv hcreate hready
  have hnodup := BootInfoFrameAllocator.unvisited_nodup hmapped_boot
  obtain ⟨final, hfinal, hinv⟩ := perform_memory_calls_inv calls hready_inv hnodup
  obtain rfl : final = paging := Option.mem_unique hfinal hrun
  obtain ⟨pool, account, hsystem, hbalance⟩ := hinv.books
  have haccount : account.Nodup := (List.nodup_append.mp (hbalance.nodup_iff.mpr hnodup)).1
  obtain ⟨root, share, rfl, hcreated, hshare, _⟩ := create_address_space_created hsystem haccount hspace
  have haligned : ∀ frame ∈ share, frame % PAGE_SIZE = 0 := by
    intro frame hframe
    have hmem := hbalance.subset (List.mem_append_left _ (hshare hframe))
    exact (BootInfoFrameAllocator.usable_of_mem hmapped_boot hmem).aligned
  have hoffset : created.physical_memory_offset = final.manager.physical_memory_offset := by
    have hfixed : (MemoryManager.create_address_space final.manager).2.Fixed
        fun offset _ => offset = final.manager.physical_memory_offset :=
      MemoryManager.create_address_space_fixed final.manager rfl
    rwa [hspace] at hfixed
  have hbased : created.physical_memory_offset % PAGE_SIZE = 0 := by
    rw [hoffset]
    exact direct_map_aligned hcreate hready hrun
  obtain ⟨hroot, hlaid⟩ := map_regions_laid hcreated haligned hbased hmapped
  have haccepted := segment_layout_ok hlayout
  have hlength := build_argument_vector_length harguments
  have hvector_eq : argument_vector = USER_STACK_TOP - USER_STACK_ARGUMENT_RESERVE - argument_data.length := rfl
  have htop_eq : USER_STACK_TOP = (66846720 * 512 + 512) * 4096 := rfl
  have hsize_eq : USER_STACK_SIZE = 4 * 4096 := rfl
  have hreserve_eq : USER_STACK_ARGUMENT_RESERVE = 256 := rfl
  have hvector : USER_STACK_TOP - USER_STACK_SIZE ≤ argument_vector := by omega
  have hblock : argument_vector + argument_data.length = USER_STACK_TOP - USER_STACK_ARGUMENT_RESERVE := by omega
  have htop : USER_STACK_TOP - USER_STACK_ARGUMENT_RESERVE ≤ USER_STACK_TOP := by decide
  obtain ⟨code_writes, data_writes, argument_writes, hcode_copy, hdata_copy, hargument_copy, hholds⟩ :=
    hlaid.copies haccepted hvector (hblock.trans_le htop)
  have hfill := fill_address_space_mapped hmapped hcode_copy hdata_copy hargument_copy
  have himage : ∀ ram : ByteMap, _ := fun ram =>
    hlaid.image haccepted hvector (hblock.trans_le htop) (hholds ram).1 (hholds ram).2.1 (hholds ram).2.2
  refine ⟨root, _, _, hroot, ?_, rfl, hfill, ?_, ?_⟩
  · have hdata_start : (if data_page_count ≠ 0 then some data_start else none) =
        if data.length + bss_len = 0 then none else some data_start := by
      have hzero : data_page_count = 0 ↔ data.length + bss_len = 0 := by
        rw [haccepted.data_pages]
        unfold PAGE_SIZE
        omega
      rw [ite_not]
      simp only [hzero]
    simp only [load_segments, bind_apply, lift_outcome, hlayout, harguments, hlists, Bool.not_true, Bool.false_eq_true,
      if_false, mapErr, hspace, fill_or_destroy]
    rw [hfill]
    simp only [pure_apply, hdata_start]
    rfl
  · intro ram
    rw [hlaid.based]
    exact himage ram
  · exact (himage fun _ => 0).context haccepted.entry_lt hvector hblock.le argument_count

/-- A program with code, data and bss, started with one argument. -/
theorem loader_builds_process_image_sample :
    ∃ ready program after, heap.initialize_heap sample_booted = (.ok (), ready) ∧
      load_segments 0x102000 [0x90, 0xc3] [7] 3 1 [0x61] [[0x62]] .granted ready.manager = (.ok program, after) ∧
      program.argument_count = 2 ∧ user_page_access program.address_space (RAW_PROGRAM_BASE / PAGE_SIZE) =
        some .ReadExecute := by
  have hlayout : segment_layout [0x90, 0xc3] [7] 3 1 = .ok (1, 1, RAW_PROGRAM_BASE + PAGE_SIZE) := by decide +kernel
  obtain ⟨argument_data, harguments⟩ : ∃ argument_data,
      build_argument_vector [0x61] [[0x62]] true = .ok (argument_data, 2) := ⟨_, rfl⟩
  have hspace : (MemoryManager.create_address_space (heap.initialize_heap sample_booted).2.manager).1 =
      .ok ⟨some 0x303000, []⟩ := by decide +kernel
  obtain ⟨⟨filled, after⟩, hmapped⟩ : ∃ after, map_regions 1 1 (RAW_PROGRAM_BASE + PAGE_SIZE)
      (USER_STACK_TOP - USER_STACK_SIZE) Reservations.granted.user_pages (⟨some 0x303000, []⟩,
        (MemoryManager.create_address_space (heap.initialize_heap sample_booted).2.manager).2) =
      (.ok ([(66846720 * 512 + 1, 0x304000)], [(66846720 * 512 + 2, 0x308000)], [(66846720 * 512 + 508, 0x309000),
        (66846720 * 512 + 509, 0x30a000), (66846720 * 512 + 510, 0x30b000), (66846720 * 512 + 511, 0x30c000)]), after) :=
    ⟨_, run_of_outcome (by decide +kernel)⟩
  obtain ⟨_, program, _, _, hload, hprogram, _, himage, _⟩ := loader_builds_process_image offset_page_table 2 1 0
    0x102000 (some 32) sample_memory sample_boot_info 0x103000 sample_loader sample_booted _ _ [] sample_create
    sample_initialize rfl 0x102000 [0x90, 0xc3] [7] 3 1 [0x61] [[0x62]] .granted 1 1 (RAW_PROGRAM_BASE + PAGE_SIZE)
    argument_data 2 hlayout harguments rfl _ filled _ after (run_of_outcome hspace) _ _ _ hmapped
  refine ⟨_, program, _, sample_initialize, hload, by rw [hprogram], ?_⟩
  rw [hprogram, (himage fun _ => 0).executable]
  exact ⟨by decide, by decide⟩

end leafos.user_program
