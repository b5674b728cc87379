import LeafOS.Memory.DirectMap
import LeafOS.UserProgram.Copying
import LeafOS.UserProgram.Loading

namespace leafos.memory

open Prog

variable {frame : PhysFrame} {page : Page} {access : UserPageAccess}

/-- A frame that was mapped had an address in the direct map. -/
theorem MemoryManager.map_user_page_addressable {self after : MemoryManager} {root : PhysFrame}
    (hcall : map_user_page root page access self = (.ok frame, after)) : (self.physical_to_virtual frame).isSome := by
  obtain ⟨_, _, hself, hcall⟩ := bind_eq_ok_iff.mp hcall
  obtain ⟨rfl, rfl⟩ : self = _ ∧ self = _ := by simpa using hself
  obtain ⟨found, between, _, hcall⟩ := bind_eq_ok_iff.mp hcall
  obtain ⟨taken, later, _, hcall⟩ := bind_eq_ok_iff.mp hcall
  cases hvirtual : self.physical_to_virtual taken with
  | none =>
    simp only [hvirtual] at hcall
    obtain ⟨_, _, _, hcall⟩ := bind_eq_ok_iff.mp hcall
    cases hcall
  | some address =>
    cases hroot : self.physical_to_virtual root with
    | none =>
      simp only [hvirtual, hroot] at hcall
      obtain ⟨_, _, _, hcall⟩ := bind_eq_ok_iff.mp hcall
      cases hcall
    | some _ =>
      simp only [hvirtual, hroot] at hcall
      obtain ⟨result, _, _, hcall⟩ := bind_eq_ok_iff.mp hcall
      cases result with
      | ok _ =>
        cases hcall
        rw [hvirtual]
        rfl
      | error _ =>
        obtain ⟨_, _, _, hcall⟩ := bind_eq_ok_iff.mp hcall
        obtain ⟨_, _, _, hcall⟩ := bind_eq_ok_iff.mp hcall
        cases hcall

namespace AddressSpace

open MemoryManager

variable {boot : BootInfoFrameAllocator} {root : PhysFrame} {origin manager manager' : MemoryManager}
  {account : List PhysFrame} {space space' : AddressSpace} {pool : FramePool}

/-- What a successful `map_user_page` adds. -/
theorem Reached.mapped {reserved : Bool} (hreached : Reached boot root origin account space manager pool)
    (hcall : map_user_page page access reserved (space, manager) = (.ok frame, (space', manager'))) :
    (∃ pool', Reached boot root origin account space' manager' pool') ∧
      space' = { space with user_pages := space.user_pages ++ [(page, access)] } ∧
      (manager'.page_tables root).leaves = (page, frame, access.flags) :: (manager.page_tables root).leaves ∧
      (origin.physical_to_virtual frame).isSome := by
  obtain ⟨outcome, space'', manager'', pool', hcall', _, hafter, _, hadded⟩ := map_user_page_reached hreached access reserved
  rw [hcall] at hcall'
  cases hcall'
  obtain ⟨hspace, hleaves, hmap⟩ := hadded frame rfl
  have haddressable := map_user_page_addressable hmap
  rw [physical_to_virtual, hreached.offset] at haddressable
  exact ⟨⟨pool', hafter⟩, hspace, hleaves, haddressable⟩

end AddressSpace

end leafos.memory

namespace leafos.user_program

open leafos.memory AddressSpace Prog

variable {reserved : Nat → Bool}

section Mapping

variable {boot : BootInfoFrameAllocator} {root : PhysFrame} {origin manager manager' : MemoryManager}
  {account : List PhysFrame} {space space' : AddressSpace} {pool : FramePool}

/-- What mapping a run of pages with one access adds. -/
structure Adds (root : PhysFrame) (origin : MemoryManager) (access : UserPageAccess) (numbers : List Page)
    (pages : List (Page × PhysFrame)) (before after : AddressSpace × MemoryManager) : Prop where
  numbers_eq : pages.map Prod.fst = numbers
  listed : after.1 = { before.1 with user_pages := before.1.user_pages ++ pages.map fun page => (page.1, access) }
  leaves : (after.2.page_tables root).leaves.Perm
    (pages.map (fun page => (page.1, page.2, access.flags)) ++ (before.2.page_tables root).leaves)
  addressable : ∀ page ∈ pages, (origin.physical_to_virtual page.2).isSome

theorem map_pages_adds {start : Nat} {access : UserPageAccess} {indices : List Nat} {pages : List (Page × PhysFrame)}
    (hreached : Reached boot root origin account space manager pool) (hroot : space.root = some root)
    (hcall : map_pages start access reserved indices (space, manager) = (.ok pages, (space', manager'))) :
    (∃ pool', Reached boot root origin account space' manager' pool') ∧ space'.root = some root ∧
      Adds root origin access (indices.map fun index => (start + index * PAGE_SIZE) / PAGE_SIZE) pages
        (space, manager) (space', manager') := by
  induction indices generalizing space manager pool pages with
  | nil =>
    cases hcall
    refine ⟨⟨pool, hreached⟩, hroot, rfl, ?_, ?_, nofun⟩
    · simp
    · exact List.Perm.refl _
  | cons index rest ih =>
    obtain ⟨frame, ⟨between, between'⟩, hmap, hcall⟩ := bind_eq_ok_iff.mp hcall
    obtain ⟨others, ⟨_, _⟩, hothers, hcall⟩ := bind_eq_ok_iff.mp hcall
    cases hcall
    obtain ⟨⟨pool', hbetween⟩, rfl, hleaves, haddressable⟩ := hreached.mapped hmap
    obtain ⟨hafter, hroot', hadds⟩ := ih hbetween hroot hothers
    refine ⟨hafter, hroot', ?_, ?_, ?_, List.forall_mem_cons.mpr ⟨haddressable, hadds.addressable⟩⟩
    · rw [List.map_cons, List.map_cons, hadds.numbers_eq]
    · rw [hadds.listed]
      simp
    · refine hadds.leaves.trans ?_
      dsimp only
      rw [hleaves]
      exact List.perm_middle

end Mapping

/-- The three mapping loops of `load_segments`. -/
def map_regions (code_page_count data_page_count data_start stack_start : Nat) (reserved : Nat → Bool) :
    SpaceM (List (Page × PhysFrame) × List (Page × PhysFrame) × List (Page × PhysFrame)) := do
  let code_pages ← map_pages RAW_PROGRAM_BASE .ReadExecute reserved (List.range code_page_count)
  let data_pages ← map_pages data_start .ReadWrite (fun page_index => reserved (code_page_count + page_index))
    (List.range data_page_count)
  let stack_pages ← map_pages stack_start .ReadWrite
    (fun page_index => reserved (code_page_count + data_page_count + page_index))
    (List.range (USER_STACK_SIZE / PAGE_SIZE))
  return (code_pages, data_pages, stack_pages)

/-- Once the pages are mapped, filling the space is copying. -/
theorem fill_address_space_mapped {code data argument_data : List UInt8} {code_page_count data_page_count data_start
    stack_start argument_vector : Nat} {state after : AddressSpace × MemoryManager}
    {code_pages data_pages stack_pages : List (Page × PhysFrame)}
    {code_writes data_writes argument_writes : List (Nat × List UInt8)}
    (hmapped : map_regions code_page_count data_page_count data_start stack_start reserved state =
      (.ok (code_pages, data_pages, stack_pages), after))
    (hcode : copy_to_pages code code_pages state.2.physical_memory_offset RAW_PROGRAM_BASE = .ok code_writes)
    (hdata : copy_to_pages data data_pages state.2.physical_memory_offset data_start = .ok data_writes)
    (harguments : copy_to_pages argument_data stack_pages state.2.physical_memory_offset argument_vector =
      .ok argument_writes) :
    fill_address_space code data argument_data code_page_count data_page_count data_start stack_start argument_vector
      reserved state = (.ok (code_writes ++ data_writes ++ argument_writes), after) := by
  obtain ⟨_, _, hcode_pages, hmapped⟩ := bind_eq_ok_iff.mp hmapped
  obtain ⟨_, _, hdata_pages, hmapped⟩ := bind_eq_ok_iff.mp hmapped
  obtain ⟨_, _, hstack_pages, hmapped⟩ := bind_eq_ok_iff.mp hmapped
  cases hmapped
  refine bind_eq_ok_iff.mpr ⟨_, _, rfl, bind_eq_ok_iff.mpr ⟨_, _, mapErr_eq_ok_iff.mpr hcode_pages,
    bind_eq_ok_iff.mpr ⟨_, _, mapErr_eq_ok_iff.mpr hdata_pages,
      bind_eq_ok_iff.mpr ⟨_, _, mapErr_eq_ok_iff.mpr hstack_pages, ?_⟩⟩⟩⟩
  simp only [bind_apply, lift_outcome, hcode, hdata, harguments]
  rfl

section Laying

variable {pages : List (Nat × Nat)} {manager : MemoryManager} {root : PhysFrame}

/-- What is known once the three regions are mapped. -/
structure Laid (root : PhysFrame) (physical_offset code_page_count data_page_count data_start : Nat)
    (code_pages data_pages stack_pages : List (Nat × Nat)) (space : AddressSpace) (manager : MemoryManager) : Prop where
  mirrors : space.Mirrors (manager.page_tables root)
  based : manager.physical_memory_offset = physical_offset
  code : Region physical_offset (RAW_PROGRAM_BASE / PAGE_SIZE) code_pages ∧ code_pages.length = code_page_count
  data : Region physical_offset (data_start / PAGE_SIZE) data_pages ∧ data_pages.length = data_page_count
  stack : Region physical_offset ((USER_STACK_TOP - USER_STACK_SIZE) / PAGE_SIZE) stack_pages ∧
    stack_pages.length = USER_STACK_SIZE / PAGE_SIZE
  apart : (code_pages ++ data_pages ++ stack_pages).Pairwise Apart
  listed : space.user_pages = code_pages.map (fun page => (page.1, .ReadExecute)) ++
    data_pages.map (fun page => (page.1, .ReadWrite)) ++ stack_pages.map fun page => (page.1, .ReadWrite)
  leaves : ∀ page ∈ code_pages ++ data_pages ++ stack_pages, ∃ flags,
    (page.1, page.2, flags) ∈ (manager.page_tables root).leaves

theorem apart_of_nodup (hnodup : (pages.map Prod.snd).Nodup)
    (haligned : ∀ page ∈ pages, page.2 % PAGE_SIZE = 0) : pages.Pairwise Apart := by
  refine (List.pairwise_map.mp hnodup).imp_of_mem ?_
  intro page other hpage hother hne
  have hleft := haligned page hpage
  have hright := haligned other hother
  unfold Apart
  unfold PAGE_SIZE at *
  omega

/-- With direct map and frame aligned, an address of the frame's start is one of each of
its bytes. -/
theorem reachable_of_addressable {frame : Nat} (hbased : manager.physical_memory_offset % PAGE_SIZE = 0)
    (haligned : frame % PAGE_SIZE = 0) (haddressable : (manager.physical_to_virtual frame).isSome) :
    Reachable manager.physical_memory_offset frame := by
  obtain ⟨address, hvirtual⟩ := Option.isSome_iff_exists.mp haddressable
  obtain ⟨hsum, hcanonical⟩ := Option.filter_eq_some_iff.mp hvirtual
  obtain ⟨hbound, rfl⟩ := checked_add_eq_some.mp hsum
  simp only [canonical, Bool.or_eq_true, decide_eq_true_eq] at hcanonical
  generalize manager.physical_memory_offset = base at *
  unfold Reachable
  simp only [canonical, Bool.or_eq_true, decide_eq_true_eq]
  unfold PAGE_SIZE at *
  refine ⟨by omega, fun offset hoffset => ?_⟩
  omega

/-- The numbers of the pages that a mapping loop visits. -/
theorem region_numbers (start count : Nat) :
    ((List.range count).map fun index => (start + index * PAGE_SIZE) / PAGE_SIZE) =
      List.range' (start / PAGE_SIZE) count := by
  rw [List.range'_eq_map_range]
  refine List.map_congr_left fun index _ => ?_
  rw [Nat.add_mul_div_right _ _ (by decide)]

section Reaching

variable {boot : BootInfoFrameAllocator} {origin : MemoryManager} {account : List PhysFrame} {space : AddressSpace}
  {pool : FramePool}

/-- The frames behind the pages of a space are distinct, and among those it was given. -/
theorem leaf_frames (hreached : Reached boot root origin account space manager pool) (hroot : space.root = some root)
    (hnodup : account.Nodup) : ((manager.page_tables root).leaves.map fun entry => entry.2.1).Nodup ∧
      ∀ entry ∈ (manager.page_tables root).leaves, entry.2.1 ∈ account := by
  have hframes : space.frames manager = root :: ((manager.page_tables root).tables.map Prod.snd ++
      (manager.page_tables root).leaves.map fun entry => entry.2.1) := by
    simp only [AddressSpace.frames, hroot, UserTables.frames]
  have hbalance := hreached.balance
  rw [hframes] at hbalance
  have hall := hbalance.nodup_iff.mpr hnodup
  refine ⟨?_, fun entry hentry => ?_⟩
  · exact (List.nodup_append.mp (List.nodup_cons.mp (List.nodup_append.mp hall).2.1).2).2.1
  · apply hbalance.subset
    exact List.mem_append_right _ (List.mem_cons_of_mem _ (List.mem_append_right _ (List.mem_map.mpr ⟨_, hentry, rfl⟩)))

/-- A space that was just created. -/
structure Created (boot : BootInfoFrameAllocator) (account : List PhysFrame) (root : PhysFrame)
    (manager : MemoryManager) : Prop where
  reached : ∃ pool, Reached boot root manager account ⟨some root, []⟩ manager pool
  empty : (manager.page_tables root).leaves = []
  nodup : account.Nodup

theorem create_address_space_created {spaces : List AddressSpace} {created : MemoryManager}
    (hinv : (System.mk manager spaces).Inv boot pool account) (hnodup : account.Nodup)
    (hcall : MemoryManager.create_address_space manager = (.ok space, created)) :
    ∃ root share, space = ⟨some root, []⟩ ∧ Created boot share root created ∧ share ⊆ account ∧
      share.length + (spaces.flatMap fun other => other.frames created).length = account.length := by
  obtain ⟨_, _, _, hfailed, _⟩ | ⟨root, _, pool', hcreated, hafter, _⟩ := hinv.create_address_space hnodup
  · cases hfailed.symm.trans hcall
  · cases hcreated.symm.trans hcall
    have hmem : (⟨some root, []⟩ : AddressSpace) ∈ spaces ++ [⟨some root, []⟩] := by simp
    have hshare : (pool'.free ++ (AddressSpace.mk (some root) []).frames created).Sublist
        (pool'.free ++ (System.mk created (spaces ++ [⟨some root, []⟩])).in_use) := by
      simp only [System.in_use, List.flatMap_append, List.flatMap_cons, List.flatMap_nil, List.append_nil]
      exact (List.sublist_append_right _ _).append_left _
    refine ⟨root, _, rfl, ⟨⟨pool', hafter.start hmem rfl⟩, ?_, hshare.nodup (hafter.balance.nodup_iff.mpr hnodup)⟩,
      fun frame hframe => hafter.balance.subset (hshare.subset hframe), ?_⟩
    · have hperm := (hafter.mirrors _ hmem root rfl).pages_perm
      exact List.map_eq_nil_iff.mp hperm.eq_nil
    · have hlength := hafter.balance.length_eq
      simp only [System.in_use, List.flatMap_append, List.flatMap_cons, List.flatMap_nil, List.append_nil,
        List.length_append] at hlength ⊢
      omega

end Reaching

/-- The region that a mapping loop makes. -/
theorem Adds.region {origin : MemoryManager} {access : UserPageAccess} {start count : Nat}
    {before after : AddressSpace × MemoryManager}
    (hadds : Adds root origin access ((List.range count).map fun index => (start + index * PAGE_SIZE) / PAGE_SIZE)
      pages before after) (hbased : origin.physical_memory_offset % PAGE_SIZE = 0)
    (haligned : ∀ page ∈ pages, page.2 % PAGE_SIZE = 0) (hapart : pages.Pairwise Apart) :
    Region origin.physical_memory_offset (start / PAGE_SIZE) pages ∧ pages.length = count := by
  have hlength : pages.length = count := by
    have hnumbers := congrArg List.length hadds.numbers_eq
    simpa using hnumbers
  refine ⟨⟨?_, fun page hpage => ?_, hapart⟩, hlength⟩
  · rw [hlength, hadds.numbers_eq, region_numbers]
  · exact reachable_of_addressable hbased (haligned page hpage) (hadds.addressable page hpage)

theorem map_regions_laid {boot : BootInfoFrameAllocator} {account : List PhysFrame} {after : MemoryManager}
    {filled : AddressSpace} {code_page_count data_page_count data_start : Nat}
    {code_pages data_pages stack_pages : List (Nat × Nat)} (hcreated : Created boot account root manager)
    (haligned : ∀ frame ∈ account, frame % PAGE_SIZE = 0) (hbased : manager.physical_memory_offset % PAGE_SIZE = 0)
    (hmapped : map_regions code_page_count data_page_count data_start (USER_STACK_TOP - USER_STACK_SIZE) reserved
      (⟨some root, []⟩, manager) = (.ok (code_pages, data_pages, stack_pages), (filled, after))) :
    filled.root = some root ∧ Laid root manager.physical_memory_offset code_page_count data_page_count data_start
      code_pages data_pages stack_pages filled after := by
  obtain ⟨pool, hreached⟩ := hcreated.reached
  obtain ⟨_, ⟨space₁, manager₁⟩, hcode_pages, hmapped⟩ := bind_eq_ok_iff.mp hmapped
  obtain ⟨_, ⟨space₂, manager₂⟩, hdata_pages, hmapped⟩ := bind_eq_ok_iff.mp hmapped
  obtain ⟨_, ⟨space₃, manager₃⟩, hstack_pages, hmapped⟩ := bind_eq_ok_iff.mp hmapped
  cases hmapped
  obtain ⟨⟨_, hreached₁⟩, hroot₁, hcode⟩ := map_pages_adds hreached rfl hcode_pages
  obtain ⟨⟨_, hreached₂⟩, hroot₂, hdata⟩ := map_pages_adds hreached₁ hroot₁ hdata_pages
  obtain ⟨⟨_, hreached₃⟩, hroot₃, hstack⟩ := map_pages_adds hreached₂ hroot₂ hstack_pages
  obtain ⟨hnodup, hmem⟩ := leaf_frames hreached₃ hroot₃ hcreated.nodup
  have hleaves : (after.page_tables root).leaves.Perm
      (code_pages.map (fun page => (page.1, page.2, UserPageAccess.ReadExecute.flags)) ++
        data_pages.map (fun page => (page.1, page.2, UserPageAccess.ReadWrite.flags)) ++
        stack_pages.map fun page => (page.1, page.2, UserPageAccess.ReadWrite.flags)) := by
    refine hstack.leaves.trans ((hdata.leaves.trans (hcode.leaves.append_left _)).append_left _ |>.trans ?_)
    simp only [hcreated.empty, List.append_nil]
    exact List.perm_append_comm.trans (List.perm_append_comm.append_right _)
  have hlisted : ∀ page ∈ code_pages ++ data_pages ++ stack_pages, ∃ flags,
      (page.1, page.2, flags) ∈ (after.page_tables root).leaves := by
    intro page hpage
    simp only [List.mem_append] at hpage
    obtain (hpage | hpage) | hpage := hpage
    · exact ⟨_, hleaves.symm.subset (List.mem_append_left _ (List.mem_append_left _ (List.mem_map.mpr ⟨page, hpage, rfl⟩)))⟩
    · exact ⟨_, hleaves.symm.subset (List.mem_append_left _ (List.mem_append_right _ (List.mem_map.mpr ⟨page, hpage, rfl⟩)))⟩
    · exact ⟨_, hleaves.symm.subset (List.mem_append_right _ (List.mem_map.mpr ⟨page, hpage, rfl⟩))⟩
  have hframes : ∀ page ∈ code_pages ++ data_pages ++ stack_pages, page.2 % PAGE_SIZE = 0 := by
    intro page hpage
    obtain ⟨flags, hleaf⟩ := hlisted page hpage
    exact haligned _ (hmem _ hleaf)
  have hapart : (code_pages ++ data_pages ++ stack_pages).Pairwise Apart := by
    apply apart_of_nodup ?_ hframes
    have hnodup := (hleaves.map fun entry => entry.2.1).nodup_iff.mp hnodup
    simpa only [List.map_append, List.map_map, Function.comp_def] using hnodup
  obtain ⟨hfront, hbehind, _⟩ := List.pairwise_append.mp hapart
  obtain ⟨hfirst, hsecond, _⟩ := List.pairwise_append.mp hfront
  refine ⟨hroot₃, hreached₃.mirrors hroot₃, hreached₃.offset, ?_, ?_, ?_, hapart, ?_, hlisted⟩
  · exact hcode.region hbased (fun page hpage => hframes page (by simp [hpage])) hfirst
  · exact hdata.region hbased (fun page hpage => hframes page (by simp [hpage])) hsecond
  · exact hstack.region hbased (fun page hpage => hframes page (by simp [hpage])) hbehind
  · have hspace₁ : space₁ = _ := hcode.listed
    have hspace₂ : space₂ = _ := hdata.listed
    have hspace₃ : filled = _ := hstack.listed
    rw [hspace₃, hspace₂, hspace₁]
    rfl

end Laying

end leafos.user_program
