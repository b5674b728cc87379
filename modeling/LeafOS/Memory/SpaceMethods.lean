import LeafOS.Memory.Spaces

namespace leafos.memory

open Prog MemoryManager

namespace AddressSpace

variable {before after : List (Page × UserPageAccess)} (pages : List (Page × UserPageAccess))

/-- What a leaf entry says about its page. -/
def entry_of (leaf : Page × PhysFrame × PageTableFlags) : Page × PageTableFlags := (leaf.1, leaf.2.2)

/-- What the bookkeeping says about a page. -/
def record_of (mapped : Page × UserPageAccess) : Page × PageTableFlags := (mapped.1, mapped.2.flags)

/-- The list of user pages is the content of the page tables. -/
structure Mirrors (space : AddressSpace) (tables : UserTables) : Prop where
  settled : Settled tables
  listed : (tables.leaves.map entry_of).Perm (space.user_pages.map record_of)
  user : ∀ mapped ∈ space.user_pages, p4_index mapped.1 = USER_PML4_INDEX

/-- The frames that a space occupies: its root, its tables and its pages. -/
def frames (space : AddressSpace) (manager : MemoryManager) : List PhysFrame :=
  match space.root with
  | none => []
  | some root => root :: (manager.page_tables root).frames

section Mirrors

variable {space : AddressSpace} {tables tables' : UserTables} {page : Page} {access : UserPageAccess}

theorem map_fst_entry_of (leaves : List (Page × PhysFrame × PageTableFlags)) :
    (leaves.map entry_of).map Prod.fst = leaves.map Prod.fst := by
  rw [List.map_map]
  rfl

theorem map_fst_record_of : (pages.map record_of).map Prod.fst = pages.map Prod.fst := by
  rw [List.map_map]
  rfl

variable (hmirrors : space.Mirrors tables)
include hmirrors

theorem Mirrors.pages_perm : (tables.leaves.map Prod.fst).Perm (space.user_pages.map Prod.fst) := by
  rw [← map_fst_entry_of, ← map_fst_record_of]
  exact hmirrors.listed.map Prod.fst

theorem Mirrors.pages_nodup : (space.user_pages.map Prod.fst).Nodup :=
  hmirrors.pages_perm.nodup_iff.mp hmirrors.settled.keyed.leaves_nodup

theorem Mirrors.add (hsettled : Settled tables') {frame : PhysFrame}
    (hleaves : tables'.leaves = (page, frame, access.flags) :: tables.leaves)
    (huser : p4_index page = USER_PML4_INDEX) :
    ({ space with user_pages := space.user_pages ++ [(page, access)] } : AddressSpace).Mirrors tables' := by
  refine ⟨hsettled, ?_, ?_⟩
  · rw [hleaves, List.map_append, List.map_cons]
    exact (hmirrors.listed.cons (page, access.flags)).trans (List.perm_append_singleton _ _).symm
  · intro mapped hmapped
    obtain hmapped | hmapped := List.mem_append.mp hmapped
    · exact hmirrors.user mapped hmapped
    · rw [List.mem_singleton.mp hmapped]
      exact huser

theorem Mirrors.remove (hsettled : Settled tables')
    (hleaves : tables'.leaves = tables.leaves.filter fun entry => entry.1 != page)
    (hsplit : space.user_pages = before ++ (page, access) :: after) :
    ({ space with user_pages := before ++ after } : AddressSpace).Mirrors tables' := by
  refine ⟨hsettled, ?_, fun mapped hmapped => hmirrors.user mapped ?_⟩
  · have hkept := hmirrors.listed.filter fun entry => entry.1 != page
    rw [List.filter_map, List.filter_map] at hkept
    have hpages := hmirrors.pages_nodup
    rw [hsplit] at hkept hpages
    rw [hleaves]
    have hrest : ((before ++ (page, access) :: after).filter
        ((fun entry : Page × PageTableFlags => entry.1 != page) ∘ record_of)) = before ++ after :=
      List.filter_key_append_cons hpages
    rw [hrest] at hkept
    exact hkept
  · rw [hsplit, List.mem_append, List.mem_cons]
    exact (List.mem_append.mp hmapped).imp_right .inr

end Mirrors

/-- A state reached from `origin` by operations on the space with one root: the
tables of other roots are untouched, the list of pages mirrors the tables, and
the free frames and those of the space are the given ones. -/
structure Reached (boot : BootInfoFrameAllocator) (root : PhysFrame) (origin : MemoryManager)
    (account : List PhysFrame) (space : AddressSpace) (manager : MemoryManager) (pool : FramePool) :
    Prop where
  refines : manager.frame_allocator.Refines boot pool
  offset : manager.physical_memory_offset = origin.physical_memory_offset
  others : ∀ other, other ≠ root → manager.page_tables other = origin.page_tables other
  root_eq : ∀ found, space.root = some found → found = root
  mirrors : space.root = some root → space.Mirrors (manager.page_tables root)
  balance : (pool.free ++ space.frames manager).Perm account

section Methods

variable {boot : BootInfoFrameAllocator} {root : PhysFrame} {origin manager : MemoryManager}
  {account : List PhysFrame} {space : AddressSpace} {pool : FramePool} {page : Page}

/-- A change to the allocator and to the tables of the root that conserves frames. -/
theorem Reached.changed (hreached : Reached boot root origin account space manager pool)
    (hroot : space.root = some root) {pages : List (Page × UserPageAccess)} {tables : UserTables}
    {after : BootInfoFrameAllocator} {pool' : FramePool} (hafter : after.Refines boot pool')
    (hconserves : Conserves pool (manager.page_tables root) pool' tables)
    (hmirrors : ({ space with user_pages := pages } : AddressSpace).Mirrors tables) :
    Reached boot root origin account { space with user_pages := pages }
      (manager.changed root tables after) pool' := by
  refine ⟨hafter, hreached.offset, fun other hne => ?_, hreached.root_eq, fun _ => ?_, ?_⟩
  · simp only [MemoryManager.changed, Function.update_of_ne hne]
    exact hreached.others other hne
  · simpa only [MemoryManager.changed, Function.update_self] using hmirrors
  · have hbalance := hreached.balance
    simp only [frames, hroot, MemoryManager.changed, Function.update_self] at hbalance ⊢
    refine List.Perm.trans ?_ hbalance
    exact List.perm_middle.trans ((hconserves.cons root).trans List.perm_middle.symm)

theorem with_manager_apply {ε α : Type} (convert : ε → AddressSpaceError) (method : ManagerM ε α)
    (space : AddressSpace) (manager : MemoryManager) :
    with_manager convert method (space, manager) =
      match method manager with
      | (.ok value, after) => (.ok value, (space, after))
      | (.err error, after) => (.err (convert error), (space, after))
      | (.panic, after) => (.panic, (space, after)) := by
  simp only [with_manager, mapErr, zoom]
  rcases method manager with ⟨_ | _ | _, after⟩ <;> rfl

section Methods

variable (hreached : Reached boot root origin account space manager pool)
include hreached

theorem map_user_page_reached (access : UserPageAccess) (reserved : Bool) :
    ∃ outcome space' manager' pool',
      map_user_page page access reserved (space, manager) = (outcome, (space', manager')) ∧
      outcome ≠ .panic ∧ Reached boot root origin account space' manager' pool' ∧
      (∀ error, outcome = .err error → space' = space) ∧ ∀ frame, outcome = .ok frame →
        space' = { space with user_pages := space.user_pages ++ [(page, access)] } ∧
        (manager'.page_tables root).leaves = (page, frame, access.flags) :: (manager.page_tables root).leaves ∧
        MemoryManager.map_user_page root page access manager = (.ok frame, manager') := by
  cases hroot : space.root with
  | none =>
    exact ⟨.err .Released, space, manager, pool, by simp [map_user_page, hroot], by rintro ⟨⟩, hreached,
      fun _ _ => rfl, by rintro _ ⟨⟩⟩
  | some found =>
    obtain rfl := hreached.root_eq found hroot
    by_cases huser : p4_index page = USER_PML4_INDEX
    swap
    · exact ⟨.err .InvalidUserPage, space, manager, pool, by simp [map_user_page, hroot, huser], by rintro ⟨⟩,
        hreached, fun _ _ => rfl, by rintro _ ⟨⟩⟩
    cases hduplicate : space.user_pages.any fun mapped => mapped.1 == page with
    | true =>
      exact ⟨.err .DuplicateUserPage, space, manager, pool,
        by simp only [map_user_page, bind_apply, get_apply, hroot, okOr_some, huser, hduplicate]; rfl,
        by rintro ⟨⟩, hreached, fun _ _ => rfl, by rintro _ ⟨⟩⟩
    | false =>
      cases reserved with
      | false =>
        exact ⟨.err .AllocationFailed, space, manager, pool,
          by simp only [map_user_page, bind_apply, get_apply, hroot, okOr_some, huser, hduplicate]; rfl,
          by rintro ⟨⟩, hreached, fun _ _ => rfl, by rintro _ ⟨⟩⟩
      | true =>
        have hmirrors := hreached.mirrors hroot
        have habsent : page ∉ (manager.page_tables found).leaves.map Prod.fst := by
          rw [hmirrors.pages_perm.mem_iff, List.mem_map]
          rintro ⟨mapped, hmapped, hsame⟩
          simp only [List.any_eq_false, beq_iff_eq] at hduplicate
          exact hduplicate mapped hmapped hsame
        obtain ⟨outcome, tables, after, pool', hcall, hafter, hconserves, hsettled, hleaves⟩ :=
          MemoryManager.map_user_page_spec hreached.refines hmirrors.settled habsent access
        obtain ⟨frame, rfl, hleaves⟩ | ⟨error, rfl, hleaves⟩ := hleaves
        · refine ⟨.ok frame, { space with user_pages := space.user_pages ++ [(page, access)] },
            manager.changed found tables after, pool', ?_, by rintro ⟨⟩,
            hreached.changed hroot hafter hconserves (hmirrors.add hsettled hleaves huser), by rintro _ ⟨⟩, ?_⟩
          · simp [map_user_page, hroot, huser, hduplicate, with_manager_apply, hcall]
          · rintro _ ⟨⟩
            exact ⟨by rw [hroot], by simpa [MemoryManager.changed] using hleaves, hcall⟩
        · have hsame : space.Mirrors tables := ⟨hsettled, hleaves ▸ hmirrors.listed, hmirrors.user⟩
          refine ⟨.err (.Mapping error), space, _, pool', ?_, by rintro ⟨⟩,
            hreached.changed hroot hafter hconserves hsame, fun _ _ => rfl, by rintro _ ⟨⟩⟩
          simp [map_user_page, hroot, huser, hduplicate, with_manager_apply, hcall]

/-- Unmapping a listed page either has no effect or takes it out of the tables. -/
theorem Reached.unmap_page (hroot : space.root = some root) {access : UserPageAccess}
    (hsplit : space.user_pages = before ++ (page, access) :: after) :
    (∃ error, MemoryManager.unmap_page root page manager = (.err error, manager)) ∨
    ∃ manager' pool', MemoryManager.unmap_page root page manager = (.ok (), manager') ∧
      Reached boot root origin account { space with user_pages := before ++ after } manager' pool' := by
  have hmirrors := hreached.mirrors hroot
  obtain herror | ⟨tables, allocator, pool', hcall, hallocator, hsettled, _, hconserves, hleaves⟩ :=
    MemoryManager.unmap_page_spec hreached.refines hmirrors.settled
  · exact .inl herror
  · exact .inr ⟨_, pool', hcall,
      hreached.changed hroot hallocator hconserves (hmirrors.remove hsettled hleaves hsplit)⟩

theorem unmap_user_page_reached :
    ∃ outcome space' manager' pool',
      unmap_user_page page (space, manager) = (outcome, (space', manager')) ∧
      outcome ≠ .panic ∧ Reached boot root origin account space' manager' pool' := by
  cases hroot : space.root with
  | none => exact ⟨_, space, manager, pool, by simp [unmap_user_page, hroot]; rfl, by simp, hreached⟩
  | some found =>
    obtain rfl := hreached.root_eq found hroot
    cases hindex : space.user_pages.findIdx? fun mapped => mapped.1 == page with
    | none =>
      exact ⟨.err .UserPageNotMapped, space, manager, pool, by simp [unmap_user_page, hroot, hindex],
        by simp, hreached⟩
    | some index =>
      obtain ⟨hbound, hpage, _⟩ := List.findIdx?_eq_some_iff_getElem.mp hindex
      have hsplit : space.user_pages = space.user_pages.take index ++
          (page, space.user_pages[index].2) :: space.user_pages.drop (index + 1) := by
        have hsame : space.user_pages[index] = (page, space.user_pages[index].2) :=
          Prod.ext (beq_iff_eq.mp hpage) rfl
        rw [← hsame, ← List.drop_eq_getElem_cons hbound, List.take_append_drop]
      obtain ⟨error, hcall⟩ | ⟨manager', pool', hcall, hafter⟩ := hreached.unmap_page hroot hsplit
      · exact ⟨.err (.Unmapping error), space, manager, pool,
          by simp [unmap_user_page, hroot, hindex, with_manager_apply, hcall], by simp, hreached⟩
      · rw [← List.eraseIdx_eq_take_drop_succ] at hafter
        exact ⟨.ok (), _, manager', pool',
          by simp [unmap_user_page, hroot, hindex, with_manager_apply, hcall], by simp, hafter⟩

end Methods

variable (hreached : Reached boot root origin account space manager pool)
include hreached

/-- The loop of `destroy`, wherever it stops. -/
theorem unmap_all_reached (hroot : space.root = some root) (hpages : space.user_pages.reverse = pages) :
    ∃ outcome space' manager' pool',
      unmap_all root pages (space, manager) = (outcome, (space', manager')) ∧ outcome ≠ .panic ∧
      Reached boot root origin account space' manager' pool' ∧ space'.root = some root ∧
      (outcome = .ok () → space'.user_pages = []) := by
  induction pages generalizing space manager pool with
  | nil => exact ⟨.ok (), space, manager, pool, rfl, by simp, hreached, hroot, by simpa using hpages⟩
  | cons mapped rest ih =>
    obtain ⟨page, access⟩ := mapped
    have hsplit : space.user_pages = rest.reverse ++ (page, access) :: [] := by
      rw [← List.reverse_cons, ← hpages, List.reverse_reverse]
    obtain ⟨error, hcall⟩ | ⟨manager', pool', hcall, hafter⟩ := hreached.unmap_page hroot hsplit
    · exact ⟨.err (.Unmapping error), space, manager, pool,
        by simp [unmap_all, with_manager_apply, hcall], by simp, hreached, hroot, by simp⟩
    · rw [List.append_nil] at hafter
      obtain ⟨outcome, space', manager'', pool'', hrest, hresult⟩ :=
        ih hafter hroot (List.reverse_reverse rest)
      refine ⟨outcome, space', manager'', pool'', ?_, hresult⟩
      simp only [unmap_all, bind_apply, with_manager_apply, hcall, modify_apply, hsplit,
        List.dropLast_concat]
      exact hrest

theorem destroy_reached (active : PhysFrame) :
    ∃ outcome space' manager' pool',
      destroy active (space, manager) = (outcome, (space', manager')) ∧
      outcome ≠ .panic ∧ Reached boot root origin account space' manager' pool' := by
  cases hroot : space.root with
  | none => exact ⟨_, space, manager, pool, by simp [destroy, hroot]; rfl, by simp, hreached⟩
  | some found =>
    obtain rfl := hreached.root_eq found hroot
    by_cases hactive : active = found
    · exact ⟨.err .ActiveAddressSpace, space, manager, pool, by simp [destroy, hroot, hactive], by simp,
        hreached⟩
    obtain ⟨outcome, space', manager', pool', hloop, hpanic, hafter, hroot', hempty⟩ :=
      unmap_all_reached space.user_pages.reverse hreached hroot rfl
    cases outcome with
    | panic => exact absurd rfl hpanic
    | err error =>
      exact ⟨.err error, space', manager', pool', by simp [destroy, hroot, hactive, hloop], by simp, hafter⟩
    | ok _ =>
      have hleaves : (manager'.page_tables found).leaves = [] := by
        have hperm := (hafter.mirrors hroot').pages_perm
        rw [hempty rfl, List.map_nil] at hperm
        exact List.map_eq_nil_iff.mp hperm.eq_nil
      have hframes : space'.frames manager' = [found] := by
        simp [frames, hroot', (hafter.mirrors hroot').settled.frames_eq_nil hleaves]
      obtain ⟨rest, allocator, hput, hreturn, hrest⟩ | ⟨error, hreturn, _⟩ := hafter.refines.deallocate_frame found
      · obtain ⟨hfresh, hreturned⟩ := Pool.put_eq_some hput
        refine ⟨.ok (), { space' with root := none }, { manager' with frame_allocator := allocator }, rest,
          ?_, by simp, hrest, hafter.offset, hafter.others, by simp, by simp, ?_⟩
        · simp [destroy, hroot, hactive, hloop, with_manager_apply, MemoryManager.deallocate_frame,
            with_allocator, zoom, hreturn]
        · have hbalance := hafter.balance
          rw [hframes] at hbalance
          have hfree : rest.free = found :: pool'.free := by simp [Pool.free, hfresh, hreturned]
          rw [hfree]
          simpa [frames] using (List.perm_append_singleton found pool'.free).symm.trans hbalance
      · refine ⟨.err (.Memory error), space', manager', pool', ?_, by simp, hafter⟩
        simp [destroy, hroot, hactive, hloop, with_manager_apply, MemoryManager.deallocate_frame,
          with_allocator, zoom, hreturn]

end Methods

end AddressSpace

end leafos.memory
