import LeafOS.Memory.FrameRuns
import LeafOS.Memory.System

namespace leafos.memory

open Prog MemoryManager AddressSpace

/-- A call on an address space, named by its position. Each carries what the rest of
the kernel decides: whether the page list could grow, and which root is active. -/
inductive Call where
  | create_address_space
  | map_user_page (space : Nat) (page : Page) (access : UserPageAccess) (reserved : Bool)
  | unmap_user_page (space : Nat) (page : Page)
  | destroy (space : Nat) (active : PhysFrame)
deriving Repr, DecidableEq

/-- Call a method of one space. There is no result when an assertion fails. -/
def System.on_space {α : Type} (self : System) (index : Nat) (method : SpaceM α) : Option System :=
  match self.spaces[index]? with
  | none => some self
  | some space =>
    match method (space, self.manager) with
    | (.panic, _) => none
    | (_, (space, manager)) => some ⟨manager, self.spaces.set index space⟩

def Call.perform (call : Call) (system : System) : Option System :=
  match call with
  | .create_address_space =>
    match MemoryManager.create_address_space system.manager with
    | (.ok space, manager) => some ⟨manager, system.spaces ++ [space]⟩
    | (.err _, manager) => some ⟨manager, system.spaces⟩
    | (.panic, _) => none
  | .map_user_page space page access reserved =>
    system.on_space space (AddressSpace.map_user_page page access reserved)
  | .unmap_user_page space page => system.on_space space (AddressSpace.unmap_user_page page)
  | .destroy space active => system.on_space space (AddressSpace.destroy active)

/-- Perform calls in order, whatever they return; no result if one panics. -/
def perform_all : List Call → System → Option System
  | [], system => some system
  | call :: rest, system => (call.perform system).bind (perform_all rest)

section Runs

variable {system : System} {boot : BootInfoFrameAllocator} {pool : FramePool} {account : List PhysFrame} (page : Page)

/-- The methods of `AddressSpace`: on a released space they return `Released`, on a
live one they stay within its frames. -/
structure Confined {α : Type} (method : SpaceM α) : Prop where
  released : ∀ space manager, space.root = none →
    method (space, manager) = (.err .Released, (space, manager))
  reached : ∀ {boot root origin account space manager pool}, Reached boot root origin account space manager pool →
    ∃ outcome space' manager' pool', method (space, manager) = (outcome, (space', manager')) ∧
      outcome ≠ .panic ∧ Reached boot root origin account space' manager' pool'

theorem confined_map_user_page (access : UserPageAccess) (reserved : Bool) :
    Confined (AddressSpace.map_user_page page access reserved) :=
  ⟨fun space manager hroot => by simp [AddressSpace.map_user_page, hroot],
    fun hreached => by
      obtain ⟨outcome, space', manager', pool', hcall, hpanic, hafter, _⟩ := map_user_page_reached hreached access reserved
      exact ⟨outcome, space', manager', pool', hcall, hpanic, hafter⟩⟩

theorem confined_unmap_user_page : Confined (AddressSpace.unmap_user_page page) :=
  ⟨fun space manager hroot => by simp [AddressSpace.unmap_user_page, hroot], unmap_user_page_reached⟩

theorem confined_destroy (active : PhysFrame) : Confined (AddressSpace.destroy active) :=
  ⟨fun space manager hroot => by simp [AddressSpace.destroy, hroot],
    fun hreached => destroy_reached hreached active⟩

/-- What calls on existing spaces leave: no new live space, and the tables of every
root that is not theirs. -/
structure System.Descends (after before : System) : Prop where
  roots : ∀ space ∈ after.spaces, ∀ root, space.root = some root → ∃ sibling ∈ before.spaces, sibling.root = some root
  others : ∀ root, (∀ space ∈ before.spaces, space.root ≠ some root) →
    after.manager.page_tables root = before.manager.page_tables root

theorem System.Descends.refl (system : System) : system.Descends system :=
  ⟨fun space hspace _ hroot => ⟨space, hspace, hroot⟩, fun _ _ => rfl⟩

theorem System.Inv.on_space {α : Type} {method : SpaceM α} (hconfined : Confined method)
    (hinv : system.Inv boot pool account) (hnodup : account.Nodup) (index : Nat) :
    ∃ after pool', system.on_space index method = some after ∧ after.Inv boot pool' account ∧
      after.Descends system := by
  cases hspace : system.spaces[index]? with
  | none => exact ⟨system, pool, by simp [System.on_space, hspace], hinv, .refl system⟩
  | some space =>
    obtain ⟨hbound, hget⟩ := List.getElem?_eq_some_iff.mp hspace
    cases hroot : space.root with
    | none =>
      refine ⟨system, pool, ?_, hinv, .refl system⟩
      subst hget
      simp [System.on_space, hconfined.released _ system.manager hroot, hbound]
    | some root =>
      have hsplit : system.spaces = system.spaces.take index ++ space :: system.spaces.drop (index + 1) := by
        rw [← hget, ← List.drop_eq_getElem_cons hbound, List.take_append_drop]
      have hmem : space ∈ system.spaces := hget ▸ List.getElem_mem hbound
      obtain ⟨outcome, space', manager', pool', hcall, hpanic, hreached⟩ :=
        hconfined.reached (hinv.start hmem hroot)
      have hafter := hinv.reached hnodup hsplit hroot hreached
      have hset : system.spaces.set index space' =
          system.spaces.take index ++ space' :: system.spaces.drop (index + 1) :=
        List.set_eq_take_append_cons_drop.trans (if_pos hbound)
      have hdescends : (System.mk manager' (system.spaces.take index ++ space' ::
          system.spaces.drop (index + 1))).Descends system := by
        refine ⟨fun other hother found hfound => ?_, fun found hforeign => ?_⟩
        · rw [mem_split] at hother
          obtain rfl | hother := hother
          · exact ⟨space, hmem, hreached.root_eq found hfound ▸ hroot⟩
          · refine ⟨other, ?_, hfound⟩
            rw [hsplit, mem_split]
            exact .inr hother
        · exact hreached.others found fun hsame => hforeign space hmem (hsame ▸ hroot)
      refine ⟨_, pool', ?_, hafter, hdescends⟩
      rw [← hset]
      cases outcome with
      | panic => exact absurd rfl hpanic
      | ok _ | err _ => simp only [System.on_space, hspace, hcall]

theorem Call.perform_inv (call : Call) (hinv : system.Inv boot pool account) (hnodup : account.Nodup) :
    ∃ after pool', call.perform system = some after ∧ after.Inv boot pool' account := by
  cases call with
  | create_address_space =>
    obtain ⟨error, manager, pool', hcall, hafter, _⟩ | ⟨root, manager, pool', hcall, hafter, _⟩ :=
      hinv.create_address_space hnodup
    all_goals exact ⟨_, pool', by simp only [Call.perform, hcall], hafter⟩
  | map_user_page space page access reserved =>
    obtain ⟨after, pool', hcall, hafter, _⟩ :=
      hinv.on_space (confined_map_user_page page access reserved) hnodup space
    exact ⟨after, pool', hcall, hafter⟩
  | unmap_user_page space page =>
    obtain ⟨after, pool', hcall, hafter, _⟩ := hinv.on_space (confined_unmap_user_page page) hnodup space
    exact ⟨after, pool', hcall, hafter⟩
  | destroy space active =>
    obtain ⟨after, pool', hcall, hafter, _⟩ := hinv.on_space (confined_destroy active) hnodup space
    exact ⟨after, pool', hcall, hafter⟩

theorem perform_all_inv (calls : List Call) (hinv : system.Inv boot pool account) (hnodup : account.Nodup) :
    ∃ final pool', perform_all calls system = some final ∧ final.Inv boot pool' account := by
  induction calls generalizing system pool with
  | nil => exact ⟨system, pool, rfl, hinv⟩
  | cons call rest ih =>
    obtain ⟨after, pool', hcall, hafter⟩ := call.perform_inv hinv hnodup
    obtain ⟨final, pool'', hrest, hfinal⟩ := ih hafter
    exact ⟨final, pool'', by rw [perform_all, hcall, Option.bind_some, hrest], hfinal⟩

end Runs

theorem UserPageAccess.flags_injective : Function.Injective UserPageAccess.flags := by
  intro left right hsame
  cases left <;> cases right <;> first | rfl | cases hsame

/-- The list of user pages and the page tables agree: no page is listed twice, a
page is listed with an access exactly when it is mapped with the flags of that
access, and everything mapped is listed and lies under the user slot. -/
structure AddressSpace.Exact (space : AddressSpace) (tables : UserTables) : Prop where
  pages_nodup : (space.user_pages.map Prod.fst).Nodup
  listed : ∀ page access, (page, access) ∈ space.user_pages ↔
    ∃ frame, tables.leaf page = some (frame, access.flags)
  complete : ∀ page entry, tables.leaf page = some entry →
    p4_index page = USER_PML4_INDEX ∧ ∃ access, (page, access) ∈ space.user_pages

theorem AddressSpace.Mirrors.exact {space : AddressSpace} {tables : UserTables}
    (hmirrors : space.Mirrors tables) : space.Exact tables := by
  have hentry : ∀ page frame flags, tables.leaf page = some (frame, flags) →
      ∃ access, (page, access) ∈ space.user_pages ∧ access.flags = flags := by
    intro page frame flags hleaf
    have hmem := (UserTables.leaf_eq_some hmirrors.settled.keyed).mp hleaf
    have hrecord := hmirrors.listed.subset (List.mem_map.mpr ⟨_, hmem, rfl⟩)
    obtain ⟨⟨found, access⟩, hmapped, hsame⟩ := List.mem_map.mp hrecord
    obtain ⟨rfl, rfl⟩ := Prod.mk.inj hsame
    exact ⟨access, hmapped, rfl⟩
  refine ⟨hmirrors.pages_nodup, fun page access => ⟨fun hmem => ?_, ?_⟩, ?_⟩
  · have hrecord := hmirrors.listed.symm.subset (List.mem_map.mpr ⟨_, hmem, rfl⟩)
    obtain ⟨leaf, hleaf, hsame⟩ := List.mem_map.mp hrecord
    obtain ⟨hpage, hflags⟩ : leaf.1 = page ∧ leaf.2.2 = access.flags := Prod.mk.inj hsame
    refine ⟨leaf.2.1, (UserTables.leaf_eq_some hmirrors.settled.keyed).mpr ?_⟩
    rw [← hpage, ← hflags]
    exact hleaf
  · rintro ⟨frame, hleaf⟩
    obtain ⟨found, hmem, hflags⟩ := hentry page frame access.flags hleaf
    exact UserPageAccess.flags_injective hflags ▸ hmem
  · intro page entry hleaf
    obtain ⟨access, hmem, _⟩ := hentry page entry.1 entry.2 hleaf
    exact ⟨hmirrors.user (page, access) hmem, access, hmem⟩

/-- What a run may rely on in each state: every live space's list of pages is exact,
the free frames and the frames in use are together the frames that were free at
boot, and two spaces have no frame in common. -/
structure System.Bookkeeping (system : System) (boot : List PhysFrame) : Prop where
  exact : ∀ space ∈ system.spaces, ∀ root, space.root = some root →
    space.Exact (system.manager.page_tables root)
  conserved : (system.manager.frame_allocator.stack ++ system.manager.frame_allocator.unvisited ++
    system.in_use).Perm boot
  unshared : ∀ (index other : Nat) (space sibling : AddressSpace), index ≠ other → system.spaces[index]? = some space →
    system.spaces[other]? = some sibling →
    ∀ frame ∈ space.frames system.manager, frame ∉ sibling.frames system.manager

theorem System.Inv.bookkeeping {system : System} {boot : BootInfoFrameAllocator} {pool : FramePool} {account : List PhysFrame}
    (hinv : system.Inv boot pool account) (hnodup : account.Nodup) : system.Bookkeeping account := by
  refine ⟨fun space hspace root hroot => (hinv.mirrors space hspace root hroot).exact, ?_, ?_⟩
  · rw [← hinv.refines.fresh, ← hinv.refines.returned]
    exact hinv.balance
  · have hused := (List.nodup_append.mp (hinv.balance.nodup_iff.mpr hnodup)).2.1
    have hpairwise := (List.nodup_flatMap.mp hused).2
    have hordered : ∀ {index other : Nat} {space sibling : AddressSpace}, index < other → system.spaces[index]? = some space →
        system.spaces[other]? = some sibling →
        List.Disjoint (space.frames system.manager) (sibling.frames system.manager) := by
      intro index other space sibling hlt hspace hsibling
      obtain ⟨hbound, rfl⟩ := List.getElem?_eq_some_iff.mp hspace
      obtain ⟨hbound', rfl⟩ := List.getElem?_eq_some_iff.mp hsibling
      exact List.pairwise_iff_getElem.mp hpairwise index other hbound hbound' hlt
    intro index other space sibling hne hspace hsibling frame hframe hframe'
    obtain hlt | hlt := Nat.lt_or_gt_of_ne hne
    · exact hordered hlt hspace hsibling hframe hframe'
    · exact hordered hlt hsibling hspace hframe' hframe

/-- A manager just booted, before any space is created. -/
theorem System.booted {bits : Option UInt8} {memory : Nat → UInt8} {boot_info : BootInfo} {boot_info_address : UInt64}
    {physical_limit : Nat} {frame_allocator : BootInfoFrameAllocator} (mapper : Mapper) (physical_memory_offset : Nat)
    (kernel_user_slot_unused : Bool) (page_tables : PhysFrame → UserTables)
    (hlimit : physical_address_limit bits = .ok physical_limit)
    (hnew : BootInfoFrameAllocator.new memory boot_info boot_info_address physical_limit = .ok frame_allocator) :
    frame_allocator.unvisited.Nodup ∧
      (System.mk ⟨mapper, frame_allocator, physical_memory_offset, kernel_user_slot_unused, page_tables⟩ []).Inv
        frame_allocator ⟨frame_allocator.unvisited, [], Nat.zero_le _⟩ frame_allocator.unvisited := by
  obtain ⟨hmapped, hstacked, hstack, _⟩ :=
    BootInfoFrameAllocator.new_mapped (physical_address_limit_le hlimit) hnew
  exact ⟨BootInfoFrameAllocator.unvisited_nodup hmapped, ⟨.refl frame_allocator, hmapped, hstacked, rfl, hstack.symm⟩,
    by simp, by simp, by simp [System.in_use, Pool.free]⟩

def sample_manager : MemoryManager := ⟨offset_page_table, sample_allocator, 0, true, fun _ => .new⟩

end leafos.memory
