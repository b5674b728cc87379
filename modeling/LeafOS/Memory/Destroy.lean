import LeafOS.Memory.SpaceMethods

namespace leafos.memory

open Prog MemoryManager

variable {block : Nat} {tables : UserTables}

namespace BootInfoFrameAllocator

variable {self boot : BootInfoFrameAllocator}

theorem any_descriptor_same (hsame : self.SameMap boot) (frame : PhysFrame) (indices : List Nat) :
    is_allocatable_frame.any_descriptor self frame indices =
      is_allocatable_frame.any_descriptor boot frame indices := by
  induction indices with
  | nil => rfl
  | cons index rest ih =>
    simp only [is_allocatable_frame.any_descriptor, hsame.memory_map, hsame.descriptor_size, ih]

/-- Ownership is decided by the map alone. -/
theorem is_allocatable_frame_same (hsame : self.SameMap boot)
    (frame : PhysFrame) : self.is_allocatable_frame frame = boot.is_allocatable_frame frame := by
  simp only [is_allocatable_frame, any_descriptor_same hsame, hsame.descriptor_count, hsame.physical_limit,
    hsame.reserved_ranges]

end BootInfoFrameAllocator

/-- All pages lie in one 2 MiB region, so that they share the tables of every level. -/
def Compact (block : Nat) (pages : List Page) : Prop := ∀ page ∈ pages, page / 512 = block

theorem Compact.table_of {pages : List Page} (hcompact : Compact block pages) {page : Page}
    (hpage : page ∈ pages) (level : Nat) : table_of (level + 1) page = ⟨level + 1, block / 512 ^ level⟩ := by
  rw [leafos.memory.table_of, Nat.pow_succ', ← Nat.div_div_eq_div_mul, hcompact page hpage]

/-- A compact space has one table per level, as long as it maps anything. -/
theorem tables_length (hsettled : Settled tables) (hcompact : Compact block (tables.leaves.map Prod.fst))
    (hleaves : tables.leaves ≠ []) : tables.tables.length = 3 := by
  obtain ⟨first, hfirst⟩ := List.exists_mem_of_ne_nil _ hleaves
  have hpath : ∀ level ∈ [1, 2, 3], ∀ position, tables.HasTable ⟨level, position⟩ ↔
      (⟨level, position⟩ : TableId) = ⟨level, block / 512 ^ (level - 1)⟩ := by
    intro level hlevel position
    have hsucc : level - 1 + 1 = level := by
      simp only [List.mem_cons, List.not_mem_nil, or_false] at hlevel
      omega
    rw [hsettled.tight level hlevel position]
    constructor
    · rintro ⟨leaf, hleaf, hsame⟩
      have htable := hcompact.table_of (List.mem_map.mpr ⟨leaf, hleaf, rfl⟩) (level - 1)
      rw [hsucc] at htable
      exact hsame.symm.trans htable
    · intro hsame
      have htable := hcompact.table_of (List.mem_map.mpr ⟨first, hfirst, rfl⟩) (level - 1)
      rw [hsucc] at htable
      exact ⟨first, hfirst, htable.trans hsame.symm⟩
  have hperm : (tables.tables.map Prod.fst).Perm
      ([1, 2, 3].map fun level => (⟨level, block / 512 ^ (level - 1)⟩ : TableId)) := by
    refine (List.perm_ext_iff_of_nodup hsettled.keyed.tables_nodup (by simp)).mpr fun id => ?_
    rw [List.mem_map, List.mem_map]
    constructor
    · rintro ⟨entry, hentry, rfl⟩
      have hlevel := hsettled.keyed.levels entry hentry
      exact ⟨entry.1.level, hlevel, ((hpath _ hlevel entry.1.position).mp ⟨entry.2, hentry⟩).symm⟩
    · rintro ⟨level, hlevel, rfl⟩
      obtain ⟨frame, hframe⟩ := (hpath level hlevel _).mpr rfl
      exact ⟨_, hframe, rfl⟩
  simpa using hperm.length_eq

/-- How many tables and pages a compact space with this many pages has. -/
def footprint (pages : Nat) : Nat := if pages = 0 then 0 else pages + 3

theorem footprint_succ (pages : Nat) : footprint (pages + 1) = pages + 4 := rfl

theorem frames_length (hsettled : Settled tables) (hcompact : Compact block (tables.leaves.map Prod.fst)) :
    tables.frames.length = footprint tables.leaves.length := by
  by_cases hleaves : tables.leaves = []
  · rw [hsettled.frames_eq_nil hleaves, hleaves]
    rfl
  · have hlength : tables.leaves.length ≠ 0 := mt List.length_eq_zero_iff.mp hleaves
    simp [UserTables.frames, footprint, tables_length hsettled hcompact hleaves, hlength, Nat.add_comm]

/-- Whether the reclaim stack has room for all that destroying a compact space gives
back, its root included. A page needs room for four frames, whatever it frees. -/
def Reclaimable (reclaimed_count pages : Nat) : Prop :=
  if pages = 0 then reclaimed_count < RECLAIMED_FRAME_CAPACITY
  else reclaimed_count + pages ≤ RECLAIM_GUARD

instance (reclaimed_count pages : Nat) : Decidable (Reclaimable reclaimed_count pages) := by
  unfold Reclaimable
  infer_instance

namespace AddressSpace

/-- The pages that a space lists. -/
def pages (space : AddressSpace) : List Page := space.user_pages.map Prod.fst

section Compact

variable {boot : BootInfoFrameAllocator} {root : PhysFrame} {origin manager : MemoryManager}
  {account : List PhysFrame} {space : AddressSpace} {pool : FramePool} {page : Page}

section Lengths

variable (hreached : Reached boot root origin account space manager pool)
include hreached

theorem Reached.frames_length (hroot : space.root = some root) (hcompact : Compact block space.pages) :
    (space.frames manager).length = footprint space.user_pages.length + 1 := by
  have hmirrors := hreached.mirrors hroot
  have hleaves : Compact block ((manager.page_tables root).leaves.map Prod.fst) :=
    fun page hpage => hcompact page (hmirrors.pages_perm.subset hpage)
  have hlength := hmirrors.pages_perm.length_eq
  rw [List.length_map, List.length_map] at hlength
  rw [frames, hroot, List.length_cons, memory.frames_length hmirrors.settled hleaves, hlength]

end Lengths

variable (hknown : ∀ frame ∈ account, boot.is_allocatable_frame frame = .ok true)
include hknown

/-- Every frame that the space occupies can be given back. -/
theorem Reached.is_allocatable_frame (hreached : Reached boot root origin account space manager pool)
    {frame : PhysFrame} (hframe : frame ∈ space.frames manager) :
    manager.frame_allocator.is_allocatable_frame frame = .ok true := by
  rw [BootInfoFrameAllocator.is_allocatable_frame_same hreached.refines.same]
  exact hknown frame (hreached.balance.subset (List.mem_append_right _ hframe))

variable (hvirtual : (origin.physical_to_virtual root).isSome)
  (hreached : Reached boot root origin account space manager pool) (hroot : space.root = some root)
  (hcompact : Compact block space.pages)
include hvirtual hreached hroot hcompact

/-- Unmapping the last page of a compact space: the guard is the only obstacle. -/
theorem Reached.unmap_last {access : UserPageAccess} {before : List (Page × UserPageAccess)}
    (hlast : space.user_pages = before ++ [(page, access)])
    (hroom : manager.frame_allocator.reclaimed_count ≤ RECLAIM_GUARD) :
    ∃ manager' pool', MemoryManager.unmap_page root page manager = (.ok (), manager') ∧
      Reached boot root origin account { space with user_pages := before } manager' pool' ∧
      manager'.frame_allocator.reclaimed_count + footprint before.length =
        manager.frame_allocator.reclaimed_count + footprint (before.length + 1) := by
  have hmirrors := hreached.mirrors hroot
  have hpage : page ∈ (manager.page_tables root).leaves.map Prod.fst := by
    rw [hmirrors.pages_perm.mem_iff, hlast]
    simp
  obtain ⟨⟨found, frame, flags⟩, hleaf, rfl⟩ := List.mem_map.mp hpage
  have howned : manager.frame_allocator.is_allocatable_frame frame = .ok true := by
    refine hreached.is_allocatable_frame hknown ?_
    rw [frames, hroot]
    exact List.mem_cons_of_mem _ (List.mem_append_right _ (List.mem_map.mpr ⟨_, hleaf, rfl⟩))
  have hvirtual' : (manager.physical_to_virtual root).isSome := by
    rw [physical_to_virtual, hreached.offset]
    exact hvirtual
  obtain ⟨tables, after, pool', hcall, hafter, hsettled, _, hconserves, hfresh, hleaves⟩ :=
    unmap_and_deallocate_ok hreached.refines hmirrors.settled hroom
      ((UserTables.leaf_eq_some hmirrors.settled.keyed).mpr hleaf) howned
  have hrest := hmirrors.remove hsettled hleaves hlast
  rw [List.append_nil] at hrest
  have hreached' := hreached.changed hroot hafter hconserves hrest
  refine ⟨_, pool', (unmap_page_eq hvirtual').trans hcall, hreached', ?_⟩
  -- both states account for the same frames, and the fresh ones have not changed
  have hcompact' : Compact block (AddressSpace.pages { space with user_pages := before }) := fun page hpage =>
    hcompact page (by rw [pages, hlast, List.map_append]; exact List.mem_append_left _ hpage)
  have hlength := hreached.balance.length_eq.trans hreached'.balance.length_eq.symm
  rw [List.length_append, List.length_append, hreached.frames_length hroot hcompact,
    hreached'.frames_length hroot hcompact', Pool.free, Pool.free, List.length_append, List.length_append, hfresh,
    hreached.refines.returned_length, hreached'.refines.returned_length, hlast, List.length_append] at hlength
  simp only [List.length_singleton] at hlength
  omega

/-- The loop of `destroy` on a compact space gets through exactly when the guard lets
its last page pass. -/
theorem Reached.unmap_all (pages : List (Page × UserPageAccess)) (hpages : space.user_pages.reverse = pages) :
    if pages.length = 0 ∨ manager.frame_allocator.reclaimed_count + pages.length ≤
        RECLAIM_GUARD + 1 then
      ∃ space' manager' pool', AddressSpace.unmap_all root pages (space, manager) =
          (.ok (), (space', manager')) ∧
        Reached boot root origin account space' manager' pool' ∧ space'.root = some root ∧
        manager'.frame_allocator.reclaimed_count =
          manager.frame_allocator.reclaimed_count + footprint pages.length
    else (AddressSpace.unmap_all root pages (space, manager)).1 =
      .err (.Unmapping .ReclaimCapacityExceeded) := by
  induction pages generalizing space manager pool with
  | nil =>
    refine (if_pos (Or.inl List.length_nil)).mpr ?_
    exact ⟨space, manager, pool, rfl, hreached, hroot, rfl⟩
  | cons mapped rest ih =>
    obtain ⟨page, access⟩ := mapped
    have hlast : space.user_pages = rest.reverse ++ [(page, access)] := by
      rw [← List.reverse_cons, ← hpages, List.reverse_reverse]
    by_cases hroom : manager.frame_allocator.reclaimed_count ≤
        RECLAIM_GUARD
    swap
    · rw [if_neg (by simp only [List.length_cons]; omega)]
      have hguard : MemoryManager.unmap_page root page manager = (.err .ReclaimCapacityExceeded, manager) := by
        simp [MemoryManager.unmap_page, Nat.lt_of_not_le hroom]
      simp [AddressSpace.unmap_all, with_manager_apply, hguard]
    obtain ⟨manager', pool', hcall, hafter, hcount⟩ :=
      hreached.unmap_last hknown hvirtual hroot hcompact hlast hroom
    have hcompact' : Compact block (AddressSpace.pages { space with user_pages := rest.reverse }) :=
      fun page hpage => hcompact page (by rw [AddressSpace.pages, hlast, List.map_append]; exact List.mem_append_left _ hpage)
    have hrest := ih hafter hroot hcompact' (List.reverse_reverse rest)
    have hstep : AddressSpace.unmap_all root ((page, access) :: rest) (space, manager) =
        AddressSpace.unmap_all root rest ({ space with user_pages := rest.reverse }, manager') := by
      simp only [AddressSpace.unmap_all, bind_apply, with_manager_apply, hcall, modify_apply, hlast,
        List.dropLast_concat]
    have hbound : (rest.length = 0 ∨ manager'.frame_allocator.reclaimed_count + rest.length ≤
          RECLAIM_GUARD + 1) ↔
        ((page, access) :: rest).length = 0 ∨ manager.frame_allocator.reclaimed_count +
          ((page, access) :: rest).length ≤ RECLAIM_GUARD + 1 := by
      rw [List.length_reverse, footprint_succ, footprint] at hcount
      rw [List.length_cons]
      split at hcount <;> omega
    rw [hstep]
    by_cases hfits : rest.length = 0 ∨ manager'.frame_allocator.reclaimed_count + rest.length ≤
        RECLAIM_GUARD + 1
    · rw [if_pos hfits] at hrest
      rw [if_pos (hbound.mp hfits)]
      obtain ⟨space', manager'', pool'', hloop, hend, hroot', hfinal⟩ := hrest
      refine ⟨space', manager'', pool'', hloop, hend, hroot', ?_⟩
      rw [List.length_reverse] at hcount
      rw [hfinal, List.length_cons, hcount]
    · rw [if_neg hfits] at hrest
      rw [if_neg (mt hbound.mpr hfits)]
      exact hrest

/-- What `destroy` returns on a compact space that is not active. -/
theorem Reached.destroy {active : PhysFrame} (hactive : active ≠ root) :
    (AddressSpace.destroy active (space, manager)).1 =
      if Reclaimable manager.frame_allocator.reclaimed_count space.user_pages.length then .ok ()
      else if space.user_pages.length = 0 ∨
          manager.frame_allocator.reclaimed_count + space.user_pages.length ≤
            RECLAIM_GUARD + 1 then
        .err (.Memory .FrameReclaimCapacityExceeded)
      else .err (.Unmapping .ReclaimCapacityExceeded) := by
  have hloop := hreached.unmap_all hknown hvirtual hroot hcompact space.user_pages.reverse rfl
  rw [List.length_reverse] at hloop
  by_cases hfits : space.user_pages.length = 0 ∨
      manager.frame_allocator.reclaimed_count + space.user_pages.length ≤
        RECLAIM_GUARD + 1
  swap
  · rw [if_neg hfits] at hloop
    have hfull : ¬ Reclaimable manager.frame_allocator.reclaimed_count space.user_pages.length := by
      unfold Reclaimable
      split <;> omega
    rw [if_neg hfull, if_neg hfits]
    cases hcall : AddressSpace.unmap_all root space.user_pages.reverse (space, manager) with
    | mk outcome state =>
      rw [hcall] at hloop
      obtain rfl : outcome = _ := hloop
      simp [AddressSpace.destroy, hroot, hactive, hcall]
  rw [if_pos hfits] at hloop
  obtain ⟨space', manager', pool', hcall, hafter, hroot', hcount⟩ := hloop
  have howned : manager'.frame_allocator.is_allocatable_frame root = .ok true :=
    hafter.is_allocatable_frame hknown (by simp [frames, hroot'])
  have hroom : Reclaimable manager.frame_allocator.reclaimed_count space.user_pages.length ↔
      pool'.returned.length < RECLAIMED_FRAME_CAPACITY := by
    rw [hafter.refines.returned_length, hcount]
    unfold Reclaimable footprint
    simp only [RECLAIM_GUARD, RECLAIMED_FRAME_CAPACITY, MAX_FRAMES_RECLAIMED_PER_UNMAP]
    split <;> omega
  obtain ⟨rest, allocator, hput, hreturn, _⟩ | ⟨error, hreturn, hfull⟩ := hafter.refines.deallocate_frame root
  · have hsome : (pool'.put root).isSome := Option.isSome_iff_exists.mpr ⟨rest, hput⟩
    rw [if_pos (hroom.mpr (Pool.put_isSome.mp hsome))]
    simp [AddressSpace.destroy, hroot, hactive, hcall, with_manager_apply, MemoryManager.deallocate_frame,
      with_allocator, zoom, hreturn]
  · obtain ⟨rfl, hput⟩ := hfull howned
    have hfull : ¬ Reclaimable manager.frame_allocator.reclaimed_count space.user_pages.length := fun hfree => by
      have hsome : (pool'.put root).isSome := Pool.put_isSome.mpr (hroom.mp hfree)
      simp [hput] at hsome
    rw [if_neg hfull, if_pos hfits]
    simp [AddressSpace.destroy, hroot, hactive, hcall, with_manager_apply, MemoryManager.deallocate_frame,
      with_allocator, zoom, hreturn]

end Compact

end AddressSpace

end leafos.memory
