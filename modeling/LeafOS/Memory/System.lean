import LeafOS.Memory.SpaceMethods

namespace leafos.memory

open Prog MemoryManager AddressSpace

/-- The memory manager and every address space made so far; a released space stays
in the list without a root. -/
structure System where
  manager : MemoryManager
  spaces : List AddressSpace

/-- All frames in use by live spaces. -/
def System.in_use (self : System) : List PhysFrame :=
  self.spaces.flatMap fun space => space.frames self.manager

/-- Every live space mirrors its tables, and free frames and frames in use make up
the given ones. -/
structure System.Inv (system : System) (boot : BootInfoFrameAllocator) (pool : FramePool)
    (account : List PhysFrame) : Prop where
  refines : system.manager.frame_allocator.Refines boot pool
  mirrors : ∀ space ∈ system.spaces, ∀ root, space.root = some root →
    space.Mirrors (system.manager.page_tables root)
  addressable : ∀ space ∈ system.spaces, ∀ root, space.root = some root →
    (system.manager.physical_to_virtual root).isSome
  balance : (pool.free ++ system.in_use).Perm account

section Invariant

variable {system : System} {boot : BootInfoFrameAllocator} {pool : FramePool} {account : List PhysFrame}
  {space : AddressSpace} {root : PhysFrame} {manager manager' : MemoryManager} {rest : List AddressSpace}
  {active : PhysFrame} {left : AddressSpace}

theorem mem_split {α : Type} {one other : α} {before after : List α} :
    other ∈ before ++ one :: after ↔ other = one ∨ other ∈ before ++ after := by
  rw [List.mem_append, List.mem_cons, or_left_comm, ← List.mem_append]

theorem root_mem_frames (hroot : space.root = some root) (manager : MemoryManager) : root ∈ space.frames manager := by
  simp [AddressSpace.frames, hroot]

/-- A space whose root is untouched keeps its frames and its tables. -/
theorem frames_of_untouched (hroot : space.root ≠ some root)
    (hothers : ∀ other, other ≠ root → manager'.page_tables other = manager.page_tables other) :
    space.frames manager' = space.frames manager := by
  cases hfound : space.root with
  | none => simp [AddressSpace.frames, hfound]
  | some found =>
    have hne : found ≠ root := fun hsame => hroot (hsame ▸ hfound)
    simp [AddressSpace.frames, hfound, hothers found hne]

section Books

variable (hinv : system.Inv boot pool account)
include hinv

/-- The order of the spaces does not matter. -/
theorem System.Inv.perm {spaces : List AddressSpace}
    (hperm : spaces.Perm system.spaces) : (System.mk system.manager spaces).Inv boot pool account :=
  ⟨hinv.refines, fun space hspace => hinv.mirrors space (hperm.subset hspace),
    fun space hspace => hinv.addressable space (hperm.subset hspace),
    ((hperm.flatMap_right _).append_left _).trans hinv.balance⟩

/-- A live space is where its own methods start from. -/
theorem System.Inv.start (hspace : space ∈ system.spaces) (hroot : space.root = some root) :
    Reached boot root system.manager (pool.free ++ space.frames system.manager) space system.manager pool :=
  ⟨hinv.refines, rfl, fun _ _ => rfl, fun _ hfound => Option.mem_unique hfound hroot,
    fun hroot => hinv.mirrors space hspace root hroot, List.Perm.refl _⟩

section Split

variable {before after : List AddressSpace}

variable (hnodup : account.Nodup) (hsplit : system.spaces = before ++ space :: after)
  (hroot : space.root = some root)
include hnodup hsplit hroot

/-- No other space has the root of a live space. -/
theorem System.Inv.apart : ∀ other ∈ before ++ after, other.root ≠ some root := by
  intro other hother hsame
  have hcount := List.nodup_iff_count_le_one.mp (hinv.balance.nodup_iff.mpr hnodup) root
  have hhere := List.count_pos_iff.mpr (root_mem_frames hroot system.manager)
  have hthere : 0 < ((before ++ after).flatMap fun space => space.frames system.manager).count root :=
    List.count_pos_iff.mpr (List.mem_flatMap.mpr ⟨other, hother, root_mem_frames hsame system.manager⟩)
  simp only [System.in_use, hsplit, List.flatMap_append, List.flatMap_cons, List.count_append] at hcount hthere
  omega

/-- Operations on one space leave the others alone. -/
theorem System.Inv.reached {space' : AddressSpace} {pool' : FramePool}
    (hreached : Reached boot root system.manager (pool.free ++ space.frames system.manager) space' manager' pool') :
    (System.mk manager' (before ++ space' :: after)).Inv boot pool' account := by
  have hapart := hinv.apart hnodup hsplit hroot
  have hframes : ∀ other ∈ before ++ after, other.frames manager' = other.frames system.manager :=
    fun other hother => frames_of_untouched (hapart other hother) hreached.others
  have hvirtual : manager'.physical_to_virtual = system.manager.physical_to_virtual := by
    funext frame
    rw [physical_to_virtual, physical_to_virtual, hreached.offset]
  refine ⟨hreached.refines, ?_, ?_, ?_⟩
  · intro other hother found hfound
    rw [mem_split] at hother
    obtain rfl | hother := hother
    · obtain rfl := hreached.root_eq found hfound
      exact hreached.mirrors hfound
    · have hne : found ≠ root := fun hsame => hapart other hother (hsame ▸ hfound)
      rw [hreached.others found hne]
      refine hinv.mirrors other ?_ found hfound
      rw [hsplit, mem_split]
      exact .inr hother
  · intro other hother found hfound
    show (manager'.physical_to_virtual found).isSome
    rw [hvirtual]
    rw [mem_split] at hother
    obtain rfl | hother := hother
    · obtain rfl := hreached.root_eq found hfound
      exact hinv.addressable space (hsplit ▸ by simp) found hroot
    · refine hinv.addressable other ?_ found hfound
      rw [hsplit, mem_split]
      exact .inr hother
  · have hbefore : before.flatMap (fun other => other.frames manager') =
        before.flatMap fun other => other.frames system.manager :=
      List.flatMap_congr fun other hother => hframes other (List.mem_append_left _ hother)
    have hafter : after.flatMap (fun other => other.frames manager') =
        after.flatMap fun other => other.frames system.manager :=
      List.flatMap_congr fun other hother => hframes other (List.mem_append_right _ hother)
    refine List.Perm.trans (List.perm_iff_count.mpr fun frame => ?_) hinv.balance
    have hcount := hreached.balance.count_eq frame
    simp only [System.in_use, hsplit, List.flatMap_append, List.flatMap_cons, List.count_append,
      hbefore, hafter] at hcount ⊢
    omega

end Split

/-- A new space takes its root from the pool and maps nothing. -/
theorem System.Inv.create_address_space (hnodup : account.Nodup) :
    (∃ error manager pool', MemoryManager.create_address_space system.manager = (.err error, manager) ∧
      (System.mk manager system.spaces).Inv boot pool' account ∧
      manager.page_tables = system.manager.page_tables) ∨
    ∃ root manager pool', MemoryManager.create_address_space system.manager = (.ok ⟨some root, []⟩, manager) ∧
      (System.mk manager (system.spaces ++ [⟨some root, []⟩])).Inv boot pool' account ∧
      ∀ other, other ≠ root → manager.page_tables other = system.manager.page_tables other := by
  cases hunused : system.manager.kernel_user_slot_unused with
  | false =>
    exact .inl ⟨.NoUserAddressSpaceSlot, system.manager, pool,
      by simp [MemoryManager.create_address_space, hunused], hinv, rfl⟩
  | true =>
    obtain ⟨root, rest, after, htake, hallocate, hafter⟩ | ⟨htake, after, hallocate, hafter⟩ :=
      hinv.refines.allocate MemoryError
    swap
    · refine .inl ⟨.FrameAllocationFailed, { system.manager with frame_allocator := after }, pool, ?_,
        ⟨hafter, hinv.mirrors, hinv.addressable, hinv.balance⟩, rfl⟩
      simp [MemoryManager.create_address_space, hunused, with_allocator, zoom, hallocate]
    cases hvirtual : system.manager.physical_to_virtual root with
    | none =>
      obtain ⟨final, pool', hreclaimed, hfinal, hfree, _⟩ := take_and_reclaim MemoryError htake hafter
      refine .inl ⟨.InvalidPhysicalMemoryOffset, { system.manager with frame_allocator := final }, pool', ?_,
        ⟨hfinal, hinv.mirrors, hinv.addressable, (hfree.append_right _).trans hinv.balance⟩, rfl⟩
      simp [MemoryManager.create_address_space, hunused, with_allocator, zoom, hallocate, hvirtual,
        hreclaimed]
    | some _ =>
      right
      have hbalance := hinv.balance
      rw [Pool.take_free htake, List.cons_append] at hbalance
      have hfresh : ∀ space ∈ system.spaces, space.root ≠ some root := by
        intro space hspace hsame
        have hmem : root ∈ rest.free ++ system.in_use :=
          List.mem_append_right _ (List.mem_flatMap.mpr ⟨space, hspace, root_mem_frames hsame _⟩)
        exact (List.nodup_cons.mp (hbalance.nodup_iff.mpr hnodup)).1 hmem
      have hothers : ∀ other, other ≠ root → (system.manager.changed root .new after).page_tables other =
          system.manager.page_tables other := fun other hne => by
        simp [MemoryManager.changed, Function.update_of_ne hne]
      refine ⟨root, system.manager.changed root .new after, rest, ?_, ⟨hafter, ?_, ?_, ?_⟩, hothers⟩
      · simp [MemoryManager.create_address_space, hunused, with_allocator, zoom, hallocate, hvirtual,
          MemoryManager.changed]
      · intro space hspace found hfound
        obtain hspace | hspace := List.mem_append.mp hspace
        · rw [hothers found fun hsame => hfresh space hspace (hsame ▸ hfound)]
          exact hinv.mirrors space hspace found hfound
        · obtain rfl := List.mem_singleton.mp hspace
          obtain rfl := Option.some.inj hfound
          simp only [MemoryManager.changed, Function.update_self]
          exact ⟨settled_new, List.Perm.refl _, by simp⟩
      · intro space hspace found hfound
        obtain hspace | hspace := List.mem_append.mp hspace
        · exact hinv.addressable space hspace found hfound
        · obtain rfl := List.mem_singleton.mp hspace
          obtain rfl := Option.some.inj hfound
          exact Option.isSome_iff_exists.mpr ⟨_, hvirtual⟩
      · have hsame : system.spaces.flatMap (fun space => space.frames
            (system.manager.changed root .new after)) = system.in_use :=
          List.flatMap_congr fun space hspace => frames_of_untouched (hfresh space hspace) hothers
        have hnew : (AddressSpace.mk (some root) []).frames (system.manager.changed root .new after) =
            [root] := by
          simp [AddressSpace.frames, MemoryManager.changed, UserTables.frames, UserTables.new]
        simp only [System.in_use, List.flatMap_append, List.flatMap_cons, List.flatMap_nil, hsame, hnew,
          List.append_nil]
        rw [← List.append_assoc]
        exact (List.perm_append_singleton root _).trans hbalance

end Books

/-- `destroy` keeps the books, wherever it stops. -/
theorem System.Inv.destroy
    (hinv : (System.mk manager (space :: rest)).Inv boot pool account) (hnodup : account.Nodup)
    (hroot : space.root = some root) (active : PhysFrame) :
    ∃ pool', (System.mk (AddressSpace.destroy active (space, manager)).2.2
      ((AddressSpace.destroy active (space, manager)).2.1 :: rest)).Inv boot pool' account := by
  obtain ⟨outcome, space', manager', pool', hcall, _, hreached⟩ :=
    destroy_reached (hinv.start List.mem_cons_self hroot) active
  rw [hcall]
  exact ⟨pool', hinv.reached hnodup (List.nil_append _).symm hroot hreached⟩

theorem AddressSpace.destroy_ok (hdestroy : AddressSpace.destroy active (space, manager) = (.ok (), (left, manager'))) :
    (∃ root, space.root = some root) ∧ left.root = none := by
  cases hroot : space.root with
  | none =>
    simp only [AddressSpace.destroy, bind_apply, get_apply, hroot, okOr_none] at hdestroy
    cases (Prod.mk.inj hdestroy).1
  | some root =>
    refine ⟨⟨root, rfl⟩, ?_⟩
    simp only [AddressSpace.destroy, bind_apply, get_apply, hroot, okOr_some] at hdestroy
    split at hdestroy
    · cases (Prod.mk.inj hdestroy).1
    · obtain ⟨_, _, _, hlast⟩ := bind_eq_ok_iff.mp hdestroy
      obtain ⟨_, _, _, hset⟩ := bind_eq_ok_iff.mp hlast
      rw [← (Prod.mk.inj (Prod.mk.inj hset).2).1]

/-- When `destroy` succeeds, every frame of the space is free. -/
theorem System.Inv.destroyed (hinv : (System.mk manager (space :: rest)).Inv boot pool account) (hnodup : account.Nodup)
    (hdestroy : AddressSpace.destroy active (space, manager) = (.ok (), (left, manager'))) :
    ∃ pool', (System.mk manager' rest).Inv boot pool' account ∧
      pool'.free.Perm (pool.free ++ space.frames manager) := by
  obtain ⟨⟨root, hroot⟩, hreleased⟩ := AddressSpace.destroy_ok hdestroy
  obtain ⟨outcome, space', manager'', pool', hcall, _, hreached⟩ :=
    destroy_reached (hinv.start List.mem_cons_self hroot) active
  obtain ⟨_, hstate⟩ := Prod.mk.inj (hcall.symm.trans hdestroy)
  obtain ⟨rfl, rfl⟩ := Prod.mk.inj hstate
  have hafter := hinv.reached hnodup (List.nil_append _).symm hroot hreached
  have hframes : space'.frames manager'' = [] := by simp [AddressSpace.frames, hreleased]
  refine ⟨pool', ⟨hafter.refines, fun other hother => hafter.mirrors other (List.mem_cons_of_mem _ hother),
    fun other hother => hafter.addressable other (List.mem_cons_of_mem _ hother), ?_⟩, ?_⟩
  · have hbalance := hafter.balance
    rw [System.in_use, List.nil_append, List.flatMap_cons, hframes, List.nil_append] at hbalance
    exact hbalance
  · have hbalance := hreached.balance
    rw [hframes, List.append_nil] at hbalance
    exact hbalance

end Invariant

end leafos.memory
