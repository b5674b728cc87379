import LeafOS.Memory.UserRanges
import LeafOS.Tasking.Reaping

namespace leafos.tasking.scheduler

open leafos.memory leafos.tasking.fd

/-- Every frame has one owner. In every state that loads, spawns, task switches, terminations, reaps
and the kernel's own mappings lead to, no frame occurs twice among the free ones, those of the
programs (their roots, page tables and pages) and the kernel's. So no program reaches a frame of
another one, of the kernel, or one that is still handed out. The active root is a program's own
or the kernel's, and every byte of a buffer that a program may pass is in a frame of its own. -/
theorem every_frame_has_one_owner {bits : Option UInt8} {memory : Nat → UInt8} {boot_info : BootInfo}
    {boot_info_address : UInt64} {physical_limit : Nat} (manager : MemoryManager) (objects : Objects)
    (user_rsp kernel_rsp : Nat) (actions : List Action) (machine : Machine)
    (hlimit : physical_address_limit bits = .ok physical_limit)
    (hnew : BootInfoFrameAllocator.new memory boot_info boot_info_address physical_limit = .ok manager.frame_allocator)
    (hrun : perform_all actions (.booted manager objects user_rsp kernel_rsp boot_info.page_table_root.toNat) =
      some machine) :
    let kernel := machine.kernel
    (kernel.memory.frame_allocator.stack ++ kernel.memory.frame_allocator.unvisited ++
      machine.spaces.flatMap (·.frames kernel.memory) ++ kernel.kernel_root :: machine.held).Nodup ∧
    (kernel.cpu.cr3 = kernel.kernel_root ∨ ∃ space ∈ machine.spaces, space.root = some kernel.cpu.cr3) ∧
    ∀ space ∈ machine.spaces, ∀ root, space.root = some root → ∀ address length writable, length ≠ 0 →
      space.validate_user_range root address length writable = .ok () → ∀ byte, address.toNat ≤ byte →
      byte < address.toNat + length.toNat → ∃ frame ∈ space.frames kernel.memory, ∃ access : UserPageAccess,
        (kernel.memory.page_tables root).leaf (byte / PAGE_SIZE) = some (frame, access.flags) ∧
        (writable = true → access = .ReadWrite) := by
  obtain ⟨hboot, hstart⟩ := Machine.booted_inv manager objects user_rsp kernel_rsp hlimit hnew
  have hinv := perform_all_inv actions hstart hboot hrun
  obtain ⟨pool, orphans, account, hsystem, haccount⟩ := hinv.books
  refine ⟨List.nodup_iff_count_le_one.mpr fun frame => ?_, ?_, ?_⟩
  · have hcount := List.nodup_iff_count_le_one.mp (List.nodup_cons.mpr ⟨hinv.kernel_root, hboot⟩) frame
    have hpool := hsystem.balance.count_eq frame
    have hall := haccount.count_eq frame
    rw [← hsystem.refines.returned, ← hsystem.refines.fresh]
    simp only [System.in_use, Pool.free, List.flatMap_append, List.count_append, List.count_cons] at hcount hpool hall ⊢
    omega
  · have hactive := hinv.sound.active
    unfold active_root at hactive
    cases hspace : machine.kernel.global_scheduler.current.bind machine.kernel.global_scheduler.space_of with
    | none =>
      rw [hspace] at hactive
      exact .inl (Option.some.inj hactive).symm
    | some space =>
      rw [hspace] at hactive
      obtain ⟨slot, -, hslot⟩ := Option.bind_eq_some_iff.mp hspace
      exact .inr ⟨space, List.mem_append_left _ (List.mem_filterMap.mpr ⟨slot, List.mem_finRange _, hslot⟩), hactive⟩
  · intro space hspace root hroot address length writable hlength hvalid byte hlow hhigh
    have hmirrors := hsystem.mirrors space (List.mem_append_left _ hspace) root hroot
    obtain ⟨access, hfound, hwritable⟩ :=
      ((AddressSpace.validate_user_range_eq_ok_iff hroot hlength).mp hvalid).2 byte hlow hhigh
    obtain ⟨frame, hleaf⟩ := (hmirrors.exact.listed _ access).mp
      ((AddressSpace.user_page_access_eq_some_iff hmirrors.exact.pages_nodup).mp hfound)
    refine ⟨frame, ?_, access, hleaf, hwritable⟩
    rw [AddressSpace.frames, hroot]
    exact List.mem_cons_of_mem _ (List.mem_append_right _
      (List.mem_map.mpr ⟨_, (UserTables.leaf_eq_some hmirrors.settled.keyed).mp hleaf, rfl⟩))

/-- Two programs are terminated and not yet reaped. -/
theorem every_frame_has_one_owner_sample :
    ∃ machine, perform_all (launch_and_reap 2 0) sample_machine = some machine ∧
      (machine.spaces.flatMap (·.frames machine.kernel.memory)).Nodup := by
  have hrun : (perform_all (launch_and_reap 2 0) sample_machine).isSome := by decide +kernel
  obtain ⟨machine, hmachine⟩ := Option.isSome_iff_exists.mp hrun
  have hlimit : physical_address_limit (some 32) = .ok (2 ^ 32) := rfl
  have howned := (every_frame_has_one_owner sample_manager ⟨[], [], [], .empty⟩ 0 0 _ machine
    hlimit sample_new hmachine).1
  exact ⟨machine, hmachine, (List.nodup_append.mp (List.nodup_append.mp howned).1).2.1⟩

end leafos.tasking.scheduler
