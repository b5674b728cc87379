import LeafOS.Memory.SpaceRuns
import LeafOS.Tasking.Lifecycle

namespace leafos.tasking.scheduler

open leafos.memory leafos.user_program leafos.tasking.fd Prog

variable {allocator boot : BootInfoFrameAllocator} {machine : Machine} {slot : Slot}

/-- Whether the reclaim stack has room for everything that the task's address space
still holds. Kernel tasks have none. -/
def Reapable (kernel : Kernel MemoryManager) (task : Task) : Prop :=
  ∀ user ∈ task.user, Reclaimable kernel.memory.frame_allocator.reclaimed_count
    user.address_space.user_pages.length

/-- The machine before anything is loaded: the processor has the loader's root. -/
def Machine.booted (memory : MemoryManager) (objects : Objects) (user_rsp kernel_rsp : Nat)
    (kernel_root : PhysFrame) : Machine where
  kernel := .fresh objects memory { cr3 := kernel_root, user_rsp, kernel_rsp } kernel_root
  loaded := []
  held := []

/-- A machine just booted over an accepted handoff. -/
theorem Machine.booted_inv {bits : Option UInt8} {memory : Nat → UInt8} {boot_info : BootInfo}
    {boot_info_address : UInt64} {physical_limit : Nat} (manager : MemoryManager) (objects : Objects)
    (user_rsp kernel_rsp : Nat) (hlimit : physical_address_limit bits = .ok physical_limit)
    (hnew : BootInfoFrameAllocator.new memory boot_info boot_info_address physical_limit = .ok manager.frame_allocator) :
    manager.frame_allocator.unvisited.Nodup ∧
      (Machine.booted manager objects user_rsp kernel_rsp boot_info.page_table_root.toNat).Inv manager.frame_allocator := by
  obtain ⟨hmapped, hstacked, hstack, _⟩ := BootInfoFrameAllocator.new_mapped (physical_address_limit_le hlimit) hnew
  have hspaces : (Machine.booted manager objects user_rsp kernel_rsp boot_info.page_table_root.toNat).spaces = [] := by
    simp [Machine.spaces, Machine.booted, Kernel.fresh, Scheduler.spaces, Scheduler.space_of, Scheduler.new]
  refine ⟨BootInfoFrameAllocator.unvisited_nodup hmapped,
    ⟨⟨Scheduler.inv_new, by simp [Machine.booted, Kernel.fresh, Scheduler.new],
      by simp [Machine.booted, Kernel.fresh, Scheduler.new]⟩,
      by simp [Machine.booted, Kernel.fresh, active_root, Scheduler.new]⟩,
    ⟨⟨manager.frame_allocator.unvisited, [], Nat.zero_le _⟩, [], manager.frame_allocator.unvisited, ?_,
      by simp [Machine.booted]⟩, ?_, BootInfoFrameAllocator.new_root_unowned hnew hmapped⟩
  · rw [hspaces]
    exact ⟨⟨.refl _, hmapped, hstacked, rfl, hstack.symm⟩, by simp, by simp, by simp [System.in_use, Pool.free]⟩
  · simp [hspaces]

/-- The address space of a task that is not current is not active. -/
theorem Machine.Inv.inactive (hinv : machine.Inv boot)
    (hboot : boot.unvisited.Nodup) {space : AddressSpace} {root : PhysFrame}
    (hspace : machine.kernel.global_scheduler.space_of slot = some space) (hroot : space.root = some root)
    (hcurrent : machine.kernel.global_scheduler.current ≠ some slot) : machine.kernel.cpu.cr3 ≠ root := by
  obtain ⟨pool, orphans, account, hsystem, haccount⟩ := hinv.books
  have hnodup : account.Nodup := (List.nodup_append.mp (haccount.nodup_iff.mpr hboot)).1
  obtain ⟨rest, hperm, hchanged⟩ := machine.spaces_perm slot
  rw [hspace] at hperm
  have hsplit := hsystem.perm (hperm.symm.append_right orphans)
  have hapart := hsplit.apart hnodup (List.nil_append _).symm hroot
  have hactive := hinv.sound.active
  unfold active_root at hactive
  cases hrunning : machine.kernel.global_scheduler.current.bind machine.kernel.global_scheduler.space_of with
  | none =>
    rw [hrunning] at hactive
    obtain hkernel := Option.some.inj hactive
    rintro rfl
    have hused : machine.kernel.cpu.cr3 ∈ account := hsplit.balance.subset (List.mem_append_right _
      (List.mem_flatMap.mpr ⟨space, List.mem_cons_self, root_mem_frames hroot _⟩))
    exact hinv.kernel_root (hkernel ▸ haccount.subset (List.mem_append_left _ hused))
  | some running =>
    rw [hrunning] at hactive
    obtain ⟨current, hrunning, hfound⟩ := Option.bind_eq_some_iff.mp hrunning
    have hne : current ≠ slot := fun hsame => hcurrent (hsame ▸ hrunning)
    -- with the slot emptied, the running task's space is still there
    have hemptied := hchanged { machine with kernel := { machine.kernel with
      global_scheduler := machine.kernel.global_scheduler.put slot none } } rfl fun other hother => by
        rw [Scheduler.space_of_put, if_neg hother]
    rw [Scheduler.space_of_put, if_pos rfl] at hemptied
    have hrest : running ∈ rest := by
      refine hemptied.subset (List.mem_append_left _ (List.mem_filterMap.mpr ⟨current, List.mem_finRange _, ?_⟩))
      rw [Scheduler.space_of_put, if_neg hne]
      exact hfound
    rintro rfl
    exact hapart running (by simp [hrest]) hactive

/-- The address space of a terminated task is destroyed exactly when there is room for it. -/
theorem Machine.Inv.destroy_outcome (hinv : machine.Inv boot) (hboot : boot.unvisited.Nodup)
    (hknown : ∀ frame ∈ boot.unvisited, boot.is_allocatable_frame frame = .ok true) {task : Task} {user : UserTask}
    (htask : machine.kernel.global_scheduler.tasks slot = some task) (huser : task.user = some user)
    (hcurrent : machine.kernel.global_scheduler.current ≠ some slot) :
    let outcome := (AddressSpace.destroy machine.kernel.cpu.cr3 (user.address_space, machine.kernel.memory)).1
    (Reapable machine.kernel task → outcome = .ok ()) ∧
    (¬ Reapable machine.kernel task →
      outcome = .err (.Memory .FrameReclaimCapacityExceeded) ∨ outcome = .err (.Unmapping .ReclaimCapacityExceeded)) := by
  have hfull : machine.kernel.global_scheduler.space_of slot = some user.address_space := by
    simp [Scheduler.space_of, htask, huser]
  have hmem : user.address_space ∈ machine.spaces :=
    List.mem_append_left _ (List.mem_filterMap.mpr ⟨slot, List.mem_finRange slot, hfull⟩)
  obtain ⟨hlive, hcompact⟩ := hinv.spaces _ hmem
  obtain ⟨root, hroot⟩ := Option.isSome_iff_exists.mp hlive
  obtain ⟨pool, orphans, account, hsystem, haccount⟩ := hinv.books
  have hmem := List.mem_append_left orphans hmem
  have haccounted : ∀ frame ∈ pool.free ++ user.address_space.frames machine.kernel.memory,
      boot.is_allocatable_frame frame = .ok true := by
    intro frame hframe
    refine hknown frame (haccount.subset (List.mem_append_left _ (hsystem.balance.subset ?_)))
    obtain hframe | hframe := List.mem_append.mp hframe
    · exact List.mem_append_left _ hframe
    · exact List.mem_append_right _ (List.mem_flatMap.mpr ⟨_, hmem, hframe⟩)
  have hreapable : Reapable machine.kernel task ↔ Reclaimable
      machine.kernel.memory.frame_allocator.reclaimed_count user.address_space.user_pages.length := by
    simp [Reapable, huser]
  rw [hreapable, (hsystem.start hmem hroot).destroy haccounted (hsystem.addressable _ hmem root hroot) hroot hcompact
    (hinv.inactive hboot hfull hroot hcurrent)]
  refine ⟨fun hfits => if_pos hfits, fun hfull => ?_⟩
  rw [if_neg hfull]
  split
  · exact .inl rfl
  · exact .inr rfl

/-- Reaping terminated tasks. In every state that loads, spawns, task switches,
terminations, reaps and frame requests of the kernel lead to, a terminated task
that is not current is reaped, and its slot freed, exactly when the reclaim stack
has room for what its address space still holds; otherwise its cleanup fails for
lack of that room, and for no other reason. -/
theorem terminated_task_reaped_iff_reapable (bits : Option UInt8) (memory : Nat → UInt8) (boot_info : BootInfo)
    (boot_info_address : UInt64) (physical_limit : Nat) (frame_allocator : BootInfoFrameAllocator)
    (mapper : Mapper) (physical_memory_offset : Nat) (kernel_user_slot_unused : Bool)
    (page_tables : PhysFrame → UserTables) (objects : Objects) (user_rsp kernel_rsp : Nat) (actions : List Action)
    (machine : Machine) (id : TaskId) (slot : Slot) (task : Task)
    (hlimit : physical_address_limit bits = .ok physical_limit)
    (hnew : BootInfoFrameAllocator.new memory boot_info boot_info_address physical_limit = .ok frame_allocator)
    (hrun : perform_all actions (Machine.booted ⟨mapper, frame_allocator, physical_memory_offset,
      kernel_user_slot_unused, page_tables⟩ objects user_rsp kernel_rsp boot_info.page_table_root.toNat) =
        some machine)
    (hslot : machine.kernel.global_scheduler.position_of id = some slot)
    (htask : machine.kernel.global_scheduler.tasks slot = some task) (hstate : task.state = .Terminated)
    (hcurrent : machine.kernel.global_scheduler.current ≠ some slot) :
    let result := reap_terminated AddressSpace.destroy id machine.kernel
    (Reapable machine.kernel task → result.1 = .ok () ∧ result.2.global_scheduler.tasks slot = none) ∧
    (¬ Reapable machine.kernel task → result.1 = .err .AddressSpaceCleanup ∧
      (result.2.global_scheduler.tasks slot).isSome ∧ ∃ user, task.user = some user ∧
        ((AddressSpace.destroy machine.kernel.cpu.cr3 (user.address_space, machine.kernel.memory)).1 =
            .err (.Memory .FrameReclaimCapacityExceeded) ∨
          (AddressSpace.destroy machine.kernel.cpu.cr3 (user.address_space, machine.kernel.memory)).1 =
            .err (.Unmapping .ReclaimCapacityExceeded))) := by
  obtain ⟨hmapped, _⟩ := BootInfoFrameAllocator.new_mapped (physical_address_limit_le hlimit) hnew
  obtain ⟨hboot, hstart⟩ := Machine.booted_inv ⟨mapper, frame_allocator, physical_memory_offset,
    kernel_user_slot_unused, page_tables⟩ objects user_rsp kernel_rsp hlimit hnew
  have hknown : ∀ frame ∈ frame_allocator.unvisited, frame_allocator.is_allocatable_frame frame = .ok true := by
    intro frame hframe
    obtain ⟨index, first_page, hindex, hmem⟩ := BootInfoFrameAllocator.mem_unvisited hframe
    exact BootInfoFrameAllocator.is_allocatable_frame_of_mem hmapped hindex hmem
  rw [reap_terminated_apply hslot htask hstate hcurrent]
  cases huser : task.user with
  | none =>
    refine ⟨fun _ => ⟨rfl, by simp [Kernel.reaped, Scheduler.put]⟩, fun hfull => ?_⟩
    exact absurd (by simp [Reapable, huser]) hfull
  | some user =>
    obtain ⟨hfits, hfails⟩ :=
      (perform_all_inv actions hstart hboot hrun).destroy_outcome hboot hknown htask huser hcurrent
    rcases hresult : AddressSpace.destroy machine.kernel.cpu.cr3 (user.address_space, machine.kernel.memory) with
      ⟨outcome, space, memory⟩
    simp only [hresult] at hfits hfails ⊢
    refine ⟨fun hreapable => ?_, fun hfull => ?_⟩
    · rw [hfits hreapable]
      exact ⟨rfl, by simp [Kernel.reaped, Scheduler.put]⟩
    · obtain rfl | rfl := hfails hfull
      · exact ⟨rfl, by simp [Kernel.torn, Scheduler.put], user, rfl, .inl (by rw [hresult])⟩
      · exact ⟨rfl, by simp [Kernel.torn, Scheduler.put], user, rfl, .inr (by rw [hresult])⟩

/-- A booted machine over the sample map. -/
def sample_machine : Machine :=
  .booted sample_manager ⟨[], [], [], .empty⟩ 0 0 0x102000

/-- Programs as large as the loader accepts are loaded and spawned, all are
terminated, and the first few are reaped. -/
def launch_and_reap (programs reaped : Nat) : List Action :=
  List.replicate programs (.load [0x90] [] 65535 0 [112] [] .granted) ++
    List.replicate programs (.spawn_program 0 (.ok (.empty, 0)) [] []) ++
    (List.range programs).map (fun index => .terminate_task (index + 1) 0) ++
    (List.range reaped).map fun index => .reap_terminated (index + 1)

/-- A single program is reaped. -/
theorem terminated_task_reaped_iff_reapable_sample :
    ∃ machine, perform_all (launch_and_reap 1 0) sample_machine = some machine ∧
      (reap_terminated AddressSpace.destroy 1 machine.kernel).1 = .ok () := by
  have hrun : ((perform_all (launch_and_reap 1 0) sample_machine).map fun machine =>
      (machine.kernel.global_scheduler.position_of 1, (machine.kernel.global_scheduler.tasks 0).map fun task =>
        (task.state, task.user.map fun user => user.address_space.user_pages.length),
        machine.kernel.global_scheduler.current, machine.kernel.memory.frame_allocator.reclaimed_count)) =
      some (some 0, some (.Terminated, some 21), none, 0) := by decide +kernel
  obtain ⟨machine, hmachine, hstate⟩ := Option.map_eq_some_iff.mp hrun
  simp only [Prod.mk.injEq, Option.map_eq_some_iff] at hstate
  obtain ⟨hslot, ⟨task, htask, hterminated, user, huser, hpages⟩, hcurrent, hcount⟩ := hstate
  have hreaped := terminated_task_reaped_iff_reapable (some 32) sample_memory sample_boot_info 0x103000
    (2 ^ 32) sample_allocator offset_page_table 0 true (fun _ => .new) ⟨[], [], [], .empty⟩ 0 0
    (launch_and_reap 1 0) machine 1 0 task rfl sample_new hmachine hslot htask hterminated (by simp [hcurrent])
  refine ⟨machine, hmachine, (hreaped.1 fun found hfound => ?_).1⟩
  obtain rfl := Option.mem_unique huser hfound
  rw [hcount, hpages]
  decide

/-- Eleven programs of the largest size are alive at once. Once ten of them have been
reaped, the eleventh cannot be: the reclaim stack is full before its pages are. -/
theorem eleventh_program_is_not_reaped :
    ∃ machine, perform_all (launch_and_reap 11 10) sample_machine = some machine ∧
      ∃ slot task user, machine.kernel.global_scheduler.position_of 11 = some slot ∧
        machine.kernel.global_scheduler.tasks slot = some task ∧ task.state = .Terminated ∧
        machine.kernel.global_scheduler.current ≠ some slot ∧ task.user = some user ∧
        (reap_terminated AddressSpace.destroy 11 machine.kernel).1 = .err .AddressSpaceCleanup ∧
        (AddressSpace.destroy machine.kernel.cpu.cr3 (user.address_space, machine.kernel.memory)).1 =
          .err (.Unmapping .ReclaimCapacityExceeded) := by
  have hrun : ((perform_all (launch_and_reap 11 10) sample_machine).map fun machine =>
      (machine.kernel.global_scheduler.position_of 11, machine.kernel.global_scheduler.current,
        (reap_terminated AddressSpace.destroy 11 machine.kernel).1,
        (machine.kernel.global_scheduler.tasks 10).map fun task => (task.state, task.user.map fun user =>
          (AddressSpace.destroy machine.kernel.cpu.cr3 (user.address_space, machine.kernel.memory)).1))) =
      some (some 10, none, .err .AddressSpaceCleanup,
        some (.Terminated, some (.err (.Unmapping .ReclaimCapacityExceeded)))) := by
    set_option synthInstance.maxSize 1000 in
    decide +kernel
  obtain ⟨machine, hmachine, hstate⟩ := Option.map_eq_some_iff.mp hrun
  simp only [Prod.mk.injEq, Option.map_eq_some_iff] at hstate
  obtain ⟨hslot, hcurrent, hreap, task, htask, hterminated, user, huser, hdestroy⟩ := hstate
  exact ⟨machine, hmachine, 10, task, user, hslot, htask, hterminated, by simp [hcurrent], huser, hreap, hdestroy⟩

end leafos.tasking.scheduler
