import LeafOS.Tasking.ActivationSteps
import LeafOS.UserProgram.Loading

namespace leafos.tasking.scheduler

open leafos.memory leafos.user_program leafos.tasking.fd Prog

/-- The kernel with the programs that are loaded but not spawned, and the frames that
its own mappings, such as those of the heap, took from the allocator. -/
structure Machine where
  kernel : Kernel MemoryManager
  loaded : List LoadedProgram
  held : List PhysFrame

/-- What can happen to programs and tasks. Each action carries what code outside the
tasking and memory modules decides: the images, heap reservations, kernel stacks
and the clock. -/
inductive Action where
  | load (code data : List UInt8) (bss_len entry_offset : Nat) (path : List UInt8)
      (arguments : List (List UInt8)) (reservations : Reservations)
  | spawn_program (index : Nat) (stack : KernelStack)
      (fd_mappings : List FdMapping) (fd_closes : List Nat)
  | spawn (entry : KernelTaskEntry) (stack : KernelStack)
  | run_tasks (idle_entry : KernelTaskEntry) (stack : KernelStack)
  | leave_run_tasks
  | idle_task_entry (now : UInt64)
  | yield_now
  | preempt_from_timer (now : UInt64)
  | block_now (call : BlockedCall)
  | sleep_ticks (now duration : UInt64)
  | wake_task (id : TaskId)
  | wake_all_blocked_tasks
  | terminate_task (id : TaskId) (exit_code : UInt64)
  | exit_current (exit_code : Option UInt64) (terminate_group : Bool)
  | reap_terminated (id : TaskId)
  | wait_for_child (child : Option TaskId)
  | allocate_frame
  | deallocate_frame (index : Nat)

/-- Run a method of the kernel. There is no result when it panics. -/
def Machine.on_kernel {α : Type} (machine : Machine) (method : KernelM MemoryManager α) : Option Machine :=
  match method machine.kernel with
  | (.panic, _) => none
  | (_, kernel) => some { machine with kernel }

/-- The machine with another memory manager. -/
def Machine.with_memory (machine : Machine) (memory : MemoryManager) : Machine :=
  { machine with kernel := { machine.kernel with memory } }

def Action.perform (action : Action) (machine : Machine) : Option Machine :=
  match action with
  | .load code data bss_len entry_offset path arguments reservations =>
    match load_segments machine.kernel.cpu.cr3 code data bss_len entry_offset path arguments reservations
        machine.kernel.memory with
    | (.ok program, memory) => some { machine.with_memory memory with loaded := machine.loaded ++ [program] }
    | (.err _, memory) => some (machine.with_memory memory)
    | (.panic, _) => none
  | .spawn_program index stack fd_mappings fd_closes =>
    match machine.loaded[index]? with
    | none => some machine
    | some program =>
      { machine with loaded := machine.loaded.eraseIdx index }.on_kernel
        (spawn_user_with_arguments_and_fds AddressSpace.destroy program.address_space program.entry
          program.stack program.argument_count program.argument_vector stack fd_mappings fd_closes)
  | .spawn entry stack => machine.on_kernel (scheduler.spawn entry stack)
  | .run_tasks idle_entry stack => machine.on_kernel (scheduler.run_tasks idle_entry stack)
  | .leave_run_tasks => machine.on_kernel scheduler.leave_run_tasks
  | .idle_task_entry now => machine.on_kernel (scheduler.idle_task_entry now)
  | .yield_now => machine.on_kernel scheduler.yield_now
  | .preempt_from_timer now => machine.on_kernel (scheduler.preempt_from_timer now)
  | .block_now call => machine.on_kernel (scheduler.block_now call)
  | .sleep_ticks now duration => machine.on_kernel (scheduler.sleep_ticks now duration)
  | .wake_task id => machine.on_kernel (locked (Scheduler.wake id))
  | .wake_all_blocked_tasks => machine.on_kernel (locked Scheduler.wake_all_blocked)
  | .terminate_task id exit_code => machine.on_kernel (locked (Scheduler.terminate_task id exit_code))
  | .exit_current exit_code terminate_group =>
    machine.on_kernel (exit_current_with_status_and_group exit_code terminate_group)
  | .reap_terminated id => machine.on_kernel (scheduler.reap_terminated AddressSpace.destroy id)
  | .wait_for_child child => machine.on_kernel (scheduler.wait_for_child AddressSpace.destroy child)
  | .allocate_frame =>
    match MemoryManager.with_allocator BootInfoFrameAllocator.allocate machine.kernel.memory with
    | (.ok (some frame), memory) => some { machine.with_memory memory with held := frame :: machine.held }
    | (.ok none, memory) => some (machine.with_memory memory)
    | ((.err _ : Outcome MemoryError _), memory) => some (machine.with_memory memory)
    | (.panic, _) => none
  | .deallocate_frame index =>
    match machine.held[index]? with
    | none => some machine
    | some frame =>
      match MemoryManager.deallocate_frame frame machine.kernel.memory with
      | (.ok _, memory) => some { machine.with_memory memory with held := machine.held.eraseIdx index }
      | (.err _, memory) => some (machine.with_memory memory)
      | (.panic, _) => none

/-- Perform actions in order, whatever they return; no result if one panics. -/
def perform_all : List Action → Machine → Option Machine
  | [], machine => some machine
  | action :: rest, machine => (action.perform machine).bind (perform_all rest)

/-- The address spaces of all tasks, in slot order. -/
def Scheduler.spaces (self : Scheduler) : List AddressSpace :=
  (List.finRange MAX_TASKS).filterMap self.space_of

/-- The address spaces that somebody owns. -/
def Machine.spaces (machine : Machine) : List AddressSpace :=
  machine.kernel.global_scheduler.spaces ++ machine.loaded.map LoadedProgram.address_space

/-- The invariant of the machine. Spaces that a failed cleanup dropped are still in
the books, as orphans. -/
structure Machine.Inv (machine : Machine) (boot : BootInfoFrameAllocator) : Prop where
  sound : machine.kernel.Sound
  books : ∃ pool orphans account,
    (System.mk machine.kernel.memory (machine.spaces ++ orphans)).Inv boot pool account ∧
      (account ++ machine.held).Perm boot.unvisited
  spaces : ∀ space ∈ machine.spaces, space.root.isSome ∧ Compact PROGRAM_BLOCK space.pages
  kernel_root : machine.kernel.kernel_root ∉ boot.unvisited

section Steps

variable {machine : Machine} {boot : BootInfoFrameAllocator} {machine' : Machine} {index : Nat}

theorem Machine.Inv.steady (hinv : machine.Inv boot) {kernel : Kernel MemoryManager}
    (hsteady : machine.kernel.Steady kernel) : ({ machine with kernel } : Machine).Inv boot := by
  have hspaces : ({ machine with kernel } : Machine).spaces = machine.spaces := by
    simp only [Machine.spaces, Scheduler.spaces, hsteady.space_of]
  refine ⟨hsteady.sound, ?_, ?_, ?_⟩
  · rw [hspaces]
    simp only [hsteady.memory]
    exact hinv.books
  · rw [hspaces]
    exact hinv.spaces
  · simp only [hsteady.kernel_root]
    exact hinv.kernel_root

theorem on_kernel_ends {α : Type} {method : KernelM MemoryManager α} {P S B : Kernel MemoryManager → Prop}
    {later : Machine} (hmethod : Ends P method (fun _ => S) (fun _ => S) B) (hbefore : P machine.kernel)
    (hcall : machine.on_kernel method = some later) : S later.kernel ∧ later = { machine with kernel := later.kernel } := by
  have hafter := hmethod.ends machine.kernel hbefore
  unfold Machine.on_kernel at hcall
  generalize method machine.kernel = result at hafter hcall
  rcases result with ⟨_ | _ | _, kernel⟩ <;> cases hcall
  all_goals exact ⟨hafter, rfl⟩

/-- The actions that concern scheduling only. -/
def Action.Schedules (action : Action) : Prop :=
  match action with
  | .load _ _ _ _ _ _ _ | .spawn_program _ _ _ _ | .reap_terminated _ | .wait_for_child _ => False
  | .allocate_frame | .deallocate_frame _ => False
  | _ => True

/-- They keep what the rules of a call keep. -/
theorem Action.perform_settled {S R : Kernel MemoryManager → Prop} (hrules : Discipline S R fun _ => True)
    (hblock : ∀ {kernel}, R kernel → R ((Operation.block_current : Operation MemoryManager).execute kernel).2)
    (hstack : ∀ {kernel} (slot : Slot) (call : BlockedCall), R kernel → R { kernel with
      global_scheduler := kernel.global_scheduler.modify_task slot fun task => { task with _stack := some call } })
    {action : Action} (hschedules : action.Schedules) (hsettled : S machine.kernel)
    (hpreempted : ∀ now, action = .preempt_from_timer now → R machine.kernel)
    (hleft : ∀ now after, Scheduler.idle_to_bootstrap now machine.kernel.global_scheduler = (.ok (), after) →
      after.current = none → R { machine.kernel with global_scheduler := after })
    {later : Machine} (hcall : action.perform machine = some later) :
    S later.kernel ∧ later = { machine with kernel := later.kernel } := by
  have hmethod : ∀ operation : Operation MemoryManager, (∀ self, operation.Allowed self) → operation.Schedules →
      ¬ operation.Switches → ∀ {method : SchedulerM Unit}, operation.execute = locked method →
      machine.on_kernel (locked method) = some later → S later.kernel ∧ later = { machine with kernel := later.kernel } :=
    fun operation hallowed hscheduling hstays _ hsame =>
      on_kernel_ends (hrules.call operation (fun _ => by rw [hsame]) hallowed hscheduling hstays) hsettled
  cases action with
  | spawn entry stack => exact on_kernel_ends (hrules.spawn entry stack) hsettled hcall
  | run_tasks idle_entry stack => exact on_kernel_ends (hrules.run_tasks idle_entry stack) hsettled hcall
  | leave_run_tasks => exact on_kernel_ends hrules.leave_run_tasks hsettled hcall
  | idle_task_entry now =>
    refine on_kernel_ends (P := (machine.kernel = ·)) (hrules.idle_task_entry now ?_ ?_) rfl hcall
    · rintro _ rfl
      exact hsettled
    · rintro _ after rfl heq
      exact hleft now after heq
  | yield_now => exact on_kernel_ends hrules.yield_now hsettled hcall
  | preempt_from_timer now =>
    exact on_kernel_ends (hrules.preempt_from_timer now) ⟨hpreempted now rfl, hsettled⟩ hcall
  | block_now call => exact on_kernel_ends (hrules.block_now hblock hstack call) hsettled hcall
  | sleep_ticks now duration => exact on_kernel_ends (hrules.sleep_ticks now duration) hsettled hcall
  | exit_current exit_code terminate_group =>
    exact on_kernel_ends (hrules.exit_current exit_code terminate_group) hsettled hcall
  | wake_task id => exact hmethod (.wake id) (fun _ => trivial) trivial (fun hswitches => hswitches) rfl hcall
  | wake_all_blocked_tasks =>
    exact hmethod .wake_all_blocked (fun _ => trivial) trivial (fun hswitches => hswitches) rfl hcall
  | terminate_task id exit_code =>
    exact hmethod (.terminate_task id exit_code) (fun _ => trivial) trivial (fun hswitches => hswitches) rfl hcall
  | _ => exact hschedules.elim

/-- A method of the kernel that does not panic. -/
theorem on_kernel_inv {α : Type} {method : KernelM MemoryManager α}
    (hmethod : ∀ outcome after, method machine.kernel = (outcome, after) → outcome ≠ .panic →
      ({ machine with kernel := after } : Machine).Inv boot)
    {machine' : Machine} (hcall : machine.on_kernel method = some machine') : machine'.Inv boot := by
  unfold Machine.on_kernel at hcall
  cases hresult : method machine.kernel with
  | mk outcome after =>
    rw [hresult] at hcall
    cases outcome with
    | panic => cases hcall
    | ok _ | err _ =>
      obtain rfl := Option.some.inj hcall
      exact hmethod _ after hresult (by simp)

/-- One slot of the table, and the address spaces of everybody else. -/
theorem Machine.spaces_perm (machine : Machine) (slot : Slot) :
    ∃ rest, machine.spaces.Perm ((machine.kernel.global_scheduler.space_of slot).toList ++ rest) ∧
      ∀ machine' : Machine, machine'.loaded = machine.loaded →
        (∀ other, other ≠ slot →
          machine'.kernel.global_scheduler.space_of other = machine.kernel.global_scheduler.space_of other) →
        machine'.spaces.Perm ((machine'.kernel.global_scheduler.space_of slot).toList ++ rest) := by
  obtain ⟨rest, hperm, hchanged⟩ := List.perm_filterMap_finRange machine.kernel.global_scheduler.space_of slot
  refine ⟨rest ++ machine.loaded.map LoadedProgram.address_space, ?_, fun machine' hloaded hsame => ?_⟩
  · rw [Machine.spaces, Scheduler.spaces, ← List.append_assoc]
    exact hperm.append_right _
  · rw [Machine.spaces, Scheduler.spaces, hloaded, ← List.append_assoc]
    exact (hchanged _ hsame).append_right _

/-- A change to a slot that is neither current nor idle. -/
theorem Kernel.Sound.change_slot {kernel kernel' : Kernel MemoryManager} (hsound : kernel.Sound) {slot : Slot}
    (hinv : kernel'.global_scheduler.Inv kernel.global_scheduler)
    (hcurrent : kernel'.global_scheduler.current = kernel.global_scheduler.current)
    (hidle : kernel'.global_scheduler.idle_index = kernel.global_scheduler.idle_index) (hcpu : kernel'.cpu = kernel.cpu)
    (hroot : kernel'.kernel_root = kernel.kernel_root)
    (hother : ∀ other, other ≠ slot → kernel'.global_scheduler.space_of other = kernel.global_scheduler.space_of other)
    (hapart : kernel.global_scheduler.current ≠ some slot) (hbusy : kernel.global_scheduler.idle_index ≠ some slot) :
    kernel'.Sound := by
  refine ⟨⟨hinv.restart, fun found hfound => ?_, fun hsome => ?_⟩, ?_⟩
  · rw [hidle] at hfound
    rw [hother found fun hsame => hbusy (hsame ▸ hfound)]
    exact hsound.orderly.idle found hfound
  · rw [hidle]
    exact hsound.orderly.started (hcurrent ▸ hsome)
  · have hactive := hsound.active
    rw [hcpu, ← hactive, active_root, active_root, hcurrent, hroot]
    cases hrunning : kernel.global_scheduler.current with
    | none => rfl
    | some current =>
      have hne : current ≠ slot := fun hsame => hapart (hsame ▸ hrunning)
      simp only [Option.bind_some, hother current hne]

/-- Taking a program out of the list of loaded ones. -/
theorem Machine.spaces_unload (machine : Machine) {program : LoadedProgram}
    (hprogram : machine.loaded[index]? = some program) :
    (program.address_space :: ({ machine with loaded := machine.loaded.eraseIdx index } : Machine).spaces).Perm
      machine.spaces := by
  obtain ⟨hbound, rfl⟩ := List.getElem?_eq_some_iff.mp hprogram
  have hperm := (List.getElem_cons_eraseIdx_perm hbound).map LoadedProgram.address_space
  exact List.perm_middle.symm.trans (hperm.append_left _)

section Books

variable (hinv : machine.Inv boot) (hboot : boot.unvisited.Nodup)
include hinv

/-- A change of hands: the spaces that somebody owns are the same, except for those that
are dropped. -/
theorem Machine.Inv.handed_over (hsound : machine'.kernel.Sound)
    (hmemory : machine'.kernel.memory = machine.kernel.memory) (hheld : machine'.held = machine.held)
    (hroot : machine'.kernel.kernel_root = machine.kernel.kernel_root) (dropped : List AddressSpace)
    (hperm : (machine'.spaces ++ dropped).Perm machine.spaces) : machine'.Inv boot := by
  obtain ⟨pool, orphans, account, hsystem, haccount⟩ := hinv.books
  refine ⟨hsound, ⟨pool, dropped ++ orphans, account, ?_, by rw [hheld]; exact haccount⟩, ?_, ?_⟩
  · rw [hmemory]
    refine hsystem.perm ?_
    rw [← List.append_assoc]
    exact hperm.append_right orphans
  · exact fun space hspace => hinv.spaces space (hperm.subset (List.mem_append_left _ hspace))
  · rw [hroot]
    exact hinv.kernel_root

/-- A frame that the kernel takes for its own mappings leaves the books. -/
theorem Machine.Inv.allocate_frame (hcall : Action.allocate_frame.perform machine = some machine') :
    machine'.Inv boot := by
  obtain ⟨pool, orphans, account, hsystem, haccount⟩ := hinv.books
  simp only [Action.perform, MemoryManager.with_allocator, zoom] at hcall
  obtain ⟨frame, rest, after, htake, hallocate, hafter⟩ | ⟨_, after, hallocate, hafter⟩ :=
    hsystem.refines.allocate MemoryError
  · simp only [hallocate] at hcall
    obtain rfl := Option.some.inj hcall
    refine ⟨{ hinv.sound with }, ⟨rest, orphans,
      rest.free ++ (System.mk machine.kernel.memory (machine.spaces ++ orphans)).in_use,
      ⟨hafter, hsystem.mirrors, hsystem.addressable, List.Perm.refl _⟩, ?_⟩, hinv.spaces, hinv.kernel_root⟩
    have hbalance := hsystem.balance
    rw [Pool.take_free htake, List.cons_append] at hbalance
    exact List.perm_middle.trans ((hbalance.append_right machine.held).trans haccount)
  · simp only [hallocate] at hcall
    obtain rfl := Option.some.inj hcall
    exact ⟨{ hinv.sound with }, ⟨pool, orphans, account,
      ⟨hafter, hsystem.mirrors, hsystem.addressable, hsystem.balance⟩, haccount⟩, hinv.spaces, hinv.kernel_root⟩

/-- A frame that the kernel gives back is free again. -/
theorem Machine.Inv.deallocate_frame (hcall : (Action.deallocate_frame index).perform machine = some machine') :
    machine'.Inv boot := by
  obtain ⟨pool, orphans, account, hsystem, haccount⟩ := hinv.books
  simp only [Action.perform] at hcall
  cases hframe : machine.held[index]? with
  | none =>
    simp only [hframe] at hcall
    obtain rfl := Option.some.inj hcall
    exact hinv
  | some frame =>
    simp only [hframe, MemoryManager.deallocate_frame, MemoryManager.with_allocator, zoom] at hcall
    obtain ⟨rest, after, hput, hreturn, hrest⟩ | ⟨_, hreturn, _⟩ := hsystem.refines.deallocate_frame frame
    · obtain ⟨hfresh, hreturned⟩ := Pool.put_eq_some hput
      simp only [hreturn] at hcall
      obtain rfl := Option.some.inj hcall
      refine ⟨{ hinv.sound with }, ⟨rest, orphans,
        rest.free ++ (System.mk machine.kernel.memory (machine.spaces ++ orphans)).in_use,
        ⟨hrest, hsystem.mirrors, hsystem.addressable, List.Perm.refl _⟩, ?_⟩, hinv.spaces, hinv.kernel_root⟩
      obtain ⟨hbound, rfl⟩ := List.getElem?_eq_some_iff.mp hframe
      have hfree : rest.free = machine.held[index] :: pool.free := by simp [Pool.free, hfresh, hreturned]
      rw [hfree, List.cons_append, List.cons_append]
      refine List.perm_middle.symm.trans ?_
      have hheld := (List.getElem_cons_eraseIdx_perm hbound).append_left account
      exact (hsystem.balance.append_right _).trans (hheld.trans haccount)
    · simp only [hreturn] at hcall
      obtain rfl := Option.some.inj hcall
      exact hinv

include hboot

/-- A change to the address space of one slot that keeps the books. What goes from
the slot without being given back is an orphan. -/
theorem Machine.Inv.replaced {slot : Slot}
    (hsound : machine'.kernel.Sound) (hloaded : machine'.loaded = machine.loaded) (hheld : machine'.held = machine.held)
    (hroot : machine'.kernel.kernel_root = machine.kernel.kernel_root) (hother : ∀ other, other ≠ slot →
      machine'.kernel.global_scheduler.space_of other = machine.kernel.global_scheduler.space_of other)
    (hbooks : ∀ pool account rest, account.Nodup →
      (System.mk machine.kernel.memory
        ((machine.kernel.global_scheduler.space_of slot).toList ++ rest)).Inv boot pool account →
      ∃ pool' gone, (System.mk machine'.kernel.memory
        ((machine'.kernel.global_scheduler.space_of slot).toList ++ (rest ++ gone))).Inv boot pool' account)
    (hnew : ∀ space ∈ machine'.kernel.global_scheduler.space_of slot,
      space.root.isSome ∧ Compact PROGRAM_BLOCK space.pages) : machine'.Inv boot := by
  obtain ⟨rest, hperm, hchanged⟩ := machine.spaces_perm slot
  have hperm' := hchanged machine' hloaded hother
  obtain ⟨pool, orphans, account, hsystem, haccount⟩ := hinv.books
  have hnodup : account.Nodup := (List.nodup_append.mp (haccount.nodup_iff.mpr hboot)).1
  refine ⟨hsound, ?_, fun space hspace => ?_, ?_⟩
  · have hsplit : ((machine.kernel.global_scheduler.space_of slot).toList ++ (rest ++ orphans)).Perm
        (machine.spaces ++ orphans) := by
      rw [← List.append_assoc]
      exact (hperm.append_right orphans).symm
    obtain ⟨pool', gone, hsystem'⟩ := hbooks pool account (rest ++ orphans) hnodup (hsystem.perm hsplit)
    refine ⟨pool', orphans ++ gone, account, hsystem'.perm ?_, by rw [hheld]; exact haccount⟩
    rw [← List.append_assoc, ← List.append_assoc, ← List.append_assoc]
    exact (hperm'.append_right orphans).append_right gone
  · obtain hspace | hspace := List.mem_append.mp (hperm'.subset hspace)
    · exact hnew space (Option.mem_toList.mp hspace)
    · exact hinv.spaces space (hperm.symm.subset (List.mem_append_right _ hspace))
  · rw [hroot]
    exact hinv.kernel_root

/-- Reaping takes the address space of a slot apart: it goes with the task, or the task
keeps what is left. -/
theorem Machine.Inv.reap (id : TaskId) :
    ({ machine with kernel := (scheduler.reap_terminated AddressSpace.destroy id machine.kernel).2 } :
      Machine).Inv boot := by
  obtain ⟨error, heq⟩ | ⟨slot, task, hslot, htask, hstate, hcurrent⟩ :=
    reap_terminated_cases AddressSpace.destroy id machine.kernel
  · rw [heq]
    exact hinv
  have horderly := hinv.sound.orderly
  have hbusy : machine.kernel.global_scheduler.idle_index ≠ some slot := fun hidle => by
    have hfits := horderly.inv.task_fits htask
    obtain hready | hrunning := hfits.idle_state (hfits.idle.mpr hidle)
    · rw [hstate] at hready
      cases hready
    · rw [hstate] at hrunning
      cases hrunning
  have hput : ∀ (entry : Option Task) (other : Slot), other ≠ slot →
      (machine.kernel.global_scheduler.put slot entry).space_of other =
        machine.kernel.global_scheduler.space_of other := fun entry other hne => by
    rw [Scheduler.space_of_put, if_neg hne]
  have hreaped : ∀ memory, (∀ pool account rest, account.Nodup → (System.mk machine.kernel.memory
        ((machine.kernel.global_scheduler.space_of slot).toList ++ rest)).Inv boot pool account →
        ∃ pool' gone, (System.mk memory (rest ++ gone)).Inv boot pool' account) →
      ({ machine with kernel := machine.kernel.reaped slot task memory } : Machine).Inv boot := by
    intro memory hbooks
    have hgone : (machine.kernel.reaped slot task memory).global_scheduler.space_of slot = none := by
      simp [Kernel.reaped, Scheduler.space_of_put]
    refine hinv.replaced hboot (hinv.sound.change_slot (horderly.inv.remove htask hstate) rfl rfl rfl rfl (hput none)
      hcurrent hbusy) rfl rfl rfl (hput none) ?_ (by simp [hgone])
    rw [hgone]
    exact hbooks
  rw [reap_terminated_apply hslot htask hstate hcurrent]
  cases huser : task.user with
  | none =>
    refine hreaped _ fun pool account rest _ hsystem => ⟨pool, [], ?_⟩
    simpa [Scheduler.space_of, htask, huser] using hsystem
  | some user =>
    have hfull : machine.kernel.global_scheduler.space_of slot = some user.address_space := by
      simp [Scheduler.space_of, htask, huser]
    obtain ⟨hlive, hcompact⟩ := hinv.spaces user.address_space
      ((machine.spaces_perm slot).choose_spec.1.symm.subset (by simp [hfull]))
    obtain ⟨root, hroot⟩ := Option.isSome_iff_exists.mp hlive
    have hkeeps := AddressSpace.destroy_keeps machine.kernel.cpu.cr3 user.address_space machine.kernel.memory
    have hbooks : ∀ pool account rest, account.Nodup → (System.mk machine.kernel.memory
        ((machine.kernel.global_scheduler.space_of slot).toList ++ rest)).Inv boot pool account → _ :=
      fun pool account rest hnodup hsystem => System.Inv.destroy (hfull ▸ hsystem) hnodup hroot
        machine.kernel.cpu.cr3
    dsimp only
    generalize AddressSpace.destroy machine.kernel.cpu.cr3 (user.address_space, machine.kernel.memory) = result
      at hkeeps hbooks
    obtain ⟨outcome, space, memory⟩ := result
    have hkept : outcome ≠ .ok () → space.root.isSome ∧ Compact PROGRAM_BLOCK space.pages := fun hne =>
      ⟨by rw [hkeeps.1 hne]; exact hlive, fun page hpage => hcompact page ((hkeeps.2.map _).subset hpage)⟩
    have hleft : ∀ memory, (machine.kernel.torn slot task user space memory).global_scheduler.space_of slot =
        some space := fun memory => by
      simp [Kernel.torn, Scheduler.space_of_put]
    have hstays : outcome ≠ .ok () →
        ({ machine with kernel := machine.kernel.torn slot task user space memory } : Machine).Inv boot := by
      intro hne
      refine hinv.replaced hboot (hinv.sound.change_slot (horderly.inv.put htask (horderly.inv.keeps htask))
        rfl rfl rfl rfl (hput _) hcurrent hbusy) rfl rfl rfl (hput _) ?_ ?_
      · intro pool account rest hnodup hsystem
        obtain ⟨pool', hsystem'⟩ := hbooks pool account rest hnodup hsystem
        exact ⟨pool', [], by rw [hleft]; simpa [Kernel.torn] using hsystem'⟩
      · rw [hleft]
        rintro _ ⟨⟩
        exact hkept hne
    cases outcome with
    | ok _ =>
      refine hreaped _ fun pool account rest hnodup hsystem => ?_
      obtain ⟨pool', hsystem'⟩ := hbooks pool account rest hnodup hsystem
      exact ⟨pool', [space], hsystem'.perm (List.perm_append_singleton space rest)⟩
    | err error | panic => exact hstays (by simp)

theorem Machine.Inv.spawn_program {program : LoadedProgram} (hprogram : machine.loaded[index]? = some program)
    (stack : KernelStack) (fd_mappings : List FdMapping) (fd_closes : List Nat) :
    ({ machine with
      loaded := machine.loaded.eraseIdx index
      kernel := (spawn_user_with_arguments_and_fds AddressSpace.destroy program.address_space program.entry
        program.stack program.argument_count program.argument_vector stack fd_mappings fd_closes
        machine.kernel).2 } : Machine).Inv boot := by
  have hunload := machine.spaces_unload hprogram
  obtain ⟨slot, task, objects, hfree, hid, hstate, hflag, huser, _, heq⟩ | ⟨objects, _, heq⟩ | ⟨_, heq, _⟩ :=
    spawn_user_cases AddressSpace.destroy program.address_space program.entry program.stack
      program.argument_count program.argument_vector stack fd_mappings fd_closes machine.kernel
  · rw [heq]
    obtain ⟨rest, hperm, hchanged⟩ :=
      List.perm_filterMap_finRange machine.kernel.global_scheduler.space_of slot
    have hother : ∀ other, other ≠ slot → ({ machine.kernel.global_scheduler with
        next_id := machine.kernel.global_scheduler.next_id + 1 }.put slot (some task)).space_of other =
          machine.kernel.global_scheduler.space_of other := fun other hne => by
      rw [Scheduler.space_of_put, if_neg hne]
      rfl
    have hperm' := hchanged _ hother
    have hempty : machine.kernel.global_scheduler.space_of slot = none := by simp [Scheduler.space_of, hfree]
    rw [hempty, Option.toList_none, List.nil_append] at hperm
    rw [Scheduler.space_of_put, if_pos rfl, Option.bind_some, huser, Option.map_some, Option.toList_some]
      at hperm'
    have hinsert := hinv.sound.orderly.inv.insert hfree hid hstate hflag
    obtain ⟨hapart, hbusy⟩ := hinv.sound.orderly.inv.empty_slot hfree
    refine hinv.handed_over (hinv.sound.change_slot hinsert rfl rfl rfl rfl hother hapart hbusy) rfl rfl rfl
      [] ?_
    rw [List.append_nil]
    refine List.Perm.trans ?_ hunload
    exact (hperm'.append_right _).trans ((hperm.symm.append_right _).cons _)
  · -- the address space was taken out and then dropped with the child's descriptors
    rw [heq]
    exact hinv.handed_over { hinv.sound with } rfl rfl rfl [program.address_space]
      ((List.perm_append_singleton _ _).trans hunload)
  · rw [heq]
    obtain ⟨pool, orphans, account, hsystem, haccount⟩ := hinv.books
    have hnodup : account.Nodup := (List.nodup_append.mp (haccount.nodup_iff.mpr hboot)).1
    obtain ⟨hlive, _⟩ := hinv.spaces _ (hunload.subset List.mem_cons_self)
    obtain ⟨root, hroot⟩ := Option.isSome_iff_exists.mp hlive
    obtain ⟨pool', hdestroyed⟩ := (hsystem.perm (hunload.append_right orphans)).destroy hnodup hroot
      machine.kernel.cpu.cr3
    refine ⟨{ hinv.sound with }, ⟨pool', _, account, hdestroyed.perm List.perm_middle,
      haccount⟩, fun space hspace => ?_, hinv.kernel_root⟩
    exact hinv.spaces space (hunload.subset (List.mem_cons_of_mem _ hspace))

theorem Machine.Inv.load (code data : List UInt8)
    (bss_len entry_offset : Nat) (path : List UInt8) (arguments : List (List UInt8)) (reservations : Reservations)
    (hcall : (Action.load code data bss_len entry_offset path arguments reservations).perform machine = some machine') :
    machine'.Inv boot := by
  obtain ⟨pool, orphans, account, hsystem, haccount⟩ := hinv.books
  have hnodup : account.Nodup := (List.nodup_append.mp (haccount.nodup_iff.mpr hboot)).1
  have hbooks := load_segments_books hsystem hnodup machine.kernel.cpu.cr3 code data bss_len entry_offset path
    arguments reservations
  simp only [Action.perform] at hcall
  generalize load_segments machine.kernel.cpu.cr3 code data bss_len entry_offset path arguments reservations
    machine.kernel.memory = result at hcall hbooks
  obtain ⟨outcome, memory⟩ := result
  obtain ⟨⟨pool', leaked, hsystem'⟩, hnew⟩ := hbooks
  cases outcome with
  | panic => cases hcall
  | err error =>
    obtain rfl := Option.some.inj hcall
    refine ⟨{ hinv.sound with }, ⟨pool', orphans ++ leaked, account, ?_, haccount⟩,
      hinv.spaces, hinv.kernel_root⟩
    have hsame : (machine.with_memory memory).spaces = machine.spaces := rfl
    rw [hsame, ← List.append_assoc]
    simpa [Machine.with_memory] using hsystem'
  | ok program =>
    obtain rfl := Option.some.inj hcall
    have hspaces : ({ machine.with_memory memory with loaded := machine.loaded ++ [program] } : Machine).spaces =
        machine.spaces ++ [program.address_space] := by
      simp [Machine.spaces, Machine.with_memory]
    refine ⟨{ hinv.sound with }, ⟨pool', orphans ++ leaked, account, ?_, haccount⟩, ?_,
      hinv.kernel_root⟩
    · rw [hspaces]
      refine hsystem'.perm ?_
      simp only [Option.toList_some, List.append_assoc]
      refine List.Perm.append_left _ ?_
      rw [← List.append_assoc, ← List.append_assoc]
      exact List.perm_append_comm.append_right leaked
    · rw [hspaces]
      intro space hspace
      obtain hspace | hspace := List.mem_append.mp hspace
      · exact hinv.spaces space hspace
      · exact hnew space (by simpa using (List.mem_singleton.mp hspace).symm)

end Books

theorem Action.perform_inv (action : Action) (hinv : machine.Inv boot) (hboot : boot.unvisited.Nodup)
    (hcall : action.perform machine = some machine') : machine'.Inv boot := by
  have hsound := hinv.sound
  have hscheduling : action.Schedules → machine'.Inv boot := by
    intro hschedules
    have hleft : ∀ now after, Scheduler.idle_to_bootstrap now machine.kernel.global_scheduler = (.ok (), after) →
        after.current = none → machine.kernel.Rearranged { machine.kernel with global_scheduler := after } := by
      intro now after heq _
      have hready := (steady_discipline machine.kernel).selects (.idle_to_bootstrap now) trivial trivial
        hsound.refl.rearranged
      rwa [Operation.execute, locked_apply, heq] at hready
    obtain ⟨hsteady, hlater⟩ := Action.perform_settled (steady_discipline machine.kernel) (·.blocked)
      (fun slot call => (·.modify_stack slot call)) hschedules hsound.refl (fun _ _ => hsound.refl.rearranged) hleft hcall
    rw [hlater]
    exact hinv.steady hsteady
  cases action with
  | load code data bss_len entry_offset path arguments reservations =>
    exact hinv.load hboot code data bss_len entry_offset path arguments reservations hcall
  | spawn_program index stack fd_mappings fd_closes =>
    simp only [Action.perform] at hcall
    cases hprogram : machine.loaded[index]? with
    | none =>
      simp only [hprogram] at hcall
      obtain rfl := Option.some.inj hcall
      exact hinv
    | some program =>
      simp only [hprogram] at hcall
      refine on_kernel_inv (fun outcome after hresult _ => ?_) hcall
      have hspawned := hinv.spawn_program hboot hprogram stack fd_mappings fd_closes
      rwa [hresult] at hspawned
  | reap_terminated id =>
    refine on_kernel_inv (fun outcome after hresult _ => ?_) hcall
    have hreaped := hinv.reap hboot id
    rwa [hresult] at hreaped
  | wait_for_child child =>
    refine on_kernel_inv (fun outcome after hresult hpanic => ?_) hcall
    obtain ⟨id, rfl⟩ | hsteady := wait_for_child_cases AddressSpace.destroy child hsound hresult hpanic
    · exact hinv.reap hboot id
    · exact hinv.steady hsteady
  | allocate_frame => exact hinv.allocate_frame hcall
  | deallocate_frame index => exact hinv.deallocate_frame hcall
  | _ => exact hscheduling trivial

theorem perform_all_inv (actions : List Action) (hinv : machine.Inv boot) (hboot : boot.unvisited.Nodup)
    (hrun : perform_all actions machine = some machine') : machine'.Inv boot := by
  induction actions generalizing machine with
  | nil =>
    obtain rfl := Option.some.inj hrun
    exact hinv
  | cons action rest ih =>
    obtain ⟨middle, haction, hrest⟩ := Option.bind_eq_some_iff.mp hrun
    exact ih (action.perform_inv hinv hboot haction) hrest

end Steps

end leafos.tasking.scheduler
