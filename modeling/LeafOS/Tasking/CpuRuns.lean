import LeafOS.Tasking.CpuState
import LeafOS.Tasking.Reaping

namespace leafos.tasking.scheduler

open leafos.memory leafos.user_program leafos.tasking.fd Prog

/-- The machine, with the stack pointer with which each task entered the system call that it
is in. -/
structure Execution where
  machine : Machine
  entered : TaskId → Option Nat

/-- What happens next on the processor: the running user task enters a system call or
returns from one, or kernel code acts. -/
inductive Step where
  | syscall_entry (rsp : Nat)
  | syscall_return (rcx : Nat)
  | act (action : Action)

/-- The running task, if it is a user task. -/
def Machine.user_task (machine : Machine) : Option Task :=
  machine.kernel.running.filter fun task => task.user.isSome

/-- The range check of `leafos_syscall_entry` on the way back. -/
def returnable (address : Nat) : Prop := USER_SPACE_START ≤ address ∧ address < USER_SPACE_END

instance : DecidablePred returnable := fun _ => inferInstanceAs (Decidable (_ ∧ _))

def Action.is_preemption (action : Action) : Bool :=
  match action with
  | .preempt_from_timer _ => true
  | _ => false

/-- Take a step. What cannot happen in a state has no effect there: system calls are
entered from user mode, and they run with interrupts masked. -/
def Step.take (step : Step) (execution : Execution) : Option Execution :=
  let inside := execution.machine.user_task.bind fun task => execution.entered task.id
  match step with
  | .syscall_entry rsp =>
    match execution.machine.user_task with
    | some task =>
      if inside.isSome then some execution
      else some {
        machine := { execution.machine with
          kernel := { execution.machine.kernel with cpu.user_rsp := rsp } }
        entered := Function.update execution.entered task.id (some rsp) }
    | none => some execution
  | .syscall_return rcx =>
    match execution.machine.user_task with
    | some task =>
      if inside.isNone then some execution
      else if returnable rcx ∧ returnable execution.machine.kernel.cpu.user_rsp then
        some { execution with entered := Function.update execution.entered task.id none }
      else
        ((Action.exit_current none false).perform execution.machine).map fun machine => { execution with machine }
    | none => some execution
  | .act action =>
    if action.is_preemption ∧ inside.isSome then some execution
    else (action.perform execution.machine).map fun machine => { execution with machine }

/-- Take steps in order; no result if one panics. -/
def take_all : List Step → Execution → Option Execution
  | [], execution => some execution
  | step :: rest, execution => (step.take execution).bind (take_all rest)

structure Execution.Inv (execution : Execution) (boot : BootInfoFrameAllocator) : Prop where
  machine : execution.machine.Inv boot
  follows : execution.machine.kernel.Follows execution.entered

section Steps

variable {machine later : Machine} {entered : TaskId → Option Nat} {boot : BootInfoFrameAllocator} {task : Task}
  {kernel : Kernel MemoryManager} {execution after : Execution}

/-- A method that is described by the state it leaves. -/
theorem on_kernel_follows_snd {α : Type} {method : KernelM MemoryManager α}
    (hmethod : (method machine.kernel).1 ≠ .panic → (method machine.kernel).2.Follows entered)
    (hcall : machine.on_kernel method = some later) : later.kernel.Follows entered := by
  refine (on_kernel_ends (P := (· = machine.kernel)) (B := fun _ => True) ?_ rfl hcall).1
  constructor
  rintro _ rfl
  generalize method machine.kernel = result at hmethod ⊢
  rcases result with ⟨_ | _ | _, kernel⟩
  · exact hmethod nofun
  · exact hmethod nofun
  · trivial

theorem Action.perform_follows (action : Action) (horderly : machine.kernel.global_scheduler.Orderly)
    (hfollows : machine.kernel.Follows entered)
    (houtside : action.is_preemption = true → ∀ task user, machine.kernel.running = some task →
      task.user = some user → entered task.id = none)
    (hcall : action.perform machine = some later) : later.kernel.Follows entered := by
  have hscheduling : action.Schedules → later.kernel.Follows entered := by
    intro hschedules
    refine (Action.perform_settled (follows_discipline entered) (Operation.execute_saved .block_current)
      (fun slot call hsaved => hsaved.modify_stack slot (some call)) hschedules hfollows ?_
      (hfollows.idle_leaves horderly) hcall).1
    rintro now rfl
    exact hfollows.saved_outside (houtside rfl)
  cases action with
  | load code data bss_len entry_offset path arguments reservations =>
    simp only [Action.perform] at hcall
    split at hcall <;> cases hcall <;> exact hfollows.elsewhere rfl rfl
  | spawn_program index stack fd_mappings fd_closes =>
    simp only [Action.perform] at hcall
    split at hcall
    · cases hcall
      exact hfollows
    · refine on_kernel_follows_snd (fun _ => ?_) hcall
      exact spawn_user_follows hfollows _ _ _ _ _ _ _ _ _
  | reap_terminated id =>
    exact on_kernel_follows_snd (fun _ => reap_terminated_follows hfollows AddressSpace.destroy id) hcall
  | wait_for_child child =>
    exact on_kernel_follows_snd (wait_for_child_follows hfollows AddressSpace.destroy child) hcall
  | allocate_frame =>
    simp only [Action.perform] at hcall
    split at hcall <;> cases hcall <;> exact hfollows.elsewhere rfl rfl
  | deallocate_frame index =>
    simp only [Action.perform] at hcall
    split at hcall
    · cases hcall
      exact hfollows
    · split at hcall <;> cases hcall <;> exact hfollows.elsewhere rfl rfl
  | _ => exact hscheduling trivial

theorem Machine.user_task_some :
    machine.user_task = some task ↔ machine.kernel.running = some task ∧ ∃ user, task.user = some user := by
  rw [Machine.user_task, Option.filter_eq_some_iff, Option.isSome_iff_exists]

/-- A task that enters a call: nobody else has its id. -/
theorem Kernel.Follows.enter (hfollows : kernel.Follows entered) (hrunning : kernel.running = some task) (rsp : Nat) :
    Kernel.Follows (Function.update entered task.id (some rsp)) { kernel with cpu.user_rsp := rsp } := by
  obtain ⟨slot, hslot, htask⟩ := Option.bind_eq_some_iff.mp hrunning
  have hinv := hfollows.parked.inv
  refine ⟨⟨hinv, fun id hid => ?_, fun other sibling user found hother hsibling hlive huser hentered => ?_⟩,
    fun found user hfound huser => ?_⟩
  · rw [Function.update_of_ne (Nat.ne_of_gt (Nat.lt_of_lt_of_le (hinv.task_fits htask).id_lt hid))]
    exact hfollows.parked.fresh id hid
  · have hne : sibling.id ≠ task.id := fun hsame =>
      hother (hinv.ids_inj slot other task sibling htask hsibling hsame.symm ▸ hslot)
    rw [Function.update_of_ne hne] at hentered
    exact hfollows.parked.saved other sibling user found hother hsibling hlive huser hentered
  · obtain rfl : task = found := Option.mem_unique hrunning hfound
    refine ⟨fun value hvalue => ?_, (hfollows.running task user hrunning huser).2⟩
    rw [Function.update_self] at hvalue
    exact Option.some.inj hvalue

/-- A task that returns from a call is in none. -/
theorem Kernel.Follows.return (hfollows : kernel.Follows entered) (id : TaskId) :
    kernel.Follows (Function.update entered id none) := by
  have hstill : ∀ {found rsp}, Function.update entered id none found = some rsp → entered found = some rsp := by
    intro found rsp hentered
    rw [Function.update_apply] at hentered
    split at hentered
    · cases hentered
    · exact hentered
  refine ⟨⟨hfollows.parked.inv, fun found hfound => ?_, fun slot task user rsp hother htask hlive huser hentered =>
    hfollows.parked.saved slot task user rsp hother htask hlive huser (hstill hentered)⟩,
    fun task user hrunning huser => ?_⟩
  · rw [Function.update_apply]
    split
    · rfl
    · exact hfollows.parked.fresh found hfound
  · obtain ⟨hrsp, hstack⟩ := hfollows.running task user hrunning huser
    exact ⟨fun rsp hentered => hrsp rsp (hstill hentered), hstack⟩

theorem Step.take_inv (step : Step) (hinv : execution.Inv boot)
    (hboot : boot.unvisited.Nodup) (htake : step.take execution = some after) : after.Inv boot := by
  have horderly := hinv.machine.sound.orderly
  have hact : ∀ action : Action, (action.is_preemption = true →
      (execution.machine.user_task.bind fun task => execution.entered task.id) = none) →
      ((action.perform execution.machine).map fun machine => { execution with machine }) = some after →
      after.Inv boot := by
    intro action hpreempts hafter
    obtain ⟨machine, hmachine, rfl⟩ := Option.map_eq_some_iff.mp hafter
    refine ⟨action.perform_inv hinv.machine hboot hmachine,
      action.perform_follows horderly hinv.follows (fun hpreemption task user hrunning huser => ?_) hmachine⟩
    have houtside := hpreempts hpreemption
    rwa [Machine.user_task_some.mpr ⟨hrunning, user, huser⟩] at houtside
  cases step with
  | syscall_entry rsp =>
    simp only [Step.take] at htake
    cases htask : execution.machine.user_task with
    | none =>
      simp only [htask] at htake
      cases htake
      exact hinv
    | some task =>
      simp only [htask] at htake
      split at htake
      · cases htake
        exact hinv
      · cases htake
        have hsteady : execution.machine.kernel.Steady { execution.machine.kernel with cpu.user_rsp := rsp } :=
          ⟨⟨horderly, hinv.machine.sound.active⟩, rfl, rfl, rfl⟩
        exact ⟨hinv.machine.steady hsteady, hinv.follows.enter (Machine.user_task_some.mp htask).1 rsp⟩
  | syscall_return rcx =>
    simp only [Step.take] at htake
    cases htask : execution.machine.user_task with
    | none =>
      simp only [htask] at htake
      cases htake
      exact hinv
    | some task =>
      simp only [htask] at htake
      split at htake
      · cases htake
        exact hinv
      · split at htake
        · cases htake
          exact ⟨hinv.machine, hinv.follows.return task.id⟩
        · exact hact (.exit_current none false) nofun htake
  | act action =>
    simp only [Step.take] at htake
    split at htake
    · cases htake
      exact hinv
    · rename_i hallowed
      refine hact action (fun hpreemption => ?_) htake
      exact Option.not_isSome_iff_eq_none.mp fun hinside => hallowed ⟨hpreemption, hinside⟩

theorem take_all_inv (steps : List Step) (hinv : execution.Inv boot)
    (hboot : boot.unvisited.Nodup) (hrun : take_all steps execution = some after) : after.Inv boot := by
  induction steps generalizing execution with
  | nil =>
    obtain rfl := Option.some.inj hrun
    exact hinv
  | cons step rest ih =>
    obtain ⟨middle, hstep, hrest⟩ := Option.bind_eq_some_iff.mp hrun
    exact ih (step.take_inv hinv hboot hstep) hrest

end Steps

theorem Machine.booted_follows (memory : MemoryManager) (objects : Objects) (user_rsp kernel_rsp : Nat)
    (kernel_root : PhysFrame) :
    (Machine.booted memory objects user_rsp kernel_rsp kernel_root).kernel.Follows fun _ => none :=
  ⟨⟨Scheduler.inv_new, fun _ _ => rfl, fun _ _ _ _ _ htask => by cases htask⟩, fun _ _ hrunning => by cases hrunning⟩

/-- The processor follows the running task. In every state that system calls, task switches,
terminations, reaps and the kernel's other actions lead to: the active root is that of the
running task, or the kernel's if it is a kernel task; a user task that is about to return
from a system call finds the stack pointer with which it entered it, and its own kernel
stack; and a reap never destroys the active address space. -/
theorem processor_follows_running_task (bits : Option UInt8) (memory : Nat → UInt8) (boot_info : BootInfo)
    (boot_info_address : UInt64) (physical_limit : Nat) (frame_allocator : BootInfoFrameAllocator)
    (mapper : Mapper) (physical_memory_offset : Nat) (kernel_user_slot_unused : Bool)
    (page_tables : PhysFrame → UserTables) (objects : Objects) (user_rsp kernel_rsp : Nat) (steps : List Step)
    (execution : Execution)
    (hlimit : physical_address_limit bits = .ok physical_limit)
    (hnew : BootInfoFrameAllocator.new memory boot_info boot_info_address physical_limit = .ok frame_allocator)
    (hrun : take_all steps ⟨Machine.booted ⟨mapper, frame_allocator, physical_memory_offset, kernel_user_slot_unused,
      page_tables⟩ objects user_rsp kernel_rsp boot_info.page_table_root.toNat, fun _ => none⟩ = some execution) :
    let kernel := execution.machine.kernel
    (∀ task, kernel.running = some task →
      (∀ user, task.user = some user → user.address_space.root = some kernel.cpu.cr3) ∧
      (task.user = none → kernel.cpu.cr3 = kernel.kernel_root)) ∧
    (∀ task rsp, execution.machine.user_task = some task → execution.entered task.id = some rsp →
      kernel.cpu.user_rsp = rsp ∧ task.kernel_stack = some kernel.cpu.kernel_rsp) ∧
    ∀ id slot task user, kernel.global_scheduler.position_of id = some slot →
      kernel.global_scheduler.tasks slot = some task → task.state = .Terminated →
      kernel.global_scheduler.current ≠ some slot → task.user = some user →
      user.address_space.root ≠ some kernel.cpu.cr3 := by
  intro kernel
  obtain ⟨hboot, hstart⟩ := Machine.booted_inv ⟨mapper, frame_allocator, physical_memory_offset,
    kernel_user_slot_unused, page_tables⟩ objects user_rsp kernel_rsp hlimit hnew
  have hinv : execution.Inv frame_allocator := take_all_inv steps ⟨hstart, Machine.booted_follows ..⟩ hboot hrun
  have hactive : active_root kernel = some kernel.cpu.cr3 := hinv.machine.sound.active
  refine ⟨fun task hrunning => ?_, fun task rsp hrunning hentered => ?_, ?_⟩
  · obtain ⟨slot, hslot, htask⟩ := Option.bind_eq_some_iff.mp hrunning
    simp only [active_root, hslot, Option.bind_some, Scheduler.space_of, htask] at hactive
    refine ⟨fun user huser => ?_, fun huser => ?_⟩
    · rwa [huser] at hactive
    · rw [huser] at hactive
      exact (Option.some.inj hactive).symm
  · obtain ⟨hrunning, user, huser⟩ := Machine.user_task_some.mp hrunning
    obtain ⟨hrsp, hstack⟩ := hinv.follows.running task user hrunning huser
    exact ⟨hrsp rsp hentered, hstack⟩
  · intro id slot task user _ htask _ hcurrent huser hroot
    have hspace : kernel.global_scheduler.space_of slot = some user.address_space := by
      simp [Scheduler.space_of, htask, huser]
    exact hinv.machine.inactive hboot hspace hroot hcurrent rfl

/-- Two programs are loaded and run. The first enters a system call and yields; the second
enters one and sleeps, which gives the processor back to the first; the timer does not
interrupt its call. -/
def two_callers : List Step :=
  [.act (.load [0x90] [] 0 0 [112] [] .granted), .act (.load [0x90] [] 0 0 [112] [] .granted),
    .act (.spawn_program 0 (.ok (.empty, 0x8000)) [] []), .act (.spawn_program 0 (.ok (.empty, 0x9000)) [] []),
    .act (.run_tasks 0 (.ok (.empty, 0xa000))), .syscall_entry 0x1230, .act .yield_now, .syscall_entry 0x4560,
    .act (.sleep_ticks 0 5), .act (.preempt_from_timer 1)]

/-- The first program's stack pointer and kernel stack are back. -/
theorem processor_follows_running_task_sample :
    ∃ execution, take_all two_callers ⟨sample_machine, fun _ => none⟩ = some execution ∧
      execution.machine.kernel.cpu.user_rsp = 0x1230 ∧ execution.machine.kernel.cpu.kernel_rsp = 0x8000 := by
  have hrun : ((take_all two_callers ⟨sample_machine, fun _ => none⟩).map fun execution =>
      execution.machine.user_task.map fun task => (execution.entered task.id, task.kernel_stack)) =
      some (some (some 0x1230, some 0x8000)) := by decide +kernel
  obtain ⟨execution, hexecution, htask⟩ := Option.map_eq_some_iff.mp hrun
  obtain ⟨task, htask, hfields⟩ := Option.map_eq_some_iff.mp htask
  simp only [Prod.mk.injEq] at hfields
  obtain ⟨hentered, hstack⟩ := hfields
  obtain ⟨_, hreturn, _⟩ := processor_follows_running_task (some 32) sample_memory sample_boot_info 0x103000
    (2 ^ 32) sample_allocator offset_page_table 0 true (fun _ => .new) ⟨[], [], [], .empty⟩ 0 0 two_callers
    execution rfl sample_new hexecution
  obtain ⟨hrsp, hown⟩ := hreturn task 0x1230 htask hentered
  exact ⟨execution, hexecution, hrsp, Option.mem_unique hown hstack⟩

end leafos.tasking.scheduler
