import LeafOS.Tasking.PipeCalls

namespace leafos.tasking.scheduler

open leafos.memory leafos.tasking.fd leafos.arch.syscall Prog Relation
open Scheduler (modify_task put_tasks terminated_child transition_current)

variable {M : Type} {slot current : Slot} {after : Kernel M} (rdi : Nat) (event : Event M)

/-- One change to the kernel. Every system call and interrupt is a sequence of these. -/
inductive Kernel.Change : Kernel M → Kernel M → Prop
  /-- An operation of the scheduler. -/
  | operation (kernel : Kernel M) (operation : Operation M)
      (hallowed : operation.Allowed kernel.global_scheduler) : Change kernel (operation.execute kernel).2
  /-- A change outside the task table. -/
  | elsewhere (kernel : Kernel M) (objects : Objects) (memory : M) (cpu : Cpu) :
      Change kernel { kernel with objects, memory, cpu }
  /-- A change to what the running task holds. -/
  | serve (kernel : Kernel M) {slot : Slot} {task : Task} (user : Option UserTask) (fds : FdTable)
      (_stack : Option BlockedCall) (hcurrent : kernel.global_scheduler.current = some slot)
      (htask : kernel.global_scheduler.tasks slot = some task)
      (huser : user.map UserTask.address_space = task.user.map UserTask.address_space) :
      Change kernel { kernel with
        global_scheduler := kernel.global_scheduler.put slot (some { task with user, fds, _stack }) }
  /-- The running task blocks inside a call. It waits for its children only while they run. -/
  | block (kernel : Kernel M) {slot : Slot} {task : Task} (call : BlockedCall)
      (hcurrent : kernel.global_scheduler.current = some slot)
      (htask : kernel.global_scheduler.tasks slot = some task)
      (hgranted : ∀ error, (transition_current .Blocked (kernel.saved slot)).1 = .err error →
        error = .NoRunnableTasks)
      (hwaits : ∀ child, call = .wait_for_child child →
        (terminated_child task.id child kernel.global_scheduler).1 = .err .ChildRunning) :
      Change kernel { kernel with
        global_scheduler := (transition_current .Blocked (kernel.saved slot)).2.modify_task slot
          fun task => { task with _stack := some call } }
  /-- The caller of `wait_for_child` finds nobody to give the processor to. -/
  | stuck (kernel : Kernel M) {slot : Slot} (hcurrent : kernel.global_scheduler.current = some slot)
      (hnobody : (transition_current .Blocked (kernel.saved slot)).1 = .err .NoRunnableTasks) :
      Change kernel { kernel with
        global_scheduler := (transition_current .Blocked (kernel.saved slot)).2 }

abbrev Kernel.Changes : Kernel M → Kernel M → Prop := ReflTransGen Kernel.Change

section Pieces

variable {kernel : Kernel M}

theorem elsewhere_changes (kernel : Kernel M) (objects : Objects) (memory : M) (cpu : Cpu) :
    kernel.Changes { kernel with objects, memory, cpu } := .single (.elsewhere kernel objects memory cpu)

theorem activate_selected_changes : Within Kernel.Change (activate_selected : KernelM M Unit) := by
  intro kernel
  obtain ⟨cpu, heq⟩ := activate_selected_snd kernel
  rw [heq]
  exact elsewhere_changes kernel kernel.objects kernel.memory cpu

/-- An operation that the entry points may use in every state. -/
theorem operation_changes (operation : Operation M) (hallowed : ∀ self, operation.Allowed self) :
    Within Kernel.Change operation.execute :=
  fun kernel => .single (.operation kernel operation (hallowed _))

variable (hcurrent : kernel.global_scheduler.current = some slot)
include hcurrent

/-- A change to what the task in a slot holds, if it is the running one. -/
theorem serve_changes {update : Task → Task}
    (hupdate : ∀ task, ∃ user fds _stack, update task = { task with user, fds, _stack } ∧
      user.map UserTask.address_space = task.user.map UserTask.address_space) :
    kernel.Changes { kernel with global_scheduler := kernel.global_scheduler.modify_task slot update } := by
  unfold modify_task
  cases htask : kernel.global_scheduler.tasks slot with
  | none =>
    have hsame : kernel.global_scheduler.put slot none = kernel.global_scheduler := by
      simp [Scheduler.put, ← htask]
    rw [Option.map_none, hsame]
  | some task =>
    obtain ⟨user, fds, stack, heq, huser⟩ := hupdate task
    rw [Option.map_some, heq]
    exact .single (.serve kernel user fds stack hcurrent htask huser)

theorem save_current_user_rsp_changes : kernel.Changes (save_current_user_rsp slot kernel).2 := by
  refine serve_changes hcurrent fun task => ⟨_, task.fds, task._stack, rfl, ?_⟩
  cases task.user <;> rfl

theorem put_table_changes (fds : FdTable) :
    kernel.Changes (put_table slot fds kernel : Outcome SchedulerError Unit × Kernel M).2 :=
  serve_changes hcurrent fun task => ⟨task.user, fds, task._stack, rfl, rfl⟩

end Pieces

section Calls

variable {kernel : Kernel M} {call : BlockedCall} (destroy : Destroy M) (fd_number : Nat) (child : Option TaskId)

/-- Every call is a sequence of changes. -/
theorem changes_discipline (start : Kernel M) : Discipline start.Changes start.Changes start.Changes := by
  refine .of_invariant ?_ ?_ ?_
  · exact fun hchanges hcurrent => hchanges.trans (save_current_user_rsp_changes hcurrent)
  · exact fun operation hallowed _ hchanges => hchanges.tail (.operation _ operation hallowed)
  · exact fun hchanges => hchanges.trans (activate_selected_changes _)

theorem yield_now_changes : Within Kernel.Change (yield_now : KernelM M Unit) :=
  .of_ends fun start => (changes_discipline start).yield_now

/-- A transition that is not refused finds the running task. -/
theorem transition_granted (hcurrent : kernel.global_scheduler.current = some slot) {next_state : TaskState}
    (hgranted : ∀ error, (transition_current next_state (kernel.saved slot)).1 = .err error →
      error = .NoRunnableTasks) : ∃ task, kernel.global_scheduler.tasks slot = some task := by
  obtain ⟨error, hne, heq⟩ | ⟨current, saved, hnow, htask, _⟩ :=
    Scheduler.transition_current_cases next_state (kernel.saved slot)
  · exact absurd (hgranted error (by rw [heq])) hne
  · obtain rfl : slot = current := Option.mem_unique hcurrent hnow
    have hsaved : (kernel.global_scheduler.tasks slot).isSome := by
      simpa [Kernel.saved, modify_task, Scheduler.put] using congrArg Option.isSome htask
    exact Option.isSome_iff_exists.mp hsaved

/-- Blocking inside a call other than `wait_for_child`. -/
theorem block_now_changes (hcall : ∀ child, call ≠ .wait_for_child child) :
    Within Kernel.Change (block_now call : KernelM M Unit) := by
  intro kernel
  simp only [block_now, bind_apply, get_apply]
  cases hcurrent : kernel.global_scheduler.current with
  | none => exact .refl
  | some current =>
    have hsaved := save_current_user_rsp_changes hcurrent
    rw [save_current_user_rsp_apply] at hsaved
    simp only [okOr_some, save_current_user_rsp_apply]
    have hcases := leave_processor_cases (transition_current .Blocked)
      { kernel with global_scheduler := kernel.saved current } (Scheduler.transition_current_cases .Blocked _).refused
    rcases hleave : leave_processor (transition_current .Blocked)
      { kernel with global_scheduler := kernel.saved current } with ⟨_ | error | _, left⟩
    · obtain ⟨rfl, hgranted⟩ := leave_processor_ok hleave
      obtain ⟨task, htask⟩ := transition_granted hcurrent hgranted
      simp only [modify_apply]
      exact .head (.block kernel call hcurrent htask hgranted fun child heq => absurd heq (hcall child))
        (activate_selected_changes _)
    · rw [hleave] at hcases
      obtain hfalse | ⟨_, hsame⟩ | hfalse := hcases
      · cases hfalse
      · cases hsame
        exact hsaved
      · cases hfalse
    · exact absurd (congrArg Prod.fst hleave)
        (leave_processor_ne_panic (Scheduler.transition_current_ne_panic .Blocked _))

theorem block_in_changes (hcall : ∀ child, call ≠ .wait_for_child child) :
    Within Kernel.Change (block_in call : KernelM M Reply) := by
  refine .bind (.attempt (block_now_changes hcall)) ?_
  rintro (error | _) <;> exact .pure _

theorem transfer_current_fd_changes {ε α : Type} (fd_number : Nat)
    (transfer : FileDescriptor → Objects → Except ε α × Objects) (convert : ε → SchedulerError) :
    Within Kernel.Change (transfer_current_fd fd_number transfer convert : KernelM M α) := by
  intro kernel
  obtain ⟨objects, heq⟩ := transfer_current_fd_objects fd_number transfer convert kernel
  rw [heq]
  exact elsewhere_changes kernel objects kernel.memory kernel.cpu

theorem wake_all_blocked_tasks_changes : Within Kernel.Change (wake_all_blocked_tasks : KernelM M Unit) :=
  operation_changes .wake_all_blocked fun _ => trivial

theorem fd_read_turn_changes (fd length : Nat) (copied : Bool) :
    Within Kernel.Change (fd_read_turn fd length copied : KernelM M Reply) := by
  refine .bind (.attempt (transfer_current_fd_changes fd _ _)) ?_
  rintro (error | bytes)
  · cases error
    case WouldBlock =>
      simp only
      split
      · exact .pure _
      · exact block_in_changes (by simp)
    all_goals exact .pure _
  · exact .bind wake_all_blocked_tasks_changes fun _ => .pure _

theorem fd_write_turn_changes (fd : Nat) (input : List UInt8) (stored : Bool) :
    Within Kernel.Change (fd_write_turn fd input stored : KernelM M Reply) := by
  refine .bind (.attempt (transfer_current_fd_changes fd _ _)) ?_
  rintro (error | count)
  · cases error
    case WouldBlock => exact block_in_changes (by simp)
    all_goals exact .pure _
  · exact .bind wake_all_blocked_tasks_changes fun _ => .pure _

theorem Kernel.Tabled.changes (htabled : kernel.Tabled after) : kernel.Changes after := by
  obtain ⟨objects, rfl | ⟨current, fds, hcurrent, rfl⟩⟩ := htabled
  · exact elsewhere_changes kernel objects kernel.memory kernel.cpu
  · have hstays : ({ kernel with objects } : Kernel M).global_scheduler.current = some current := hcurrent
    exact (elsewhere_changes kernel objects kernel.memory kernel.cpu).trans (put_table_changes hstays fds)

theorem create_pipe_for_current_changes : Within Kernel.Change (create_pipe_for_current : KernelM M (Nat × Nat)) :=
  fun kernel => (create_pipe_for_current_tabled kernel).changes

theorem close_current_fd_changes : Within Kernel.Change (close_current_fd fd_number : KernelM M Unit) := by
  intro kernel
  obtain ⟨_, heq⟩ | ⟨middle, htabled, heq⟩ := close_current_fd_tabled fd_number kernel
  · rw [heq]
  · rw [heq]
    exact htabled.changes.trans (operation_changes .wake_all_blocked (fun _ => trivial) middle)

theorem duplicate_current_fd_changes (source_fd target_fd : Nat) :
    Within Kernel.Change (duplicate_current_fd source_fd target_fd : KernelM M Unit) :=
  fun kernel => (duplicate_current_fd_tabled source_fd target_fd kernel).changes

theorem block_in_wait_changes {task : Task} {child : Option TaskId}
    (hcurrent : kernel.global_scheduler.current = some current)
    (htask : kernel.global_scheduler.tasks current = some task)
    (hwaits : (terminated_child task.id child kernel.global_scheduler).1 = .err .ChildRunning) :
    kernel.Changes (block_in_wait current child kernel).2 := by
  have hsaved := save_current_user_rsp_changes hcurrent
  rw [save_current_user_rsp_apply] at hsaved
  have hrefused := (Scheduler.transition_current_cases .Blocked (kernel.saved current)).refused
  have hpanic := Scheduler.transition_current_ne_panic .Blocked (kernel.saved current)
  have hblock := Kernel.Change.block kernel (.wait_for_child child) hcurrent htask
  have hstuck := Kernel.Change.stuck kernel hcurrent
  simp only [block_in_wait, bind_apply, save_current_user_rsp_apply, locked_apply]
  generalize transition_current .Blocked (kernel.saved current) = result at *
  rcases result with ⟨id | error | _, after⟩
  · simp only [modify_apply]
    refine .head (hblock (by rintro _ ⟨⟩) fun found hfound => ?_) (activate_selected_changes _)
    obtain rfl := BlockedCall.wait_for_child.inj hfound
    exact hwaits
  · by_cases hnobody : error = .NoRunnableTasks
    · subst hnobody
      exact .single (hstuck rfl)
    · obtain rfl : after = kernel.saved current := hrefused error hnobody rfl
      exact hsaved
  · exact absurd rfl hpanic

theorem wait_for_child_changes :
    Within Kernel.Change (wait_for_child destroy child : KernelM M (Option (TaskId × Option UInt64))) := by
  intro kernel
  obtain heq | ⟨current, task, hcurrent, htask, ⟨id, _, heq⟩ | ⟨hwaits, heq, _⟩⟩ :=
    wait_for_child_effect destroy child kernel
  · rw [heq]
  · rw [heq]
    exact operation_changes (.reap_terminated destroy id) (fun _ => trivial) kernel
  · rw [heq]
    exact block_in_wait_changes hcurrent htask hwaits

theorem wait_turn_changes (copied : Bool) :
    Within Kernel.Change (wait_turn destroy child copied : KernelM M Reply) := by
  refine .bind (.attempt (wait_for_child_changes destroy child)) ?_
  rintro (error | _ | ⟨id, code⟩)
  · cases error <;> exact .pure _
  · exact .pure _
  · exact .pure _

theorem spawn_user_changes (space : AddressSpace) (entry stack argument_count argument_vector : Nat)
    (kernel_stack : KernelStack) (fd_mappings : List FdMapping) (fd_closes : List Nat) :
    Within Kernel.Change (spawn_user_with_arguments_and_fds destroy space entry stack argument_count argument_vector
      kernel_stack fd_mappings fd_closes : KernelM M TaskId) := by
  intro kernel
  obtain ⟨hreserve, _, outcome, after, hcreate, heq⟩ | ⟨_, heq, _⟩ := spawn_user_apply destroy space entry stack
    argument_count argument_vector kernel_stack fd_mappings fd_closes kernel
  · have hcreated := Kernel.Change.operation kernel (.create_user_task (some space)
      kernel.global_scheduler.current_task kernel_stack fd_mappings fd_closes) ⟨hreserve, rfl⟩
    simp only [Operation.execute, zoom, discard_snd, hcreate] at hcreated
    rw [heq]
    exact .single hcreated
  · rw [heq]
    exact elsewhere_changes kernel kernel.objects _ kernel.cpu

end Calls

section Events

theorem sys_fd_read_changes (rdi rdx : Nat) (valid copied : Bool) :
    Within Kernel.Change (sys_fd_read rdi rdx valid copied : KernelM M Reply) := by
  unfold sys_fd_read
  repeat' split
  all_goals first | exact .pure _ | exact fd_read_turn_changes _ _ _

theorem sys_fd_write_changes (input : List UInt8) (valid stored : Bool) :
    Within Kernel.Change (sys_fd_write rdi input valid stored : KernelM M Reply) := by
  unfold sys_fd_write
  repeat' split
  all_goals first | exact .pure _ | exact fd_write_turn_changes _ _ _

theorem sys_pipe_changes (valid : Bool) : Within Kernel.Change (sys_pipe valid : KernelM M Reply) := by
  unfold sys_pipe
  split
  · exact .pure _
  · refine .bind (.attempt create_pipe_for_current_changes) ?_
    rintro (error | ⟨read_fd, write_fd⟩) <;> exact .pure _

theorem sys_close_changes : Within Kernel.Change (sys_close rdi : KernelM M Reply) := by
  unfold sys_close
  split
  · exact .pure _
  · refine .bind (.attempt (close_current_fd_changes rdi)) ?_
    rintro (error | _)
    · cases error <;> exact .pure _
    · exact .bind wake_all_blocked_tasks_changes fun _ => .pure _

theorem sys_dup2_changes (rdi rsi : Nat) : Within Kernel.Change (sys_dup2 rdi rsi : KernelM M Reply) := by
  unfold sys_dup2
  split
  · exact .pure _
  · refine .bind (.attempt (duplicate_current_fd_changes rdi rsi)) ?_
    rintro (error | _)
    · cases error <;> exact .pure _
    · exact .pure _

theorem sys_yield_changes : Within Kernel.Change (sys_yield : KernelM M Reply) := by
  refine .bind (.attempt yield_now_changes) ?_
  rintro (error | _)
  · cases error <;> exact .pure _
  · exact .pure _

theorem sys_sleep_changes (now ticks : UInt64) : Within Kernel.Change (sys_sleep now ticks : KernelM M Reply) := by
  unfold sys_sleep
  split
  · exact .pure _
  · refine .bind (.attempt (.of_ends fun start => (changes_discipline start).sleep_ticks now ticks)) ?_
    rintro (error | _) <;> exact .pure _

theorem sys_wait_changes (destroy : Destroy M) (rdi : Nat) (valid copied : Bool) :
    Within Kernel.Change (sys_wait destroy rdi valid copied : KernelM M Reply) := by
  unfold sys_wait
  split
  · exact .pure _
  · exact wait_turn_changes destroy _ copied

theorem by_caller_changes {α : Type} {call : KernelM M α} (hcall : Within Kernel.Change call) :
    Within Kernel.Change (by_caller call) := by
  refine .bind .get fun kernel => ?_
  split
  · exact .pure ()
  · exact .discard hcall

theorem return_from_switch_changes : Within Kernel.Change (return_from_switch : KernelM M Unit) := by
  intro kernel
  simp only [return_from_switch, modify_apply]
  cases hcurrent : kernel.global_scheduler.current with
  | none => exact .refl
  | some current => exact serve_changes hcurrent fun task => ⟨task.user, task.fds, none, rfl, rfl⟩

theorem next_turn_changes (call : BlockedCall) (destroy : Destroy M) (stored copied : Bool) :
    Within Kernel.Change (next_turn call destroy stored copied : KernelM M Reply) := by
  refine .bind return_from_switch_changes fun _ => ?_
  cases call with
  | fd_read fd length => exact fd_read_turn_changes fd length copied
  | fd_write fd input => exact fd_write_turn_changes fd input stored
  | wait_for_child child => exact wait_turn_changes destroy child copied

theorem Event.begin_changes : Within Kernel.Change event.begin := by
  cases event with
  | fd_read rdi rdx valid copied => exact by_caller_changes (sys_fd_read_changes rdi rdx valid copied)
  | fd_write rdi input valid stored => exact by_caller_changes (sys_fd_write_changes rdi input valid stored)
  | pipe valid => exact by_caller_changes (sys_pipe_changes valid)
  | close rdi => exact by_caller_changes (sys_close_changes rdi)
  | dup2 rdi rsi => exact by_caller_changes (sys_dup2_changes rdi rsi)
  | wait destroy rdi valid copied => exact by_caller_changes (sys_wait_changes destroy rdi valid copied)
  | yield => exact by_caller_changes sys_yield_changes
  | sleep now ticks => exact by_caller_changes (sys_sleep_changes now ticks)
  | exit exit_code terminate_group => exact by_caller_changes (.of_ends fun start =>
    (changes_discipline start).exit_current exit_code terminate_group)
  | re_enter destroy stored copied => exact .pure ()
  | spawn_user destroy address_space entry stack argument_count argument_vector kernel_stack fd_mappings fd_closes =>
    exact .discard (spawn_user_changes destroy address_space entry stack argument_count argument_vector kernel_stack
      fd_mappings fd_closes)
  | spawn entry stack => exact .discard (.of_ends fun start => (changes_discipline start).spawn entry stack)
  | terminate_task id exit_code => exact operation_changes (.terminate_task id exit_code) fun _ => trivial
  | reap_terminated destroy id => exact operation_changes (.reap_terminated destroy id) fun _ => trivial
  | wake_task id => exact operation_changes (.wake id) fun _ => trivial
  | wake_all_blocked_tasks => exact wake_all_blocked_tasks_changes
  | preempt_from_timer now =>
    exact .of_ends fun start => ((changes_discipline start).preempt_from_timer now).pre fun _ h => ⟨h, h⟩
  | run_tasks idle_entry stack => exact .of_ends fun start => (changes_discipline start).run_tasks idle_entry stack
  | leave_run_tasks => exact operation_changes .remove_idle fun _ => trivial
  | idle_task_entry now =>
    refine .of_ends fun start => (changes_discipline start).idle_task_entry now (fun _ => id) ?_
    intro kernel after hchanges heq _
    have hchange := Kernel.Change.operation kernel (.idle_to_bootstrap now) trivial
    rw [Operation.execute, locked_apply, heq] at hchange
    exact hchanges.tail hchange

theorem Event.perform_changes : Within Kernel.Change event.perform := by
  refine .bind .get fun kernel => ?_
  split
  · exact Event.begin_changes _
  · exact .discard (next_turn_changes _ _ _ _)
  · exact .pure ()

/-- What every change preserves holds after every interleaving. -/
theorem interleave_changes (events : List (Event M)) (kernel : Kernel M) :
    kernel.Changes (interleave events kernel) := by
  induction events generalizing kernel with
  | nil => exact .refl
  | cons event rest ih =>
    have hevent := event.perform_changes kernel
    rw [interleave]
    generalize event.perform kernel = result at hevent
    rcases result with ⟨_ | _ | _, after⟩
    · exact hevent.trans (ih after)
    · exact hevent.trans (ih after)
    · exact hevent

theorem Kernel.Changes.keeps {before : Kernel M} (hchanges : before.Changes after) {P : Kernel M → Prop}
    (hkeeps : ∀ {before after}, Kernel.Change before after → P before → P after) (hbefore : P before) : P after := by
  induction hchanges with
  | refl => exact hbefore
  | tail _ hchange ih => exact hkeeps hchange ih

end Events

section Step

variable {before : Kernel M} {past : Scheduler}

theorem Kernel.Change.inv (hchange : Kernel.Change before after) (hinv : before.global_scheduler.Inv past) :
    after.global_scheduler.Inv past := by
  cases hchange with
  | operation operation hallowed => exact operation.execute_inv hinv
  | elsewhere objects memory cpu => exact hinv
  | serve user fds _stack hcurrent htask huser => exact hinv.put htask (hinv.keeps htask)
  | @block slot task call hcurrent htask hgranted hwaits =>
    have hblocked := (Scheduler.transition_current_moves .Blocked (by decide) (by decide) _).inv
      (before.saved_inv hinv slot)
    exact hblocked.modify_task _ fun task htask => hblocked.keeps htask
  | stuck hcurrent hnobody =>
    exact (Scheduler.transition_current_moves .Blocked (by decide) (by decide) _).inv (before.saved_inv hinv _)

/-- Saving a stack pointer does not concern the other tasks. -/
theorem Kernel.saved_others (kernel : Kernel M) (hother : slot ≠ current) :
    (kernel.saved current).tasks slot = kernel.global_scheduler.tasks slot := Function.update_of_ne hother _ _

/-- What a change does to a task that is not running, which it never blocks. -/
theorem Kernel.Change.fate (hchange : Kernel.Change before after) (hinv : before.global_scheduler.Inv past)
    (hother : before.global_scheduler.current ≠ some slot) :
    ∃ clock leaves tables reaps, ¬ leaves .Blocked ∧
      Fate clock leaves tables reaps (before.global_scheduler.tasks slot) (after.global_scheduler.tasks slot) := by
  have hblocks : ∀ {current}, slot ≠ current → Option.Rel (Task.Turns none fun _ => False) (before.global_scheduler.tasks slot)
      ((transition_current .Blocked (before.saved current)).2.tasks slot) := fun {current} hne => by
    rw [← before.saved_others hne]
    exact Scheduler.transition_current_others .Blocked hother
  cases hchange with
  | operation operation hallowed =>
    exact ⟨operation.clock, operation.leaves, operation.tables, operation.reaps, hallowed.leaves,
      operation.execute_fate hinv slot⟩
  | elsewhere objects memory cpu => exact ⟨none, fun _ => False, fun _ => False, False, id, .same _⟩
  | serve user fds _stack hcurrent htask huser =>
    have hne : slot ≠ _ := fun hsame => hother (hsame ▸ hcurrent)
    refine ⟨none, fun _ => False, fun _ => False, False, id, ?_⟩
    rw [put_tasks, if_neg hne]
    exact .same _
  | @block current task call hcurrent htask hgranted hwaits =>
    have hne : slot ≠ current := fun hsame => hother (hsame ▸ hcurrent)
    refine ⟨none, fun _ => False, fun _ => False, False, id, .stays ?_⟩
    rw [modify_task, put_tasks, if_neg hne]
    exact hblocks hne
  | @stuck current hcurrent hnobody =>
    have hne : slot ≠ current := fun hsame => hother (hsame ▸ hcurrent)
    exact ⟨none, fun _ => False, fun _ => False, False, id, .stays (hblocks hne)⟩

end Step

end leafos.tasking.scheduler
