import LeafOS.Tasking.KernelChanges

namespace leafos.tasking.scheduler

open leafos.memory leafos.tasking.fd leafos.arch.syscall Prog

variable {M : Type}

/-- If the reap succeeds, the descriptors it drops are not the ends that somebody waits for. -/
def Kernel.SparesReap (kernel : Kernel M) (destroy : Destroy M) (id : TaskId) : Prop :=
  (reap_terminated destroy id kernel).1 = .ok () → ∀ slot task,
    kernel.global_scheduler.position_of id = some slot → kernel.global_scheduler.tasks slot = some task →
    kernel.Spares kernel.objects (ends task.fds)

/-- The same for the child that a wait would reap now. -/
def Kernel.SparesWait (kernel : Kernel M) (destroy : Destroy M) (child : Option TaskId) : Prop :=
  ∀ task id, kernel.running = some task →
    (Scheduler.terminated_child task.id child kernel.global_scheduler).1 = .ok id →
    kernel.SparesReap destroy id

/-- The event drops no end of a pipe that somebody waits for without waking anybody. Only
`sys_dup2`, which closes the descriptor it replaces, and a reap can do so. -/
def Event.Careful (event : Event M) (kernel : Kernel M) : Prop :=
  match event with
  | .dup2 rdi rsi => rdi ≠ rsi → ∀ task source, kernel.running = some task → task._stack = none →
    descriptor_at task.fds rdi = some source →
      kernel.Spares (source.clone kernel.objects) (tally (descriptor_at task.fds rsi))
  | .reap_terminated destroy id => kernel.SparesReap destroy id
  | .wait destroy rdi _ _ => kernel.SparesWait destroy (if rdi = 0 then none else some rdi)
  | .re_enter destroy _ _ => ∀ task child, kernel.running = some task →
    task._stack = some (.wait_for_child child) →
      ((return_from_switch : KernelM M Unit) kernel).2.SparesWait destroy child
  | _ => True

/-- Every event of a run is careful in the state it happens in. -/
def AllCareful : List (Event M) → Kernel M → Prop
  | [], _ => True
  | event :: rest, kernel => event.Careful kernel ∧ AllCareful rest (event.perform kernel).2

section Reaping

variable {kernel : Kernel M} {destroy : Destroy M} (hinv : kernel.NoLostWakeUp)
include hinv

theorem reap_terminated_alert {id : TaskId}
    (hspares : kernel.SparesReap destroy id) : (reap_terminated destroy id kernel).2.NoLostWakeUp := by
  obtain ⟨error, heq⟩ | ⟨slot, task, hslot, htask, hstate, ⟨memory, heq⟩ | ⟨outcome, user, space, memory, _, heq⟩⟩ :=
    reap_terminated_effect destroy id kernel
  · rw [heq]
    exact hinv
  · have hunchanged : ∀ pipe : Nat, kernel.objects.pipes[pipe]? =
        kernel.objects.pipes[pipe]?.map fun state => state.gain 0 0 := fun pipe => by simp
    rw [heq]
    exact hinv.drop (.put (by simp)) hunchanged (drop_table_pipes task.fds _)
      (hspares (by rw [heq]) slot task hslot htask)
  · rw [heq]
    refine hinv.same_pipes (.put fun torn htorn hblocked => ?_) rfl
    obtain rfl := Option.some.inj htorn
    cases hblocked.symm.trans hstate

/-- Blocking in a wait concerns no pipe. If nobody else can run, the caller is blocked
outside every call. -/
theorem block_in_wait_alert {current : Slot} (hcurrent : kernel.global_scheduler.current = some current)
    (hstack : ∀ task, kernel.running = some task → task._stack = none) (child : Option TaskId) :
    (block_in_wait current child kernel).2.NoLostWakeUp := by
  have hsaved := save_current_user_rsp_alert current kernel hinv
  rw [save_current_user_rsp_apply] at hsaved
  simp only [block_in_wait, bind_apply, save_current_user_rsp_apply, locked_apply]
  obtain ⟨error, _, heq⟩ | ⟨slot, task, hslot, htask, hnext, houtcome⟩ := (kernel.saved current).transition_current_blocks
  · simp only [heq]
    exact hsaved
  · obtain rfl : current = slot := Option.mem_unique hcurrent hslot
    obtain ⟨earlier, hrunning, rfl⟩ := kernel.saved_running hcurrent htask
    generalize Scheduler.transition_current .Blocked (kernel.saved current) = result at hnext houtcome
    obtain ⟨outcome, next⟩ := result
    obtain ⟨id, rfl⟩ | rfl := houtcome
    · simp only [modify_apply]
      exact activate_selected_alert _ (hsaved.blocked_in htask hnext trivial)
    · refine hsaved.same_pipes (Scheduler.NoNewSleeper.trans (.put fun blocked hblocked _ => ?_)
        hnext.noNewSleeper) rfl
      obtain rfl := Option.some.inj hblocked
      exact hstack earlier hrunning

theorem wait_turn_alert (hstack : ∀ task, kernel.running = some task → task._stack = none)
    {child : Option TaskId} (hspares : kernel.SparesWait destroy child) (copied : Bool) :
    (wait_turn destroy child copied kernel).2.NoLostWakeUp := by
  have hwaited : (wait_for_child destroy child kernel).2.NoLostWakeUp := by
    obtain heq | ⟨current, task, hcurrent, htask, ⟨id, hid, heq⟩ | ⟨_, heq, _⟩⟩ :=
      wait_for_child_effect destroy child kernel
    · rw [heq]
      exact hinv
    · rw [heq]
      exact reap_terminated_alert hinv (hspares task id (by simp [Kernel.running, hcurrent, htask]) hid)
    · rw [heq]
      exact block_in_wait_alert hinv hcurrent hstack child
  simp only [wait_turn, bind_apply, attempt]
  generalize wait_for_child destroy child kernel = result at hwaited
  rcases result with ⟨(_ | _) | error | _, after⟩
  · exact hwaited
  · exact hwaited
  · cases error <;> exact hwaited
  · exact hwaited

end Reaping

section Runs

variable {kernel : Kernel M}

section Losing

variable (hinv : kernel.NoLostWakeUp)
include hinv

theorem return_from_switch_alert :
    ((return_from_switch : KernelM M Unit) kernel).2.NoLostWakeUp ∧
      ∀ task, ((return_from_switch : KernelM M Unit) kernel).2.running = some task → task._stack = none := by
  simp only [return_from_switch, modify_apply]
  cases hcurrent : kernel.global_scheduler.current with
  | none => exact ⟨hinv, fun task hrunning => by simp [Kernel.running, hcurrent] at hrunning⟩
  | some current =>
    have hempty : ∀ task, (kernel.global_scheduler.tasks current).map
        (fun task => { task with _stack := none }) = some task → task._stack = none := by
      intro task htask
      obtain ⟨earlier, _, rfl⟩ := Option.map_eq_some_iff.mp htask
      rfl
    refine ⟨hinv.same_pipes (.put fun task htask _ => hempty task htask) rfl, fun task hrunning => ?_⟩
    simp only [Kernel.running, Scheduler.modify_task, Scheduler.put, hcurrent, Option.bind_some,
      Function.update_self] at hrunning
    exact hempty task hrunning

/-- The turn that a task takes when it is selected again inside a call. -/
theorem next_turn_alert (call : BlockedCall) {destroy : Destroy M} (stored copied : Bool)
    (hspares : ∀ child, call = .wait_for_child child →
      ((return_from_switch : KernelM M Unit) kernel).2.SparesWait destroy child) :
    (next_turn call destroy stored copied kernel).2.NoLostWakeUp := by
  obtain ⟨hreturned, hstack⟩ := return_from_switch_alert hinv
  simp only [next_turn, bind_apply]
  generalize hreturn : (return_from_switch : KernelM M Unit) kernel = result at hreturned hstack hspares
  obtain ⟨outcome, after⟩ := result
  obtain rfl : outcome = .ok () := (congrArg Prod.fst hreturn).symm
  cases call with
  | fd_read fd length => exact fd_read_turn_alert fd length copied after hreturned
  | fd_write fd input => exact fd_write_turn_alert fd input stored after hreturned
  | wait_for_child child => exact wait_turn_alert hreturned hstack (hspares child rfl) copied

theorem by_caller_alert {α : Type} {call : KernelM M α} (hcall : (call kernel).2.NoLostWakeUp) :
    (by_caller call kernel).2.NoLostWakeUp := by
  simp only [by_caller, bind_apply, get_apply]
  split
  · exact hinv
  · rw [discard_snd]
    exact hcall

/-- A careful event loses no wake-up. -/
theorem Event.perform_alert (event : Event M) (htable : kernel.global_scheduler.Inv kernel.global_scheduler)
    (hcareful : event.Careful kernel) : (event.perform kernel).2.NoLostWakeUp := by
  simp only [perform, bind_apply, get_apply]
  cases hpending : kernel.running.bind Task._stack with
  | some call =>
    obtain ⟨task, hrunning, hstack⟩ := Option.bind_eq_some_iff.mp hpending
    cases event with
    | re_enter destroy stored copied =>
      simp only [discard_snd]
      refine next_turn_alert hinv call stored copied fun child hcall => ?_
      exact hcareful task child hrunning (hstack.trans (congrArg some hcall))
    | _ => exact hinv
  | none =>
    have hstack : ∀ task, kernel.running = some task → task._stack = none := by
      intro task hrunning
      rw [hrunning, Option.bind_some] at hpending
      exact hpending
    have hoperation := fun operation : Operation M =>
      fun (hallowed : operation.Allowed kernel.global_scheduler) hschedules =>
        alert_discipline.selects operation hallowed hschedules ⟨htable, hinv⟩
    cases event with
    | fd_read rdi rdx valid copied =>
      exact by_caller_alert hinv (sys_fd_read_alert rdi rdx valid copied kernel hinv)
    | fd_write rdi input valid stored =>
      exact by_caller_alert hinv (sys_fd_write_alert rdi input valid stored kernel hinv)
    | pipe valid => exact by_caller_alert hinv (sys_pipe_alert hinv hstack valid)
    | close rdi => exact by_caller_alert hinv (sys_close_alert rdi kernel hinv)
    | dup2 rdi rsi =>
      refine by_caller_alert hinv (sys_dup2_alert hinv hstack rdi rsi fun hne task source hrunning hsource => ?_)
      exact hcareful hne task source hrunning (hstack task hrunning) hsource
    | wait destroy rdi valid copied =>
      refine by_caller_alert hinv ?_
      unfold sys_wait
      split
      · exact hinv
      · exact wait_turn_alert hinv hstack hcareful copied
    | yield =>
      have hyielded := (alert_discipline.yield_now.snd ⟨htable, hinv⟩).2
      refine by_caller_alert hinv ?_
      simp only [sys_yield, bind_apply, attempt]
      generalize yield_now kernel = result at hyielded ⊢
      rcases result with ⟨_ | error | _, after⟩
      · exact hyielded
      · cases error <;> exact hyielded
      · exact hyielded
    | sleep now ticks =>
      have hslept := ((alert_discipline.sleep_ticks now ticks).snd ⟨htable, hinv⟩).2
      refine by_caller_alert hinv ?_
      unfold sys_sleep
      split
      · exact hinv
      · simp only [bind_apply, attempt]
        generalize sleep_ticks now ticks kernel = result at hslept ⊢
        rcases result with ⟨_ | _ | _, after⟩ <;> exact hslept
    | exit exit_code terminate_group =>
      exact by_caller_alert hinv ((alert_discipline.exit_current exit_code terminate_group).snd ⟨htable, hinv⟩).2
    | re_enter destroy stored copied => exact hinv
    | spawn_user destroy address_space entry stack argument_count argument_vector kernel_stack fd_mappings
        fd_closes =>
      exact Maintains.discard (spawn_user_alert destroy address_space entry stack argument_count argument_vector
        kernel_stack fd_mappings fd_closes) kernel hinv
    | spawn entry stack =>
      simp only [begin, discard_snd]
      exact ((alert_discipline.spawn entry stack).snd ⟨htable, hinv⟩).2
    | terminate_task id exit_code => exact (hoperation (.terminate_task id exit_code) trivial trivial).2
    | reap_terminated destroy id => exact reap_terminated_alert hinv hcareful
    | wake_task id => exact (hoperation (.wake id) trivial trivial).2
    | wake_all_blocked_tasks => exact wake_all_blocked_alert kernel
    | preempt_from_timer now =>
      exact ((alert_discipline.preempt_from_timer now).snd ⟨⟨htable, hinv⟩, htable, hinv⟩).2
    | run_tasks idle_entry stack =>
      exact ((alert_discipline.run_tasks idle_entry stack).snd ⟨htable, hinv⟩).2
    | leave_run_tasks => exact (hoperation .remove_idle trivial trivial).2
    | idle_task_entry now =>
      refine ((alert_discipline.idle_task_entry now (fun _ => id) fun kernel after halert heq _ => ?_).snd
        ⟨htable, hinv⟩).2
      have hafter := alert_discipline.selects (.idle_to_bootstrap now) trivial trivial halert
      rwa [Operation.execute, locked_apply, heq] at hafter

theorem interleave_alert (events : List (Event M)) (htable : kernel.global_scheduler.Inv kernel.global_scheduler)
    (hcareful : AllCareful events kernel) : (interleave events kernel).NoLostWakeUp := by
  induction events generalizing kernel with
  | nil => exact hinv
  | cons event rest ih =>
    obtain ⟨hevent, hrest⟩ := hcareful
    have hafter := event.perform_alert hinv htable hevent
    have hkept : (event.perform kernel).2.global_scheduler.Inv (event.perform kernel).2.global_scheduler :=
      Kernel.Changes.keeps (P := fun kernel => kernel.global_scheduler.Inv kernel.global_scheduler)
        (event.perform_changes kernel) (fun hchange hbefore => (hchange.inv hbefore).restart) htable
    simp only [interleave]
    generalize event.perform kernel = result at hafter hrest hkept
    rcases result with ⟨_ | _ | _, after⟩
    · exact ih hafter hkept hrest
    · exact ih hafter hkept hrest
    · exact hafter

end Losing

/-- In every interleaving in which no `sys_dup2` and no reap drops the last end of a pipe
that a task on the other side waits for, no wake-up is lost: who is blocked reading a
pipe finds it empty and with a writer, and who is blocked writing one finds it full
and with a reader. -/
theorem no_lost_wake_up (events : List (Event M)) (objects : Objects) (memory : M) (cpu : Cpu)
    (kernel_root : PhysFrame) (hcareful : AllCareful events (.fresh objects memory cpu kernel_root)) :
    (interleave events (.fresh objects memory cpu kernel_root)).NoLostWakeUp := by
  refine interleave_alert (fun pipe => ⟨?_, ?_⟩) events Scheduler.inv_new hcareful
  all_goals
    rintro ⟨slot, task, htask, _⟩
    cases htask

/-- A spawn of a minimal program, with no descriptor moved or closed. -/
def sample_spawn : Event Unit :=
  .spawn_user (fun _ => pure ())
    ⟨some 1, [(USER_SPACE_START / PAGE_SIZE, .ReadExecute), (USER_SPACE_START / PAGE_SIZE + 1, .ReadWrite)]⟩
    USER_SPACE_START (USER_SPACE_START + 2 * PAGE_SIZE - 16) 0 0 (.ok (.empty, 0)) [] []

/-- A task makes a pipe, spawns a child that inherits both ends, closes its own write end
and blocks reading. -/
def parent_blocks : List (Event Unit) :=
  [sample_spawn, .run_tasks 0 (.ok (.empty, 0)), .pipe true, sample_spawn, .close 4, .fd_read 3 1 true true]

def sample_kernel : Kernel Unit := .fresh ⟨[], [], [], .empty⟩ () ⟨0, 0, 0⟩ 0

theorem reader_blocked_of_state {kernel : Kernel Unit} (hstate : ((kernel.global_scheduler.tasks 0).map fun task =>
      (task.state, task._stack, descriptor_at task.fds 3)) =
      some (.Blocked, some (.fd_read 3 1), some (.PipeRead 0))) : kernel.ReaderBlocked 0 := by
  obtain ⟨task, htask, hfields⟩ := Option.map_eq_some_iff.mp hstate
  simp only [Prod.mk.injEq] at hfields
  exact ⟨0, task, htask, hfields.1, 3, 1, hfields.2⟩

/-- The parent waits for the child's write end. -/
theorem no_lost_wake_up_sample :
    (interleave parent_blocks sample_kernel).ReaderBlocked 0 ∧
      (interleave parent_blocks sample_kernel).objects.HoldsReaders 0 := by
  have hreader : (interleave parent_blocks sample_kernel).ReaderBlocked 0 :=
    reader_blocked_of_state (by decide +kernel)
  have hcareful : AllCareful parent_blocks sample_kernel := by
    simp [parent_blocks, sample_spawn, AllCareful, Event.Careful]
  exact ⟨hreader, (no_lost_wake_up parent_blocks _ () _ 0 hcareful 0).1 hreader⟩

/-- The child replaces its write end, the last one, by another descriptor. The parent
sleeps on, although its read would now report the end of the data. -/
theorem dup2_loses_wake_up :
    let kernel := interleave (parent_blocks ++ [.dup2 0 4]) sample_kernel
    kernel.ReaderBlocked 0 ∧ kernel.objects.pipes.map Pipe.writers = [0] ∧ ¬kernel.NoLostWakeUp := by
  intro kernel
  have hreader : kernel.ReaderBlocked 0 := reader_blocked_of_state (by decide +kernel)
  have hwriters : kernel.objects.pipes.map Pipe.writers = [0] := by decide +kernel
  refine ⟨hreader, hwriters, fun hinv => ?_⟩
  obtain ⟨state, hpipe, _, hnonzero⟩ := (hinv 0).1 hreader
  have hcount := congrArg (fun writers => writers[0]?) hwriters
  rw [List.getElem?_map, hpipe] at hcount
  exact hnonzero (Option.some.inj hcount)

end Runs

end leafos.tasking.scheduler
