import LeafOS.Tasking.ActivationSteps
import LeafOS.Tasking.Interleaving
import LeafOS.Tasking.PipeEnds
import LeafOS.Tasking.Turns

namespace leafos.tasking.scheduler

open leafos.memory leafos.tasking.fd leafos.arch.syscall Prog

variable {M : Type}

/-- The task gave up the processor inside `sys_fd_read` on the pipe. -/
def Task.ReadsFrom (task : Task) (pipe : Nat) : Prop :=
  ∃ fd length, task._stack = some (.fd_read fd length) ∧ descriptor_at task.fds fd = some (.PipeRead pipe)

/-- The task gave up the processor inside `sys_fd_write` on the pipe. -/
def Task.WritesTo (task : Task) (pipe : Nat) : Prop :=
  ∃ fd input, task._stack = some (.fd_write fd input) ∧ descriptor_at task.fds fd = some (.PipeWrite pipe)

def Kernel.ReaderBlocked (kernel : Kernel M) (pipe : Nat) : Prop :=
  ∃ slot task, kernel.global_scheduler.tasks slot = some task ∧ task.state = .Blocked ∧ task.ReadsFrom pipe

def Kernel.WriterBlocked (kernel : Kernel M) (pipe : Nat) : Prop :=
  ∃ slot task, kernel.global_scheduler.tasks slot = some task ∧ task.state = .Blocked ∧ task.WritesTo pipe

/-- No task sleeps on a pipe although its call could make progress. -/
def Kernel.NoLostWakeUp (kernel : Kernel M) : Prop :=
  ∀ pipe, (kernel.ReaderBlocked pipe → kernel.objects.HoldsReaders pipe) ∧
    (kernel.WriterBlocked pipe → kernel.objects.HoldsWriters pipe)

/-- Whoever is blocked inside a call afterwards was blocked in it before. -/
def Scheduler.NoNewSleeper (before after : Scheduler) : Prop :=
  ∀ slot task, after.tasks slot = some task → task.state = .Blocked → task._stack = none ∨
    ∃ earlier, before.tasks slot = some earlier ∧ earlier.state = .Blocked ∧
      earlier._stack = task._stack ∧ earlier.fds = task.fds

section Rules

variable {before after kernel : Kernel M} {self : Scheduler} {slot : Slot} {first second : Scheduler}

theorem Scheduler.NoNewSleeper.refl (self : Scheduler) : self.NoNewSleeper self :=
  fun _ task htask hblocked => .inr ⟨task, htask, hblocked, rfl, rfl⟩

theorem Scheduler.NoNewSleeper.trans {third : Scheduler} (hfirst : first.NoNewSleeper second)
    (hsecond : second.NoNewSleeper third) : first.NoNewSleeper third := by
  intro slot task htask hblocked
  obtain hnone | ⟨middle, hmiddle, hstate, hstack, hfds⟩ := hsecond slot task htask hblocked
  · exact .inl hnone
  · obtain hnone | ⟨earlier, hearlier, hblocked, hstack', hfds'⟩ := hfirst slot middle hmiddle hstate
    · exact .inl (hstack.symm.trans hnone)
    · exact .inr ⟨earlier, hearlier, hblocked, hstack'.trans hstack, hfds'.trans hfds⟩

theorem Scheduler.Rescheduled.noNewSleeper (hsame : first.Rescheduled false second) : first.NoNewSleeper second := by
  intro slot task htask hblocked
  have hrel := hsame.tasks slot
  rw [htask] at hrel
  cases hearlier : first.tasks slot with
  | none =>
    rw [hearlier] at hrel
    cases hrel
  | some earlier =>
    rw [hearlier] at hrel
    cases hrel with
    | some hrel =>
      obtain hstate | hfalse := hrel.blocked hblocked
      · exact .inr ⟨earlier, rfl, hstate, hrel.stack.symm, hrel.fds.symm⟩
      · cases hfalse

theorem Scheduler.NoNewSleeper.of_fates {clock : Option UInt64} {leaves : TaskState → Prop} {tables : FdTable → Prop}
    {reaps : Prop} (hleaves : ¬ leaves .Blocked)
    (hfates : ∀ slot, Fate clock leaves tables reaps (first.tasks slot) (second.tasks slot)) :
    first.NoNewSleeper second := by
  intro slot task htask hblocked
  obtain ⟨earlier, hearlier, hturns⟩ | ⟨_, hready, _⟩ := (htask ▸ hfates slot).to_some
  · exact .inr ⟨earlier, hearlier, hturns.blocked hleaves hblocked, hturns.same.stack.symm, hturns.same.fds.symm⟩
  · cases hblocked.symm.trans hready

/-- A slot is emptied, or gets a task that is not blocked or is not inside a call. -/
theorem Scheduler.NoNewSleeper.put {entry : Option Task}
    (hentry : ∀ task, entry = some task → task.state = .Blocked → task._stack = none) :
    self.NoNewSleeper (self.put slot entry) := by
  intro other task htask hblocked
  rw [put_tasks] at htask
  split at htask
  · exact .inl (hentry task htask hblocked)
  · exact NoNewSleeper.refl self other task htask hblocked

section Carrying

variable (hinv : before.NoLostWakeUp) (htasks : before.global_scheduler.NoNewSleeper after.global_scheduler)
include hinv htasks

/-- The rule for every step: nobody new sleeps inside a call, and the pipes that hold
sleepers still hold them. -/
theorem Kernel.NoLostWakeUp.carry (hreaders : ∀ pipe, before.ReaderBlocked pipe → before.objects.HoldsReaders pipe →
      after.objects.HoldsReaders pipe)
    (hwriters : ∀ pipe, before.WriterBlocked pipe → before.objects.HoldsWriters pipe →
      after.objects.HoldsWriters pipe) : after.NoLostWakeUp := by
  intro pipe
  constructor
  · rintro ⟨slot, task, htask, hblocked, fd, length, hstack, hfd⟩
    obtain hnone | ⟨earlier, hearlier, hstate, hsame, hfds⟩ := htasks slot task htask hblocked
    · rw [hnone] at hstack
      cases hstack
    · have hreader : before.ReaderBlocked pipe :=
        ⟨slot, earlier, hearlier, hstate, fd, length, hsame.trans hstack, hfds ▸ hfd⟩
      exact hreaders pipe hreader ((hinv pipe).1 hreader)
  · rintro ⟨slot, task, htask, hblocked, fd, input, hstack, hfd⟩
    obtain hnone | ⟨earlier, hearlier, hstate, hsame, hfds⟩ := htasks slot task htask hblocked
    · rw [hnone] at hstack
      cases hstack
    · have hwriter : before.WriterBlocked pipe :=
        ⟨slot, earlier, hearlier, hstate, fd, input, hsame.trans hstack, hfds ▸ hfd⟩
      exact hwriters pipe hwriter ((hinv pipe).2 hwriter)

/-- A step that keeps the pipes there are. -/
theorem Kernel.NoLostWakeUp.keep_pipes
    (hpipes : ∀ pipe < before.objects.pipes.length, after.objects.pipes[pipe]? = before.objects.pipes[pipe]?) :
    after.NoLostWakeUp := by
  refine hinv.carry htasks ?_ ?_
  all_goals
    rintro pipe _ ⟨state, hstate, hholds⟩
    exact ⟨state, (hpipes pipe (List.getElem?_eq_some_iff.mp hstate).1).trans hstate, hholds⟩

theorem Kernel.NoLostWakeUp.same_pipes (hpipes : after.objects.pipes = before.objects.pipes) : after.NoLostWakeUp :=
  hinv.keep_pipes htasks fun _ _ => by rw [hpipes]

end Carrying

/-- Once every blocked task has been woken, no wake-up is missing. -/
theorem wake_all_blocked_alert (kernel : Kernel M) :
    ((wake_all_blocked_tasks : KernelM M Unit) kernel).2.NoLostWakeUp := by
  have hawake : ∀ slot task, ((wake_all_blocked_tasks : KernelM M Unit) kernel).2.global_scheduler.tasks slot =
      some task → task.state ≠ .Blocked := by
    intro slot task htask
    simp only [wake_all_blocked_tasks, locked_apply, Scheduler.wake_all_blocked, modify_apply,
      Scheduler.map_tasks, Option.map_eq_some_iff] at htask
    obtain ⟨earlier, _, rfl⟩ := htask
    split
    · simp
    · assumption
  intro pipe
  constructor
  all_goals
    rintro ⟨slot, task, htask, hblocked, _⟩
    exact absurd hblocked (hawake slot task htask)

end Rules

section Scheduling

open Scheduler

theorem save_current_user_rsp_alert (current : Slot) :
    Maintains Kernel.NoLostWakeUp (save_current_user_rsp current : KernelM M Unit) :=
  fun kernel hinv => hinv.same_pipes (save_current_user_rsp_rescheduled current kernel).noNewSleeper rfl

/-- Activation changes the processor only. -/
theorem activate_selected_snd (kernel : Kernel M) : ∃ cpu, (activate_selected kernel).2 = { kernel with cpu } := by
  simp only [activate_selected, activate_task_address_space, bind_apply, get_apply]
  cases kernel.global_scheduler.current with
  | none => exact ⟨_, rfl⟩
  | some index =>
    simp only [bind_apply]
    cases kernel.global_scheduler.tasks index with
    | none => exact ⟨kernel.cpu, rfl⟩
    | some task =>
      simp only [expect_some]
      cases task.user with
      | none => exact ⟨_, rfl⟩
      | some user =>
        simp only [bind_apply]
        cases task.stack_top with
        | none => exact ⟨kernel.cpu, rfl⟩
        | some stack_top =>
          simp only [expect_some]
          cases user.address_space.root with
          | none => exact ⟨kernel.cpu, rfl⟩
          | some root => exact ⟨_, rfl⟩

theorem activate_selected_alert : Maintains Kernel.NoLostWakeUp (activate_selected : KernelM M Unit) := by
  intro kernel hinv
  obtain ⟨cpu, heq⟩ := activate_selected_snd kernel
  rw [heq]
  exact hinv.same_pipes (.refl _) rfl

/-- Calls that block nobody and change no pipe lose no wake-up. -/
theorem alert_discipline : Discipline (M := M) (fun kernel => kernel.global_scheduler.Inv kernel.global_scheduler ∧
    kernel.NoLostWakeUp) (fun kernel => kernel.global_scheduler.Inv kernel.global_scheduler ∧ kernel.NoLostWakeUp)
    fun kernel => kernel.global_scheduler.Inv kernel.global_scheduler ∧ kernel.NoLostWakeUp := by
  refine .of_invariant ?_ ?_ ?_
  · rintro kernel slot ⟨hinv, halert⟩ _
    exact ⟨(kernel.saved_inv hinv slot).restart, save_current_user_rsp_alert slot kernel halert⟩
  · rintro kernel operation hallowed hschedules ⟨hinv, halert⟩
    refine ⟨(operation.execute_inv hinv).restart, ?_⟩
    have hsleepers := Scheduler.NoNewSleeper.of_fates hallowed.leaves (operation.execute_fate hinv)
    rw [hschedules.execute] at hsleepers ⊢
    exact halert.same_pipes hsleepers rfl
  · rintro kernel ⟨hinv, halert⟩
    refine ⟨?_, activate_selected_alert kernel halert⟩
    obtain ⟨cpu, heq⟩ := activate_selected_snd kernel
    rw [heq]
    exact hinv

/-- The child's descriptors are clones, so no pipe loses an end. -/
theorem spawn_user_alert (destroy : Destroy M) (space : AddressSpace) (entry stack argument_count argument_vector : Nat)
    (kernel_stack : KernelStack) (fd_mappings : List FdMapping) (fd_closes : List Nat) :
    Maintains Kernel.NoLostWakeUp (spawn_user_with_arguments_and_fds destroy space entry stack argument_count
      argument_vector kernel_stack fd_mappings fd_closes : KernelM M TaskId) := by
  intro kernel hinv
  have hcarry : ∀ after : Kernel M, after.objects =
      (child_table kernel.global_scheduler.current_task fd_mappings fd_closes kernel).2.objects →
      kernel.global_scheduler.NoNewSleeper after.global_scheduler → after.NoLostWakeUp := by
    intro after hsame htasks
    have hpipes := child_table_pipes kernel.global_scheduler.current_task fd_mappings fd_closes kernel
    rw [← hsame] at hpipes
    refine hinv.carry htasks (fun pipe _ hholds => ?_) fun pipe _ hholds => ?_
    all_goals
      obtain ⟨readers, writers, hpipe⟩ := hpipes pipe
      exact hholds.gain hpipe
  obtain ⟨slot, task, objects, _, _, hstate, _, _, hobjects, heq⟩ | ⟨objects, htable, heq⟩ | ⟨_, heq, _⟩ :=
    spawn_user_cases destroy space entry stack argument_count argument_vector kernel_stack fd_mappings fd_closes kernel
  · rw [heq]
    refine hcarry _ hobjects (NoNewSleeper.put fun fresh hfresh hblocked => ?_)
    obtain rfl := Option.some.inj hfresh
    rw [hstate] at hblocked
    cases hblocked
  · rw [heq]
    exact hcarry _ (by rw [htable]) (.refl _)
  · rw [heq]
    exact hinv

end Scheduling

end leafos.tasking.scheduler
