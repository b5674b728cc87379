import LeafOS.Tasking.LostWakeUps
import LeafOS.Tasking.PipeCounts
import LeafOS.Tasking.Waits

namespace leafos.tasking.scheduler

open leafos.memory leafos.tasking.fd leafos.arch.syscall Prog

variable {M : Type} {descriptor : FileDescriptor} {self : Scheduler}

/-- The number of slots that hold a descriptor, over the tables of the tasks that have not
exited. -/
def Scheduler.live_held (self : Scheduler) (descriptor : FileDescriptor) : Nat :=
  ∑ slot, (self.tasks slot).elim 0 fun task => if task.state = .Terminated then 0 else ends task.fds descriptor

instance : DecidablePred FileDescriptor.IsEnd := fun descriptor =>
  match descriptor with
  | .PipeRead _ | .PipeWrite _ => isTrue trivial
  | .Stdin | .Console | .FileRead _ | .FileWrite _ => isFalse id

/-- Some slot of the table holds a pipe end. -/
abbrev HoldsEnd (fds : FdTable) : Prop := ∃ index, ∃ descriptor ∈ fds index, descriptor.IsEnd

/-- Nobody exits in a step, or is killed, while holding a pipe end. The idle task never exits. -/
def FdStep.Clean (step : FdStep M) (kernel : Kernel M) : Prop :=
  match step with
  | .schedule operation => ∀ slot, ∀ task ∈ kernel.global_scheduler.tasks slot,
      operation.Ends kernel.global_scheduler slot task → task.state ≠ .Terminated → task.is_idle = false →
      ¬ HoldsEnd task.fds
  | _ => True

instance (step : FdStep M) (kernel : Kernel M) : Decidable (step.Clean kernel) := by
  unfold FdStep.Clean
  split <;> infer_instance

/-- The same for every step of a run. -/
def AllClean : List (FdStep M) → Kernel M → Prop
  | [], _ => True
  | step :: rest, kernel => step.Clean kernel ∧
    ((step.execute kernel).1 ≠ .panic → AllClean rest (step.execute kernel).2)

instance decidableAllClean : ∀ (steps : List (FdStep M)) (kernel : Kernel M), Decidable (AllClean steps kernel)
  | [], _ => isTrue trivial
  | step :: rest, kernel =>
    haveI := decidableAllClean rest (step.execute kernel).2
    inferInstanceAs (Decidable (step.Clean kernel ∧
      ((step.execute kernel).1 ≠ .panic → AllClean rest (step.execute kernel).2)))

/-- Tasks that have exited hold no pipe end. -/
def Scheduler.ExitedClean (self : Scheduler) : Prop :=
  ∀ slot task, self.tasks slot = some task → task.state = .Terminated → ¬ HoldsEnd task.fds

theorem ends_eq_zero {fds : FdTable} (hclean : ¬ HoldsEnd fds) (hend : descriptor.IsEnd) : ends fds descriptor = 0 := by
  refine List.countP_eq_zero.mpr fun index _ hheld => hclean ⟨index, descriptor, ?_, hend⟩
  exact of_decide_eq_true hheld

theorem Scheduler.ExitedClean.live_held (hclean : self.ExitedClean)
    (hend : descriptor.IsEnd) : self.live_held descriptor = self.held descriptor := by
  refine Finset.sum_congr rfl fun slot _ => ?_
  cases htask : self.tasks slot with
  | none => rfl
  | some task =>
    simp only [entry_ends, Option.elim_some]
    split
    · rename_i hstate
      exact (ends_eq_zero (hclean slot task htask hstate) hend).symm
    · rfl

section Steps

variable {kernel : Kernel M} {past : Scheduler} {slot : Slot}

/-- Nobody exits, and nothing of those who have has changed. -/
def Scheduler.SparesExited (before after : Scheduler) : Prop :=
  ∀ slot task, after.tasks slot = some task → task.state = .Terminated → before.tasks slot = some task

theorem Scheduler.ExitedClean.spared {after : Scheduler} (hexited : self.ExitedClean)
    (hspares : self.SparesExited after) : after.ExitedClean :=
  fun slot task htask hstate => hexited slot task (hspares slot task htask hstate) hstate

/-- The running task has not exited, so its table may change. -/
theorem Scheduler.Inv.put_table_spares (hinv : self.Inv past) (hcurrent : self.current = some slot)
    (fds : FdTable) : self.SparesExited (self.modify_task slot fun task => { task with fds }) := by
  intro other later hlater hstate
  rw [Scheduler.modify_task, Scheduler.put_tasks] at hlater
  split at hlater
  · obtain ⟨task, htask, rfl⟩ := Option.map_eq_some_iff.mp hlater
    have hrunning := (hinv.task_fits htask).running.mpr hcurrent
    cases hstate.symm.trans hrunning
  · exact hlater

theorem Scheduler.wake_all_blocked_spares (self : Scheduler) : self.SparesExited (wake_all_blocked self).2 := by
  intro slot later hlater hstate
  obtain ⟨task, htask, rfl⟩ := Option.map_eq_some_iff.mp hlater
  by_cases hblocked : task.state = .Blocked
  · simp only [if_pos hblocked, reduceCtorEq] at hstate
  · simpa only [if_neg hblocked] using htask

theorem Kernel.Tabled.spares {after : Kernel M} (htabled : kernel.Tabled after) (hinv : kernel.global_scheduler.Inv past) :
    kernel.global_scheduler.SparesExited after.global_scheduler := by
  obtain ⟨objects, rfl | ⟨current, fds, hcurrent, rfl⟩⟩ := htabled
  · exact fun _ _ htask _ => htask
  · exact hinv.put_table_spares hcurrent fds

theorem close_current_fd_spares (hinv : kernel.global_scheduler.Inv past) (fd_number : Nat) :
    kernel.global_scheduler.SparesExited (close_current_fd fd_number kernel).2.global_scheduler := by
  obtain ⟨_, heq⟩ | ⟨middle, htabled, heq⟩ := close_current_fd_tabled fd_number kernel
  · rw [heq]
    exact fun _ _ htask _ => htask
  · rw [heq]
    intro slot later hlater hstate
    exact htabled.spares hinv slot later (Scheduler.wake_all_blocked_spares _ slot later hlater hstate) hstate

theorem by_caller_spares {α : Type} {call : KernelM M α}
    (hspares : kernel.global_scheduler.SparesExited (call kernel).2.global_scheduler) :
    kernel.global_scheduler.SparesExited (by_caller call kernel).2.global_scheduler := by
  simp only [by_caller, bind_apply, get_apply]
  split
  · exact fun _ _ htask _ => htask
  · rwa [discard_snd]

/-- Reading and writing leave the task table alone. -/
theorem transfer_current_fd_spares {ε α : Type} (fd_number : Nat)
    (transfer : FileDescriptor → Objects → Except ε α × Objects) (convert : ε → SchedulerError) (kernel : Kernel M) :
    kernel.global_scheduler.SparesExited (transfer_current_fd fd_number transfer convert kernel).2.global_scheduler := by
  obtain ⟨objects, heq⟩ := transfer_current_fd_objects fd_number transfer convert kernel
  rw [heq]
  exact fun _ _ htask _ => htask

theorem FdStep.Clean.execute {step : FdStep M} (hclean : step.Clean kernel) (hinv : kernel.global_scheduler.Inv past)
    (hexited : kernel.global_scheduler.ExitedClean) : (step.execute kernel).2.global_scheduler.ExitedClean := by
  cases step with
  | schedule operation =>
    intro slot later hlater hstate
    obtain ⟨task, htask, hsame, hended⟩ := operation.execute_notices hinv slot later hlater hstate
    rw [hsame.fds]
    by_cases hearlier : task.state = .Terminated
    · exact hexited slot task htask hearlier
    · refine hclean slot task htask (hended.resolve_left hearlier).1 hearlier (Bool.eq_false_iff.mpr fun hidle => ?_)
      have hfits := (operation.execute_inv hinv).task_fits hlater
      simpa [hstate] using hfits.idle_state (hsame.is_idle.trans hidle)
  | create_pipe_for_current =>
    exact hexited.spared (by_caller_spares ((create_pipe_for_current_tabled kernel).spares hinv))
  | close_current_fd fd_number => exact hexited.spared (by_caller_spares (close_current_fd_spares hinv fd_number))
  | duplicate_current_fd source_fd target_fd =>
    exact hexited.spared (by_caller_spares ((duplicate_current_fd_tabled source_fd target_fd kernel).spares hinv))
  | read_current_fd fd_number capacity | write_current_fd fd_number input stored =>
    exact hexited.spared (by_caller_spares (transfer_current_fd_spares _ _ _ _))

end Steps

/-- In a clean run nobody who has exited holds a pipe end. -/
theorem AllClean.run_steps {kernel : Kernel M} {steps : List (FdStep M)} (hclean : AllClean steps kernel)
    (hcounted : kernel.Counted) (hexited : kernel.global_scheduler.ExitedClean) :
    (run_steps steps kernel).global_scheduler.ExitedClean := by
  induction steps generalizing kernel with
  | nil => exact hexited
  | cons step rest ih =>
    obtain ⟨hstep, hrest⟩ := hclean
    have hafter := hstep.execute hcounted.inv hexited
    have hcounts := (step.execute_counted hcounted).2
    rw [scheduler.run_steps]
    generalize step.execute kernel = result at hrest hafter hcounts
    rcases result with ⟨_ | _ | _, after⟩
    · exact ih (hrest (by rintro ⟨⟩)) hcounts hafter
    · exact ih (hrest (by rintro ⟨⟩)) hcounts hafter
    · exact hafter

/-- In every run in which nobody exits while holding a pipe end, every pipe counts the ends
that live tasks hold: a drained pipe whose writers have all exited is at the end of its
data, and one whose readers have all exited is broken. -/
theorem exited_ends_count_as_closed (steps : List (FdStep M)) (objects : Objects) (memory : M) (cpu : Cpu)
    (kernel_root : PhysFrame) (hclean : AllClean steps (.fresh { objects with pipes := [] } memory cpu kernel_root)) :
    let kernel := run_steps steps (.fresh { objects with pipes := [] } memory cpu kernel_root)
    ∀ pipe state, kernel.objects.pipes[pipe]? = some state →
      state.readers = kernel.global_scheduler.live_held (.PipeRead pipe) ∧
      state.writers = kernel.global_scheduler.live_held (.PipeWrite pipe) ∧
      (kernel.global_scheduler.live_held (.PipeWrite pipe) = 0 → state.length = 0 →
        ∀ capacity, (fd.read (.PipeRead pipe) capacity kernel.objects).1 = .ok []) ∧
      (kernel.global_scheduler.live_held (.PipeRead pipe) = 0 →
        ∀ input stored, (fd.write (.PipeWrite pipe) input stored kernel.objects).1 = .error .BrokenPipe) := by
  intro kernel pipe state hstate
  have hboot := Kernel.fresh_counted objects memory cpu kernel_root
  have hcounted : kernel.Counted := run_steps_counted hboot steps
  have hexited : kernel.global_scheduler.ExitedClean := hclean.run_steps hboot fun _ _ htask => by cases htask
  have hreaders := hcounted.counts (.PipeRead pipe) trivial
  have hwriters := hcounted.counts (.PipeWrite pipe) trivial
  rw [← hexited.live_held (by trivial)] at hreaders hwriters
  simp only [Objects.count, hstate, Option.map_some, Option.getD_some] at hreaders hwriters
  refine ⟨hreaders, hwriters, fun hnone hempty capacity => ?_, fun hnone input stored => ?_⟩
  · rw [fd.read, hstate]
    dsimp only
    rw [if_neg fun hblocked => hblocked.2 (hwriters.trans hnone), (state.toByteRing.read_contents capacity).1,
      List.eq_nil_of_length_eq_zero (state.toByteRing.contents_length.trans hempty), List.take_nil]
  · rw [fd.write, hstate]
    dsimp only
    rw [if_pos (hreaders.trans hnone)]

/-- A user task makes a pipe, spawns a child that inherits both ends, closes its own write
end and yields to the child. -/
def child_inherits : List (FdStep Unit) :=
  [.schedule (.create_user_task (some ⟨some 1, []⟩) none (.ok (.empty, 0)) [] []),
    .schedule (.install_idle 0 (.ok (.empty, 0))), .schedule .start, .create_pipe_for_current,
    .schedule (.create_user_task (some ⟨some 2, []⟩) (some 1) (.ok (.empty, 0)) [] []),
    .close_current_fd 4, .schedule .yield_current]

/-- The child closes its ends before it exits: the parent reads the end of the data. -/
theorem exited_ends_count_as_closed_sample :
    let steps := child_inherits ++ [.close_current_fd 3, .close_current_fd 4,
      .schedule (.exit_current_with_status_and_group (some 0) false)]
    let kernel := run_steps steps sample_kernel
    AllClean steps sample_kernel ∧
      kernel.global_scheduler.live_held (.PipeWrite 0) = 0 ∧
      (fd.read (.PipeRead 0) 1 kernel.objects).1 = .ok [] := by
  intro steps kernel
  have hclean : AllClean steps sample_kernel := by decide +kernel
  have hwriters : kernel.global_scheduler.live_held (.PipeWrite 0) = 0 := by decide +kernel
  have hlength : kernel.objects.pipes[0]?.map (fun state => state.length) = some 0 := by decide +kernel
  obtain ⟨state, hstate, hempty⟩ := Option.map_eq_some_iff.mp hlength
  obtain ⟨_, _, hread, _⟩ := exited_ends_count_as_closed steps ⟨[], [], [], .empty⟩ () ⟨0, 0, 0⟩ 0 hclean 0 state hstate
  exact ⟨hclean, hwriters, hread hwriters hempty 1⟩

/-- The child exits with its ends open. No task that is alive holds a write end, and still
the pipe counts one: the parent's read blocks. -/
theorem exited_child_keeps_pipe_open :
    let steps := child_inherits ++ [.schedule (.exit_current_with_status_and_group (some 0) false)]
    let kernel := run_steps steps sample_kernel
    kernel.objects.pipes.map (fun state => (state.length, state.writers)) = [(0, 1)] ∧
      kernel.global_scheduler.live_held (.PipeWrite 0) = 0 ∧
      kernel.descriptor 3 = some (.PipeRead 0) ∧
      (read_current_fd 3 1 kernel).1 = .err .WouldBlock := by
  decide +kernel

end leafos.tasking.scheduler
