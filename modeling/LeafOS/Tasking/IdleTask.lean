import LeafOS.Tasking.LostWakeUps

namespace leafos.tasking.scheduler

open leafos.memory leafos.tasking.fd leafos.arch.syscall Prog Relation

variable {M : Type}

namespace Scheduler

variable {self before after : Scheduler} {blocks : Bool} {slot : Slot} {task : Task}
  {stack : KernelStack}

/-- The table keeps its bookkeeping, the idle task is there while anything runs, and until
it is there it has a slot. -/
structure Available (scheduler : Scheduler) : Prop where
  inv : scheduler.Inv scheduler
  started : scheduler.current.isSome → scheduler.idle_index.isSome
  reserve : scheduler.idle_index = none → ∃ slot, scheduler.tasks slot = none

theorem available_new : Scheduler.new.Available := ⟨inv_new, nofun, fun _ => ⟨0, rfl⟩⟩

/-- A change of scheduling moves no task and starts nothing out of the blue. -/
theorem Available.rescheduled (havailable : before.Available) (hsame : before.Rescheduled blocks after)
    (hinv : after.Inv before) (hstarted : after.current.isSome → before.idle_index.isSome) : after.Available where
  inv := hinv.restart
  started := fun hsome => by
    rw [hsame.idle_index]
    exact hstarted hsome
  reserve := fun hnone => by
    rw [hsame.idle_index] at hnone
    obtain ⟨slot, hfree⟩ := havailable.reserve hnone
    have hrel := hsame.tasks slot
    rw [hfree] at hrel
    refine ⟨slot, ?_⟩
    generalize after.tasks slot = entry at hrel
    cases hrel
    rfl

theorem Available.moved (havailable : before.Available) {clock : Option UInt64} {leaves : TaskState → Prop}
    (hmoves : Moves clock leaves before after) (hstarted : after.current.isSome → before.idle_index.isSome) :
    after.Available :=
  havailable.rescheduled (hmoves.rescheduled fun _ => rfl : before.Rescheduled true after)
    (hmoves.inv havailable.inv) hstarted

section Available

variable (havailable : self.Available)
include havailable

/-- A slot is filled; another one is left if the idle task still needs it. -/
theorem Available.insert (hreserve : self.keeps_idle_slot = false)
    (hfree : self.tasks slot = none) (hid : task.id = self.next_id) (hstate : task.state = .Ready)
    (hflag : task.is_idle = false) : ({ self with next_id := self.next_id + 1 }.put slot (some task)).Available where
  inv := (havailable.inv.insert hfree hid hstate hflag).restart
  started := havailable.started
  reserve := fun hnone => by
    have hidle : self.idle_index = none := hnone
    have hfew : ¬ self.free_slots ≤ 1 := by simpa [keeps_idle_slot, hidle] using hreserve
    have hcount := List.countP_update (List.nodup_finRange MAX_TASKS) (List.mem_finRange slot) self.tasks
      (some task) Option.isNone
    simp only [hfree, Option.isNone_none, Bool.toNat_true, Option.isNone_some, Bool.toNat_false, Nat.add_zero] at hcount
    have hleft : 0 < (List.finRange MAX_TASKS).countP
        fun index => (Function.update self.tasks slot (some task) index).isNone := by
      refine Nat.pos_of_ne_zero fun hzero => hfew ?_
      have hone : self.free_slots = 0 + 1 := hcount.symm.trans (congrArg (· + 1) hzero)
      omega
    obtain ⟨other, _, hother⟩ := List.countP_pos_iff.mp hleft
    exact ⟨other, Option.isNone_iff_eq_none.mp hother⟩

/-- A slot is emptied. -/
theorem Available.remove
    (htask : self.tasks slot = some task) (hstate : task.state = .Terminated) : (self.put slot none).Available where
  inv := (havailable.inv.remove htask hstate).restart
  started := havailable.started
  reserve := fun _ => ⟨slot, by simp [put]⟩

/-- A task's record changes where the invariant does not look. -/
theorem Available.put {changed : Task} (htask : self.tasks slot = some task) (hkeeps : task.Keeps changed) :
    (self.put slot (some changed)).Available where
  inv := (havailable.inv.put htask hkeeps).restart
  started := havailable.started
  reserve := fun hnone => by
    obtain ⟨free, hfree⟩ := havailable.reserve hnone
    refine ⟨free, ?_⟩
    rw [put_tasks, if_neg, hfree]
    rintro rfl
    rw [hfree] at htask
    cases htask

theorem Available.modify_task {update : Task → Task}
    (hkeeps : ∀ task, self.tasks slot = some task → task.Keeps (update task)) :
    (self.modify_task slot update).Available := by
  unfold Scheduler.modify_task
  cases htask : self.tasks slot with
  | none =>
    have hsame : self.put slot none = self := by simp [Scheduler.put, ← htask]
    rwa [Option.map_none, hsame]
  | some task => exact havailable.put htask (hkeeps task htask)

/-- Whoever leaves the processor finds somebody to give it to. -/
theorem Available.transition_current (next_state : TaskState) :
    (Scheduler.transition_current next_state self).1 ≠ .err .NoRunnableTasks :=
  havailable.inv.gives_up havailable.started (transition_current_cases next_state self)

theorem Available.sleep_current_until (deadline : UInt64) :
    (Scheduler.sleep_current_until deadline self).1 ≠ .err .NoRunnableTasks :=
  havailable.inv.gives_up havailable.started (sleep_current_until_cases deadline self)

/-- So some task has the processor as long as one had it. -/
theorem Available.transition_current_running (next_state : TaskState)
    (hcurrent : self.current.isSome) : (Scheduler.transition_current next_state self).2.current.isSome := by
  have hfound := havailable.transition_current next_state
  obtain ⟨error, _, heq⟩ | ⟨current, task, _, _, _, _, heq⟩ := transition_current_cases next_state self
  · rwa [heq]
  · rw [heq] at hfound ⊢
    generalize ({ self.put current _ with current := none } : Scheduler) = left at hfound
    obtain ⟨slot, chosen, _, _, hselect⟩ | hselect := select_next_cases (current + 1) left
    · rw [hselect]
      rfl
    · rw [hselect] at hfound
      exact absurd rfl hfound

theorem Available.finish_exit_running {current : Slot} (hcurrent : self.current = some current)
    (exit_code : Option UInt64) : (finish_exit current exit_code self).2.current.isSome := by
  cases htask : self.tasks current with
  | none => simp [finish_exit, htask, hcurrent]
  | some task =>
    have hput : (self.put current (some { task with exit_code })).Available :=
      havailable.put htask (havailable.inv.keeps htask)
    have hmoves : Moves none (fun _ => False) _ _ :=
      wake_parent_moves current (self.put current (some { task with exit_code }))
    have hwoken := hput.moved hmoves (by rw [wake_parent_current]; exact hput.started)
    have hstays : (wake_parent current (self.put current (some { task with exit_code }))).2.current.isSome := by
      rw [wake_parent_current]
      simp [Scheduler.put, hcurrent]
    rw [finish_exit_snd htask]
    exact hwoken.transition_current_running .Terminated hstays

/-- An exit hands the processor to another task. -/
theorem Available.exit_current_running (hcurrent : self.current.isSome)
    (exit_code : Option UInt64) (terminate_group : Bool) :
    (exit_current_with_status_and_group exit_code terminate_group self).2.current.isSome := by
  obtain ⟨current, hcurrent⟩ := Option.isSome_iff_exists.mp hcurrent
  simp only [exit_current_with_status_and_group, bind_apply, get_apply, hcurrent, expect_some]
  cases terminate_group with
  | false => exact havailable.finish_exit_running hcurrent exit_code
  | true =>
    have hstays := (terminate_siblings_current current exit_code self).trans hcurrent
    have hsiblings := havailable.moved (terminate_siblings_moves hcurrent exit_code)
      fun _ => havailable.started (by simp [hcurrent])
    exact hsiblings.finish_exit_running hstays exit_code

end Available

theorem create_kernel_task_ne_full (hfree : self.tasks slot = none) (entry : KernelTaskEntry) (parent : Option TaskId)
    (hstack : stack ≠ .error .Full) : (create_kernel_task entry parent stack self).1 ≠ .err .Full := by
  have hfound : (self.position Option.isNone).isSome :=
    List.find?_isSome.mpr ⟨slot, List.mem_finRange slot, by simp [hfree]⟩
  obtain ⟨free, hfree⟩ := Option.isSome_iff_exists.mp hfound
  simp only [create_kernel_task, check_task_capacity, bind_apply, get_apply, hfree, okOr_some]
  cases hnext : checked_add_u64 self.next_id 1 with
  | none => rintro ⟨⟩
  | some next_id =>
    simp only [okOr_some]
    cases stack with
    | error error => exact fun hfull => hstack (congrArg Except.error (Outcome.err.inj hfull))
    | ok stack =>
      simp only [insert_task, check_task_capacity, bind_apply, get_apply, hfree, okOr_some, hnext]
      rintro ⟨⟩

/-- Installing the idle task finds a slot. -/
theorem Available.install_idle_ne_full (havailable : self.Available) (entry : KernelTaskEntry)
    (hstack : stack ≠ .error .Full) : (install_idle entry stack self).1 ≠ .err .Full := by
  simp only [install_idle, bind_apply, get_apply]
  cases hidle : self.idle_index with
  | some index => rintro ⟨⟩
  | none =>
    obtain ⟨slot, hfree⟩ := havailable.reserve hidle
    refine bind_ne_err (create_kernel_task_ne_full hfree entry none hstack) fun id created _ => ?_
    refine bind_ne_err (by rintro ⟨⟩) fun _ _ _ => ?_
    refine bind_ne_err (okOr_ne_err _ (by decide)) fun index _ _ => ?_
    exact bind_ne_err (okOr_ne_err _ (by decide)) fun task _ _ => by rintro ⟨⟩

end Scheduler

open Scheduler

section Changes

variable {kernel : Kernel M}

/-- Activation succeeds or panics. -/
theorem activate_selected_ne_err (kernel : Kernel M) (error : SchedulerError) :
    (activate_selected kernel).1 ≠ .err error := by
  refine bind_ne_err nofun fun _ _ hget => ?_
  cases hget
  unfold activate_task_address_space
  refine bind_ne_err nofun fun _ _ hget => ?_
  cases hget
  cases kernel.global_scheduler.current with
  | none => nofun
  | some index =>
    refine bind_ne_err (expect_ne_err _) fun task _ _ => ?_
    cases task.user with
    | none => nofun
    | some user =>
      exact bind_ne_err (expect_ne_err _) fun _ _ _ => bind_ne_err (expect_ne_err _) fun _ _ _ => nofun

theorem Kernel.saved_available (kernel : Kernel M) (havailable : kernel.global_scheduler.Available) (slot : Slot) :
    (kernel.saved slot).Available := by
  have hsame := save_current_user_rsp_rescheduled slot kernel
  exact havailable.rescheduled hsame (kernel.saved_inv havailable.inv slot) havailable.started

theorem Operation.execute_available {operation : Operation M} (hallowed : operation.Allowed kernel.global_scheduler)
    (havailable : kernel.global_scheduler.Available) : (operation.execute kernel).2.global_scheduler.Available := by
  have heffect := operation.execute_effect havailable.inv
  generalize (operation.execute kernel).2.global_scheduler = after at heffect
  have hinv := heffect.inv havailable.inv
  cases heffect with
  | stays hmoves hcurrent => exact havailable.moved hmoves (hcurrent ▸ havailable.started)
  | switches hmoves _ hstarts =>
    refine havailable.moved hmoves fun _ => ?_
    obtain hsome | rfl := hstarts
    · exact havailable.started hsome
    · exact hallowed
  | insert hcreates hfree hid _ hready hflag _ _ =>
    exact havailable.insert (hallowed.reserve hcreates) hfree hid hready hflag
  | install _ _ _ _ _ _ _ => exact ⟨hinv.restart, fun _ => rfl, nofun⟩
  | reap _ htask hstate => exact havailable.remove htask hstate
  | tear user _ htask _ => exact havailable.put htask (havailable.inv.keeps htask)
  | @retire slot _ hnobody _ _ _ _ =>
    refine ⟨hinv.restart, fun hsome => ?_, fun _ => ⟨slot, by simp [Scheduler.put]⟩⟩
    have hrunning : kernel.global_scheduler.current.isSome := hsome
    rw [hnobody] at hrunning
    cases hrunning

theorem Kernel.Change.available {before after : Kernel M} (hchange : Kernel.Change before after)
    (havailable : before.global_scheduler.Available) : after.global_scheduler.Available := by
  cases hchange with
  | operation operation hallowed => exact operation.execute_available hallowed havailable
  | elsewhere objects memory cpu => exact havailable
  | serve user fds _stack hcurrent htask huser => exact havailable.put htask (havailable.inv.keeps htask)
  | @block slot task call hcurrent htask hgranted hwaits =>
    have hsaved := before.saved_available havailable slot
    have hblocked := hsaved.moved (transition_current_moves .Blocked (by decide) (by decide) _)
      fun _ => hsaved.started (by simp [Kernel.saved, Scheduler.modify_task, Scheduler.put, hcurrent])
    exact hblocked.modify_task fun task htask => hblocked.inv.keeps htask
  | stuck hcurrent hnobody =>
    exact absurd hnobody ((before.saved_available havailable _).transition_current .Blocked)

theorem reap_terminated_ne_stuck (destroy : Destroy M) (id : TaskId) (kernel : Kernel M) :
    (reap_terminated destroy id kernel).1 ≠ .err .NoRunnableTasks := by
  refine bind_ne_err nofun fun _ _ _ => ?_
  refine bind_ne_err (okOr_ne_err _ (by decide)) fun index _ _ => ?_
  refine bind_ne_err (okOr_ne_err _ (by decide)) fun task _ _ => ?_
  split
  · nofun
  · cases task.user with
    | none => nofun
    | some user => exact bind_ne_err (mapErr_ne_err _ (by simp)) fun _ _ _ => nofun

/-- Waiting for a child never fails because nobody could take the processor. -/
theorem wait_for_child_not_stuck (havailable : kernel.global_scheduler.Available) (destroy : Destroy M)
    (child : Option TaskId) : (wait_for_child destroy child kernel).1 ≠ .err .NoRunnableTasks := by
  have hblocked : ∀ current, (block_in_wait current child kernel).1 ≠ .err .NoRunnableTasks := by
    intro current
    have hfound := (kernel.saved_available havailable current).transition_current .Blocked
    refine bind_ne_err (by rintro ⟨⟩) fun _ saved hsaved => ?_
    rw [save_current_user_rsp_apply] at hsaved
    cases hsaved
    exact bind_ne_err hfound fun _ _ _ => bind_ne_err (by rintro ⟨⟩) fun _ after _ => activate_selected_ne_err after _
  obtain ⟨_, heq, _, hother⟩ | ⟨current, task, _, _, ⟨id, exited, _, _, heq⟩ | ⟨_, heq⟩⟩ :=
    wait_for_child_apply destroy child kernel
  · rwa [heq]
  · rw [heq]
    exact bind_ne_err (reap_terminated_ne_stuck destroy id kernel) fun _ _ _ => by rintro ⟨⟩
  · rw [heq]
    exact bind_ne_err (hblocked current) fun _ _ _ => by rintro ⟨⟩

end Changes

/-- The idle task is always available. In every state of every run of the kernel's entry
points, between or inside calls: a slot is free until the idle task is installed, so that
`run_tasks` does not fail with `Full` (a kernel stack is never refused with that error);
whoever leaves the processor finds a task to give it to; and `wait_for_child` does not
return early from its transition. -/
theorem idle_task_always_available (events : List (Event M)) (objects : Objects) (memory : M) (cpu : Cpu)
    (kernel_root : PhysFrame) {kernel : Kernel M}
    (hreached : (interleave events (.fresh objects memory cpu kernel_root)).Changes kernel) :
    (kernel.global_scheduler.idle_index = none → ∃ slot, kernel.global_scheduler.tasks slot = none) ∧
    (∀ idle_entry stack, stack ≠ .error .Full → (run_tasks idle_entry stack kernel).1 ≠ .err .Full) ∧
    (∀ next_state, (transition_current next_state kernel.global_scheduler).1 ≠ .err .NoRunnableTasks) ∧
    (∀ deadline, (sleep_current_until deadline kernel.global_scheduler).1 ≠ .err .NoRunnableTasks) ∧
    (kernel.global_scheduler.current.isSome → ∀ exit_code terminate_group,
      (Scheduler.exit_current_with_status_and_group exit_code terminate_group
        kernel.global_scheduler).2.current.isSome) ∧
    ∀ destroy child, (wait_for_child destroy child kernel).1 ≠ .err .NoRunnableTasks := by
  have hchanges := (interleave_changes events (.fresh objects memory cpu kernel_root)).trans hreached
  have havailable : kernel.global_scheduler.Available :=
    Kernel.Changes.keeps (P := fun kernel => kernel.global_scheduler.Available) hchanges Kernel.Change.available
      Scheduler.available_new
  refine ⟨havailable.reserve, ?_, havailable.transition_current, havailable.sleep_current_until,
    havailable.exit_current_running, wait_for_child_not_stuck havailable⟩
  intro idle_entry stack hstack
  have hinstalled := havailable.install_idle_ne_full idle_entry hstack
  refine bind_ne_err hinstalled fun _ middle _ => ?_
  refine bind_ne_err ?_ fun _ started _ => activate_selected_ne_err started _
  simp only [locked_apply, start, bind_apply, get_apply]
  cases middle.global_scheduler.current with
  | some current => rintro ⟨⟩
  | none => exact fun herror => by cases select_next_err herror

/-- The only program runs; when it blocks, the idle task takes over. -/
theorem idle_task_always_available_sample :
    let kernel := interleave [sample_spawn, .run_tasks 0 (.ok (.empty, 0))] sample_kernel
    kernel.global_scheduler.current = some 0 ∧
      (transition_current .Blocked kernel.global_scheduler).1 ≠ .err .NoRunnableTasks := by
  intro kernel
  exact ⟨by decide +kernel, (idle_task_always_available [sample_spawn, .run_tasks 0 (.ok (.empty, 0))] _ () _ 0
    .refl).2.2.1 .Blocked⟩

end leafos.tasking.scheduler
