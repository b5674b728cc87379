import LeafOS.Tasking.Invariant

namespace leafos.tasking.scheduler.Scheduler

open leafos.tasking.fd Prog

variable {self : Scheduler}

theorem checked_add_u64_some {left right sum : Nat} (h : checked_add_u64 left right = some sum) :
    sum = left + right := by
  unfold checked_add_u64 at h
  split at h
  · exact (Option.some.inj h).symm
  · cases h

/-- Selection either starts one ready task or finds none, and then nothing is
current. -/
theorem select_next_cases (start : Slot) (self : Scheduler) :
    (∃ slot task, self.tasks slot = some task ∧ task.state = .Ready ∧
      select_next start self =
        (.ok task.id, { self.put slot (some { task with state := .Running }) with
          current := some slot })) ∨
    select_next start self = (.err .NoRunnableTasks, { self with current := none }) := by
  simp only [select_next, bind_apply, modify_apply, get_apply]
  cases hfound : ((scan start).find? fun slot => selectable 0 (self.tasks slot)).or
      ((scan start).find? fun slot => selectable 1 (self.tasks slot)) with
  | none => right; rfl
  | some slot =>
    left
    have htest : ∃ pass, selectable pass (self.tasks slot) = true := by
      obtain hfirst | ⟨_, hsecond⟩ := Option.or_eq_some_iff.mp hfound
      · exact ⟨0, by simpa using List.find?_some hfirst⟩
      · exact ⟨1, by simpa using List.find?_some hsecond⟩
    obtain ⟨pass, htest⟩ := htest
    obtain ⟨task, htask, hready⟩ := (Option.any_eq_true _ _).mp htest
    refine ⟨slot, task, htask, ?_, ?_⟩
    · simp only [Bool.and_eq_true, beq_iff_eq] at hready
      exact hready.1
    · simp only [okOr_some, htask]
      rfl

/-- A call that gives up the processor either is refused and changes nothing, or puts the running task
in another state and selects the next one. -/
def GivesUp (self : Scheduler) (call : SchedulerM TaskId) (next_state : TaskState) (wake_at : Task → Option UInt64) :
    Prop :=
  (∃ error, error ≠ .NoRunnableTasks ∧ call self = (.err error, self)) ∨
  ∃ current task, self.current = some current ∧ self.tasks current = some task ∧
    task.state = .Running ∧ (task.is_idle → next_state = .Ready) ∧
    call self = select_next (current + 1)
      { self.put current (some { task with state := next_state, wake_at := wake_at task }) with current := none }

theorem transition_current_cases (next_state : TaskState) (self : Scheduler) :
    self.GivesUp (transition_current next_state) next_state
      fun task => if next_state ≠ .Sleeping then none else task.wake_at := by
  simp only [GivesUp, transition_current, task_mut, bind_apply, get_apply]
  cases hcurrent : self.current with
  | none => exact .inl ⟨.NotStarted, by simp, rfl⟩
  | some current =>
    simp only [okOr_some]
    cases htask : self.tasks current with
    | none => exact .inl ⟨.UnknownTask, by simp, rfl⟩
    | some task =>
      simp only [okOr_some]
      by_cases hrunning : task.state = .Running
      · by_cases hidle : task.is_idle ∧ next_state ≠ .Ready
        · left
          refine ⟨.InvalidState, by simp, ?_⟩
          simp [hrunning, hidle]
        · right
          refine ⟨current, task, rfl, htask, hrunning, ?_, ?_⟩
          · intro hflag
            by_contra hne
            exact hidle ⟨hflag, hne⟩
          · rw [if_neg (not_not.mpr hrunning), if_neg hidle]
            rfl
      · left
        refine ⟨.InvalidState, by simp, ?_⟩
        simp [hrunning]

theorem sleep_current_until_cases (deadline : UInt64) (self : Scheduler) :
    self.GivesUp (sleep_current_until deadline) .Sleeping fun _ => some deadline := by
  simp only [GivesUp, sleep_current_until, task_mut, bind_apply, get_apply]
  cases hcurrent : self.current with
  | none => exact .inl ⟨.NotStarted, by simp, rfl⟩
  | some current =>
    simp only [okOr_some]
    cases htask : self.tasks current with
    | none => exact .inl ⟨.UnknownTask, by simp, rfl⟩
    | some task =>
      simp only [okOr_some]
      by_cases hrefused : task.state ≠ .Running ∨ task.is_idle
      · left
        refine ⟨.InvalidState, by simp, ?_⟩
        rw [if_pos hrefused]
        rfl
      · right
        simp only [not_or, not_not, Bool.not_eq_true] at hrefused
        refine ⟨current, task, rfl, htask, hrefused.1, by simp [hrefused.2], ?_⟩
        simp [hrefused]

/-- The call is refused and changes nothing, or fills the first free slot with a fresh
ready task and advances `next_id`. -/
def Inserts (self : Scheduler) (call : SchedulerM TaskId) (parent : Option TaskId) (user : Option UserTask) : Prop :=
  (∃ error, call self = (.err error, self)) ∨
  ∃ slot task, self.position Option.isNone = some slot ∧ task.id = self.next_id ∧
    task.parent = parent ∧ task.state = .Ready ∧ task.is_idle = false ∧ task.fds = initial_table ∧
    task.user = user ∧ call self = (.ok self.next_id, { self with next_id := self.next_id + 1 }.put slot (some task))

theorem insert_task_cases (context : CpuContext) (parent : Option TaskId) (entry : Option KernelTaskEntry)
    (user : Option UserTask) (stack_top : Option Nat) (self : Scheduler) :
    self.Inserts (insert_task context parent entry user stack_top) parent user := by
  simp only [Inserts, insert_task, check_task_capacity, bind_apply, get_apply]
  cases hslot : self.position Option.isNone with
  | none => exact .inl ⟨.Full, rfl⟩
  | some slot =>
    simp only [okOr_some]
    cases hnext : checked_add_u64 self.next_id 1 with
    | none => exact .inl ⟨.TaskIdExhausted, rfl⟩
    | some next_id =>
      right
      have hsucc := checked_add_u64_some hnext
      subst hsucc
      exact ⟨slot, _, rfl, rfl, rfl, rfl, rfl, rfl, rfl, rfl⟩

/-- The same for kernel tasks, whose stack may also be refused. -/
theorem create_kernel_task_cases (entry : KernelTaskEntry) (parent : Option TaskId)
    (stack : KernelStack) (self : Scheduler) :
    self.Inserts (create_kernel_task entry parent stack) parent none := by
  have hcases : (∃ error, create_kernel_task entry parent stack self = (.err error, self)) ∨
      ∃ context stack_top, create_kernel_task entry parent stack self =
        insert_task context parent (some entry) none (some stack_top) self := by
    simp only [create_kernel_task, check_task_capacity, bind_apply, get_apply]
    cases self.position Option.isNone with
    | none => exact .inl ⟨.Full, rfl⟩
    | some slot =>
      simp only [okOr_some]
      cases checked_add_u64 self.next_id 1 with
      | none => exact .inl ⟨.TaskIdExhausted, rfl⟩
      | some next_id =>
        cases stack with
        | error error => exact .inl ⟨error, rfl⟩
        | ok stack => exact .inr ⟨stack.1, stack.2, rfl⟩
  obtain hrefused | ⟨context, stack_top, heq⟩ := hcases
  · exact .inl hrefused
  · rw [Inserts, heq]
    exact insert_task_cases context parent (some entry) none (some stack_top) self

/-- Waking a parent changes at most one task, from blocked to ready. -/
theorem wake_parent_apply (child_index : Slot) (self : Scheduler) :
    ∃ update : Slot → Task → Task,
      wake_parent child_index self = (.ok (), self.map_tasks update) ∧
      ∀ slot task, update slot task = task ∨
        (task.state = .Blocked ∧ update slot task = { task with state := .Ready }) := by
  have hnone : self.map_tasks (fun _ task => task) = self := by
    simp [map_tasks]
  simp only [wake_parent, modify_apply]
  cases (self.tasks child_index).bind Task.parent with
  | none => exact ⟨fun _ task => task, by rw [hnone], fun _ _ => .inl rfl⟩
  | some parent =>
    simp only
    cases self.position_of parent with
    | none => exact ⟨fun _ task => task, by rw [hnone], fun _ _ => .inl rfl⟩
    | some index =>
      refine ⟨fun slot task => if slot = index ∧ task.state = .Blocked
        then { task with state := .Ready } else task, ?_, ?_⟩
      · congr 1
        simp only [modify_task, put, map_tasks, Scheduler.mk.injEq, and_true]
        funext slot
        by_cases hslot : slot = index
        · subst slot
          simp
        · simp [hslot]
      · intro slot task
        by_cases h : slot = index ∧ task.state = .Blocked
        · exact .inr ⟨h.2, if_pos h⟩
        · exact .inl (if_neg h)

/-- The end of an exit, once the exit code is recorded and the parent is awake: the task leaves the
processor for good, or the kernel panics. -/
theorem finish_exit_apply {self : Scheduler} {current : Slot} {running : Task}
    (hrunning : self.tasks current = some running) (exit_code : Option UInt64) :
    let left := transition_current .Terminated (wake_parent current (self.put current (some { running with exit_code }))).2
    ∃ outcome, finish_exit current exit_code self = (outcome, left.2) ∧ (∀ error, outcome ≠ .err error) ∧
      (∀ id, left.1 = .ok id → outcome = .ok ()) ∧
      ∀ error, error ≠ .NoRunnableTasks → left.1 = .err error → outcome = .panic := by
  obtain ⟨update, heq, _⟩ := wake_parent_apply current (self.put current (some { running with exit_code }))
  simp only [finish_exit, bind_apply, get_apply, hrunning, expect_some, modify_apply, heq, attempt]
  rcases transition_current .Terminated _ with ⟨_ | error | _, after⟩
  · exact ⟨.ok (), rfl, nofun, fun _ _ => rfl, nofun⟩
  · by_cases hnone : error = .NoRunnableTasks
    · subst hnone
      exact ⟨.ok (), rfl, nofun, nofun, fun _ hother herror => absurd (Outcome.err.inj herror).symm hother⟩
    · refine ⟨.panic, ?_, nofun, nofun, fun _ _ _ => rfl⟩
      cases error <;> first | rfl | exact absurd rfl hnone
  · exact ⟨.panic, rfl, nofun, nofun, fun _ _ _ => rfl⟩

/-- The idle task goes on, or hands control back if nobody else is alive, or panics. -/
theorem idle_to_bootstrap_cases (now : UInt64) (self : Scheduler) :
    let woken := (wake_expired_sleepers now self).2
    idle_to_bootstrap now self = (.ok (), woken) ∨ woken.has_live_non_idle_tasks = false ∧
      (idle_to_bootstrap now self = (.panic, woken) ∨
        ∃ current idle, self.current = some current ∧ woken.tasks current = some idle ∧ idle.is_idle = true ∧
          idle_to_bootstrap now self =
            (.ok (), { woken.put current (some { idle with state := .Ready }) with current := none })) := by
  intro woken
  have hwoken : wake_expired_sleepers now self = (.ok (), woken) := rfl
  have hcurrent : woken.current = self.current := rfl
  simp only [idle_to_bootstrap, bind_apply, hwoken, get_apply]
  generalize woken = woken at hcurrent
  cases hlive : woken.has_live_non_idle_tasks with
  | true => exact .inl rfl
  | false =>
    refine .inr ⟨rfl, ?_⟩
    simp only [Bool.not_false, if_true, bind_apply, hcurrent]
    cases self.current with
    | none => exact .inl rfl
    | some current =>
      simp only [expect_some]
      cases hidle : woken.tasks current with
      | none => exact .inl rfl
      | some idle =>
        by_cases hflag : idle.is_idle = true
        · refine .inr ⟨current, idle, rfl, hidle, hflag, ?_⟩
          simp only [expect_some, hflag, assert_true, modify_apply]
        · exact .inl (by simp [assert, hflag])

end leafos.tasking.scheduler.Scheduler
