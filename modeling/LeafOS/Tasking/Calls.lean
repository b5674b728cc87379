import LeafOS.Support.Ensures
import LeafOS.Tasking.Activation
import LeafOS.Tasking.Runs

namespace leafos.tasking.scheduler

open leafos.memory leafos.tasking.fd Prog

variable {M : Type} {kernel after : Kernel M} (exit_code : Option UInt64) (terminate_group : Bool)
  {operation : Operation M}

/-- The scheduler's operations as the kernel's entry points use them: spawning keeps a slot
for the idle task and names the caller as the parent, and nothing starts without the idle
task. A task blocks inside a call only, which is a change of its own. -/
def Operation.Allowed (operation : Operation M) (self : Scheduler) : Prop :=
  match operation with
  | .create_task _ | .block_current | .terminate_current => False
  | .create_kernel_task _ parent _ => self.keeps_idle_slot = false ∧ parent = self.current_task
  | .create_user_task _ parent _ _ _ => self.keeps_idle_slot = false ∧ parent = self.current_task
  | .start => self.idle_index.isSome
  | _ => True

theorem Operation.Allowed.leaves {self : Scheduler} (hallowed : operation.Allowed self) :
    ¬ operation.leaves .Blocked := by
  cases operation <;> first | exact fun _ => hallowed | rintro ⟨⟩

/-- Creating a task leaves a slot for the idle task. -/
theorem Operation.Allowed.reserve {self : Scheduler} (hallowed : operation.Allowed self)
    (hcreates : operation.Creates) : self.keeps_idle_slot = false := by
  cases operation <;> first | exact hallowed.1 | exact hallowed.elim | exact hcreates.elim

/-- The task table once the running task's user stack pointer is saved. -/
def Kernel.saved (kernel : Kernel M) (slot : Slot) : Scheduler :=
  kernel.global_scheduler.modify_task slot fun task =>
    { task with user := task.user.map fun user => { user with syscall_user_rsp := kernel.cpu.user_rsp } }

theorem save_current_user_rsp_apply (slot : Slot) (kernel : Kernel M) :
    save_current_user_rsp slot kernel = (.ok (), { kernel with global_scheduler := kernel.saved slot }) := rfl

theorem Kernel.saved_inv (kernel : Kernel M) {past : Scheduler} (hinv : kernel.global_scheduler.Inv past) (slot : Slot) :
    (kernel.saved slot).Inv past := hinv.modify_task _ fun _ htask => hinv.keeps htask

namespace Scheduler

theorem finish_exit_ne_err (current : Slot) (exit_code : Option UInt64) (self : Scheduler)
    (error : SchedulerError) : (finish_exit current exit_code self).1 ≠ .err error := by
  cases htask : self.tasks current with
  | none => simp [finish_exit, htask]
  | some task =>
    obtain ⟨_, heq, hends, _⟩ := finish_exit_apply htask exit_code
    rw [heq]
    exact hends error

/-- Exiting succeeds or panics. -/
theorem exit_current_ne_err (self : Scheduler) (error : SchedulerError) :
    (exit_current_with_status_and_group exit_code terminate_group self).1 ≠ .err error := by
  simp only [exit_current_with_status_and_group, bind_apply, get_apply]
  cases self.current with
  | none => rintro ⟨⟩
  | some current =>
    simp only [expect_some]
    cases terminate_group with
    | false => exact finish_exit_ne_err current exit_code self error
    | true => exact finish_exit_ne_err current exit_code _ error

/-- Selection fails in one way only. -/
theorem select_next_err {start : Slot} {self : Scheduler} {error : SchedulerError}
    (herror : (select_next start self).1 = .err error) : error = .NoRunnableTasks := by
  obtain ⟨_, _, _, _, heq⟩ | heq := select_next_cases start self
  · rw [heq] at herror
    cases herror
  · rw [heq] at herror
    cases herror
    rfl

theorem GivesUp.refused {self : Scheduler} {call : SchedulerM TaskId} {next_state : TaskState}
    {wake_at : Task → Option UInt64} (hcall : self.GivesUp call next_state wake_at) (error : SchedulerError)
    (hne : error ≠ .NoRunnableTasks) (herror : (call self).1 = .err error) : (call self).2 = self := by
  obtain ⟨_, _, heq⟩ | ⟨_, _, _, _, _, _, heq⟩ := hcall
  · rw [heq]
  · rw [heq] at herror
    exact absurd (select_next_err herror) hne

/-- After a successful installation there is an idle task. -/
theorem install_idle_some {entry : KernelTaskEntry} {stack : KernelStack}
    {self after : Scheduler} (hinstalled : install_idle entry stack self = (.ok (), after)) :
    after.idle_index.isSome := by
  obtain ⟨_, _, hget, hinstalled⟩ := bind_eq_ok_iff.mp hinstalled
  cases hget
  split at hinstalled
  · simp only [bind_eq_ok_iff] at hinstalled
    obtain ⟨_, _, _, _, _, _, _, _, _, _, _, _, _, _, _, hlast⟩ := hinstalled
    cases hlast
    rfl
  · rename_i hidle
    cases hinstalled
    rwa [Option.isNone_iff_eq_none, ← ne_eq, ← Option.isSome_iff_ne_none] at hidle

theorem transition_current_ne_panic (next_state : TaskState) (self : Scheduler) :
    (transition_current next_state self).1 ≠ .panic := by
  obtain ⟨error, _, heq⟩ | ⟨current, task, _, _, _, _, heq⟩ := transition_current_cases next_state self
  · rw [heq]
    nofun
  · rw [heq]
    obtain ⟨_, _, _, _, hselect⟩ | hselect := select_next_cases (current + 1)
      ({ self.put current (some { task with
          state := next_state
          wake_at := if next_state ≠ .Sleeping then none else task.wake_at }) with current := none })
    · rw [hselect]
      nofun
    · rw [hselect]
      nofun

end Scheduler

/-- Taking a task off the processor succeeds, is refused without effect, or panics. -/
theorem leave_processor_cases (method : SchedulerM TaskId) (kernel : Kernel M)
    (hrefused : ∀ error, error ≠ .NoRunnableTasks → (method kernel.global_scheduler).1 = .err error →
      (method kernel.global_scheduler).2 = kernel.global_scheduler) :
    leave_processor method kernel =
        (.ok (), { kernel with global_scheduler := (method kernel.global_scheduler).2 }) ∨
      (∃ error, leave_processor method kernel = (.err error, kernel)) ∨
      leave_processor method kernel =
        (.panic, { kernel with global_scheduler := (method kernel.global_scheduler).2 }) := by
  simp only [leave_processor, bind_apply, attempt, locked_apply]
  generalize method kernel.global_scheduler = result at hrefused
  obtain ⟨outcome, next⟩ := result
  cases outcome with
  | ok id => exact .inl rfl
  | panic => exact .inr (.inr rfl)
  | err error =>
    by_cases hnone : error = .NoRunnableTasks
    · subst hnone
      exact .inl rfl
    · obtain rfl := hrefused error hnone rfl
      refine .inr (.inl ⟨error, ?_⟩)
      cases error <;> first | exact absurd rfl hnone | rfl

/-- A task that was taken off the processor has not been refused. -/
theorem leave_processor_ok {method : SchedulerM TaskId} (hleave : leave_processor method kernel = (.ok (), after)) :
    after = { kernel with global_scheduler := (method kernel.global_scheduler).2 } ∧
      ∀ error, (method kernel.global_scheduler).1 = .err error → error = .NoRunnableTasks := by
  simp only [leave_processor, bind_apply, attempt, locked_apply] at hleave
  generalize method kernel.global_scheduler = result at hleave ⊢
  obtain ⟨outcome, next⟩ := result
  cases outcome with
  | ok id =>
    cases hleave
    exact ⟨rfl, (by rintro _ ⟨⟩)⟩
  | panic => cases hleave
  | err error =>
    cases error <;> cases hleave
    exact ⟨rfl, fun _ h => (Outcome.err.inj h).symm⟩

theorem leave_processor_ne_panic {method : SchedulerM TaskId} {kernel : Kernel M}
    (hmethod : (method kernel.global_scheduler).1 ≠ .panic) : (leave_processor method kernel).1 ≠ .panic := by
  simp only [leave_processor, bind_apply, attempt, locked_apply]
  generalize method kernel.global_scheduler = result at hmethod
  rcases result with ⟨id | error | _, after⟩
  · rintro ⟨⟩
  · cases error <;> rintro ⟨⟩
  · exact absurd rfl hmethod

/-- The operations that concern scheduling only: they bring no address space and take none away. -/
def Operation.Schedules (operation : Operation M) : Prop :=
  match operation with
  | .create_user_task _ _ _ _ _ | .reap_terminated _ _ => False
  | _ => True

theorem Operation.Schedules.space (hschedules : operation.Schedules) : operation.space = none := by
  cases operation <;> first | exact hschedules.elim | rfl

theorem Operation.Schedules.reaps (hschedules : operation.Schedules) : ¬ operation.reaps := by
  cases operation <;> first | exact hschedules.elim | exact id

theorem Operation.Schedules.execute (hschedules : operation.Schedules) (kernel : Kernel M) :
    (operation.execute kernel).2 =
      { kernel with global_scheduler := (operation.execute kernel).2.global_scheduler } := by
  cases operation <;> first | exact hschedules.elim | rfl | simp only [Operation.execute, discard_snd, locked_apply]

/-- An invariant of the kernel in stages. `S` holds between calls, `R` from when a call has
the running task's registers in its record until the next context is activated, and `B`
after a panic. -/
structure Discipline (S R B : Kernel M → Prop) : Prop where
  saves : ∀ {kernel slot}, S kernel → kernel.global_scheduler.current = some slot →
    R { kernel with global_scheduler := kernel.saved slot } ∧ S { kernel with global_scheduler := kernel.saved slot }
  rests : ∀ {kernel}, S kernel → kernel.global_scheduler.current = none → R kernel
  stays : ∀ {kernel} (operation : Operation M), operation.Allowed kernel.global_scheduler → operation.Schedules →
    S kernel → (operation.Switches →
      (operation.execute kernel).2.global_scheduler.current = kernel.global_scheduler.current) →
    S (operation.execute kernel).2
  selects : ∀ {kernel} (operation : Operation M), operation.Allowed kernel.global_scheduler → operation.Schedules →
    R kernel → R (operation.execute kernel).2
  activates : Ends R activate_selected (fun _ => S) (fun _ => S) B
  halts : ∀ {kernel}, S kernel → B kernel
  breaks : ∀ {kernel} (operation : Operation M), operation.Allowed kernel.global_scheduler → operation.Schedules →
    S kernel → B (operation.execute kernel).2

namespace Discipline

variable {S R B : Kernel M → Prop} (hrules : Discipline S R B) {P : Kernel M → Prop} (operation : Operation M)
  {α : Type} {method : SchedulerM α}

/-- A property that the pieces of every call keep. -/
theorem of_invariant (hsave : ∀ {kernel slot}, P kernel → kernel.global_scheduler.current = some slot →
      P { kernel with global_scheduler := kernel.saved slot })
    (hoperation : ∀ {kernel} (operation : Operation M), operation.Allowed kernel.global_scheduler →
      operation.Schedules → P kernel → P (operation.execute kernel).2)
    (hactivate : ∀ {kernel}, P kernel → P (activate_selected kernel).2) : Discipline P P P where
  saves := fun hkernel hcurrent => ⟨hsave hkernel hcurrent, hsave hkernel hcurrent⟩
  rests := fun hkernel _ => hkernel
  stays := fun operation hallowed hschedules hkernel _ => hoperation operation hallowed hschedules hkernel
  selects := hoperation
  activates := .of_snd fun _ => hactivate
  halts := id
  breaks := hoperation

include hrules

theorem save (kernel : Kernel M) (current : Slot) {E : SchedulerError → Kernel M → Prop} :
    Ends (fun state => kernel.global_scheduler.current = some current ∧ kernel = state ∧ S state)
      (save_current_user_rsp current) (fun _ state => R state ∧ S state) E B := by
  constructor
  rintro _ ⟨hcurrent, rfl, hsettled⟩
  exact hrules.saves hsettled hcurrent

section Methods

variable (hmethod : ∀ kernel, (operation.execute kernel).2 = (scheduler.locked method kernel).2)
  (hallowed : ∀ self, operation.Allowed self) (hschedules : operation.Schedules)
include hmethod hschedules

/-- A method of the scheduler that leaves the running task in place. -/
theorem locked (hstays : ¬ operation.Switches) :
    Ends (fun kernel => operation.Allowed kernel.global_scheduler ∧ S kernel) (scheduler.locked method : KernelM M α)
      (fun _ => S) (fun _ => S) B := by
  constructor
  rintro kernel ⟨hallowed, hsettled⟩
  have hafter := hrules.stays operation hallowed hschedules hsettled fun hswitches => absurd hswitches hstays
  have hbroken := hrules.breaks operation hallowed hschedules hsettled
  rw [hmethod] at hafter hbroken
  generalize (scheduler.locked method kernel : Outcome SchedulerError α × Kernel M) = result at hafter hbroken ⊢
  rcases result with ⟨_ | _ | _, after⟩
  · exact hafter
  · exact hafter
  · exact hbroken

include hallowed

/-- The same for one that can be called in every state. -/
theorem call (hstays : ¬ operation.Switches) :
    Ends S (scheduler.locked method : KernelM M α) (fun _ => S) (fun _ => S) B :=
  (hrules.locked operation hmethod hschedules hstays).pre fun _ hsettled => ⟨hallowed _, hsettled⟩

/-- A method that takes the running task off the processor or fails without effect. -/
theorem leave (hfails : ∀ self error, (method self).1 = .err error → (method self).2 = self) :
    Ends (fun kernel => R kernel ∧ S kernel) (scheduler.locked method : KernelM M α) (fun _ => R) (fun _ => S) B := by
  constructor
  rintro kernel ⟨hready, hsettled⟩
  have hafter := hrules.selects operation (hallowed _) hschedules hready
  have hbroken := hrules.breaks operation (hallowed _) hschedules hsettled
  have hrefused := hfails kernel.global_scheduler
  rw [hmethod, locked_apply] at hafter hbroken
  rw [locked_apply]
  generalize method kernel.global_scheduler = result at hafter hbroken hrefused ⊢
  rcases result with ⟨_ | error | _, next⟩
  · exact hafter
  · obtain rfl := hrefused error rfl
    exact hsettled
  · exact hbroken

end Methods

theorem yield_now : Ends S (scheduler.yield_now : KernelM M Unit) (fun _ => S) (fun _ => S) B := by
  refine .bind .get fun kernel => .bind (.okOr fun _ hstate _ => hstate.2) fun current => ?_
  refine .bind (hrules.save kernel current) fun _ => .bind (hrules.leave .yield_current (discard_snd _)
    (fun _ => trivial) trivial fun self error herror => ?_) fun _ => hrules.activates
  obtain ⟨_, _, heq⟩ | ⟨_, _, _, heq, _⟩ := Scheduler.transition_current_ready self
  · rw [heq]
  · rw [heq] at herror
    cases herror

theorem leave_processor {method : SchedulerM TaskId}
    (hmethod : ∀ kernel, (operation.execute kernel).2 = (scheduler.locked method kernel).2)
    (hallowed : ∀ self, operation.Allowed self) (hschedules : operation.Schedules)
    (hrefused : ∀ self error, error ≠ .NoRunnableTasks → (method self).1 = .err error → (method self).2 = self) :
    Ends (fun kernel => R kernel ∧ S kernel) (scheduler.leave_processor method : KernelM M Unit) (fun _ => R)
      (fun _ => S) B := by
  constructor
  rintro kernel ⟨hready, hsettled⟩
  have hafter := hrules.selects operation (hallowed _) hschedules hready
  have hbroken := hrules.breaks operation (hallowed _) hschedules hsettled
  rw [hmethod, locked_apply] at hafter hbroken
  obtain heq | ⟨error, heq⟩ | heq := leave_processor_cases method kernel (hrefused _)
  · rw [heq]
    exact hafter
  · rw [heq]
    exact hsettled
  · rw [heq]
    exact hbroken

theorem sleep_ticks (now duration : UInt64) :
    Ends S (scheduler.sleep_ticks now duration : KernelM M Unit) (fun _ => S) (fun _ => S) B := by
  unfold scheduler.sleep_ticks
  split
  · exact .skip
  refine .bind .get fun kernel => .bind (.okOr fun _ hstate _ => hstate.2) fun current => ?_
  exact .bind (hrules.save kernel current) fun _ => .bind (hrules.leave_processor (.sleep_current_until (now + duration))
    (discard_snd _) (fun _ => trivial) trivial fun _ => (Scheduler.sleep_current_until_cases _ _).refused) fun _ =>
    hrules.activates

theorem exit_current :
    Ends S (exit_current_with_status_and_group exit_code terminate_group : KernelM M Unit) (fun _ => S)
      (fun _ => S) B := by
  refine .bind .get fun kernel => .bind (.expect fun _ hstate _ => hrules.halts hstate.2) fun current => ?_
  exact .bind (hrules.save kernel current) fun _ => .bind (hrules.leave
    (.exit_current_with_status_and_group exit_code terminate_group) (fun _ => rfl) (fun _ => trivial) trivial
    fun self error herror => absurd herror (Scheduler.exit_current_ne_err exit_code terminate_group self error))
    fun _ => hrules.activates

/-- The timer saves nothing, so there must be nothing to save. -/
theorem preempt_from_timer (now : UInt64) :
    Ends (fun kernel => R kernel ∧ S kernel) (scheduler.preempt_from_timer now : KernelM M Unit) (fun _ => S)
      (fun _ => S) B := by
  constructor
  rintro kernel ⟨hready, hsettled⟩
  simp only [scheduler.preempt_from_timer, bind_apply, get_apply]
  cases hcurrent : kernel.global_scheduler.current with
  | none => exact hsettled
  | some current =>
    have hsaved := hrules.selects (.wake_expired_sleepers now) trivial trivial hready
    have hwoken := hrules.stays (.wake_expired_sleepers now) trivial trivial hsettled fun _ => rfl
    have hstays : (scheduler.locked (Scheduler.wake_expired_sleepers now) kernel).2.global_scheduler.current =
      some current := hcurrent
    simp only [Operation.execute, bind_apply] at hsaved hwoken ⊢
    generalize hwake : scheduler.locked (Scheduler.wake_expired_sleepers now) kernel = result at hsaved hwoken hstays ⊢
    obtain ⟨woken, middle⟩ := result
    obtain rfl : woken = .ok () := (congrArg Prod.fst hwake).symm
    have hselected := hrules.selects .yield_current trivial trivial hsaved
    have hkept := hrules.stays .yield_current trivial trivial hwoken
    simp only [Operation.execute, discard_snd, attempt, locked_apply, Scheduler.yield_current] at hselected hkept ⊢
    obtain ⟨error, hne, heq⟩ | ⟨id, after, next, heq, _, hnext⟩ :=
      Scheduler.transition_current_ready middle.global_scheduler
    · simp only [heq]
      cases error <;> first | exact absurd rfl hne | exact hrules.halts hwoken
    · simp only [heq] at hselected hkept ⊢
      simp only [bind_apply, get_apply, hnext]
      by_cases hsame : next = current
      · rw [if_pos hsame]
        exact hkept fun _ => by rw [hnext, hsame, hstays]
      · rw [if_neg hsame]
        exact hrules.activates.ends _ hselected

theorem spawn (entry : KernelTaskEntry) (stack : KernelStack) :
    Ends S (scheduler.spawn entry stack : KernelM M TaskId) (fun _ => S) (fun _ => S) B := by
  refine .bind .get fun kernel => ?_
  split
  · exact Ends.throw.pre fun _ hstate => hstate.2
  · rename_i hreserve
    refine (hrules.locked (.create_kernel_task entry kernel.global_scheduler.current_task stack) (discard_snd _)
      trivial (by rintro ⟨⟩)).pre ?_
    rintro _ ⟨rfl, hsettled⟩
    exact ⟨⟨by simpa using hreserve, rfl⟩, hsettled⟩

theorem start : Ends (fun kernel : Kernel M => kernel.global_scheduler.idle_index.isSome ∧ S kernel)
    (scheduler.locked Scheduler.start : KernelM M TaskId) (fun _ => R) (fun _ => S) B := by
  constructor
  rintro kernel ⟨hidle, hsettled⟩
  cases hcurrent : kernel.global_scheduler.current with
  | some current =>
    have hrefused : Scheduler.start kernel.global_scheduler = (.err .AlreadyStarted, kernel.global_scheduler) := by
      simp [Scheduler.start, hcurrent]
    rw [locked_apply, hrefused]
    exact hsettled
  | none =>
    have hstart : Scheduler.start kernel.global_scheduler = Scheduler.select_next 0 kernel.global_scheduler := by
      simp [Scheduler.start, hcurrent]
    have hselected := hrules.selects .start hidle trivial (hrules.rests hsettled hcurrent)
    rw [Operation.execute, discard_snd, locked_apply, hstart] at hselected
    rw [locked_apply, hstart]
    obtain ⟨_, _, _, _, heq⟩ | heq := Scheduler.select_next_cases 0 kernel.global_scheduler
    · rw [heq] at hselected ⊢
      exact hselected
    · have hsame : { kernel.global_scheduler with current := none } = kernel.global_scheduler := by rw [← hcurrent]
      rw [heq, hsame]
      exact hsettled

theorem run_tasks (idle_entry : KernelTaskEntry) (stack : KernelStack) :
    Ends S (scheduler.run_tasks idle_entry stack : KernelM M Unit) (fun _ => S) (fun _ => S) B := by
  refine .bind ⟨fun kernel hsettled => ?_⟩ fun _ => .bind hrules.start fun _ => hrules.activates
  have hafter := hrules.call (.install_idle idle_entry stack) (fun _ => rfl) (fun _ => trivial) trivial
    (by rintro ⟨⟩) |>.ends kernel hsettled
  have hidle := @Scheduler.install_idle_some idle_entry stack kernel.global_scheduler
  rw [locked_apply] at hafter ⊢
  generalize Scheduler.install_idle idle_entry stack kernel.global_scheduler = result at hafter hidle ⊢
  rcases result with ⟨_ | _ | _, installed⟩
  · exact ⟨hidle rfl, hafter⟩
  · exact hafter
  · exact hafter

theorem leave_run_tasks : Ends S (scheduler.leave_run_tasks : KernelM M Unit) (fun _ => S) (fun _ => S) B :=
  hrules.call .remove_idle (fun _ => rfl) (fun _ => trivial) trivial (by rintro ⟨⟩)

/-- The idle task looks for work, and hands control back if nobody will have any. -/
theorem idle_task_entry (now : UInt64) (hsettled : ∀ kernel, P kernel → S kernel)
    (hleft : ∀ kernel after, P kernel → Scheduler.idle_to_bootstrap now kernel.global_scheduler = (.ok (), after) →
      after.current = none → R { kernel with global_scheduler := after }) :
    Ends P (scheduler.idle_task_entry now : KernelM M Unit) (fun _ => S) (fun _ => S) B := by
  have hfirst : Ends P (scheduler.locked (Scheduler.idle_to_bootstrap now) : KernelM M Unit)
      (fun _ state => S state ∨ state.global_scheduler.current = none ∧ R state) (fun _ => S) B := by
    constructor
    intro kernel hkernel
    have hstays := hrules.stays (.idle_to_bootstrap now) trivial trivial (hsettled kernel hkernel)
    have hbroken := hrules.breaks (.idle_to_bootstrap now) trivial trivial (hsettled kernel hkernel)
    simp only [Operation.execute, locked_apply] at hstays hbroken ⊢
    obtain heq | ⟨_, heq | ⟨_, _, _, _, _, heq⟩⟩ := Scheduler.idle_to_bootstrap_cases now kernel.global_scheduler
    · rw [heq] at hstays ⊢
      exact .inl (hstays fun _ => rfl)
    · rw [heq] at hbroken ⊢
      exact hbroken
    · have hafter := hleft kernel _ hkernel heq rfl
      rw [heq]
      exact .inr ⟨rfl, hafter⟩
  refine .bind hfirst fun _ => .bind .get fun kernel => ?_
  cases hcurrent : kernel.global_scheduler.current with
  | none =>
    constructor
    rintro _ ⟨rfl, hstate⟩
    have hactivate : (activate_task_address_space none : KernelM M Unit) kernel = activate_selected kernel := by
      simp only [activate_selected, bind_apply, get_apply, hcurrent]
    dsimp only
    rw [hactivate]
    exact hrules.activates.ends kernel (hstate.elim (fun hstate => hrules.rests hstate hcurrent) And.right)
  | some current =>
    refine .bind ((hrules.yield_now.pre ?_).attempt) fun result => ?_
    · rintro _ ⟨rfl, hstate | ⟨hnobody, _⟩⟩
      · exact hstate
      · rw [hcurrent] at hnobody
        cases hnobody
    · cases result <;> exact .skip

section Blocking

variable (hblock : ∀ {kernel}, R kernel → R ((Operation.block_current : Operation M).execute kernel).2)
  (hstack : ∀ {kernel} (slot : Slot) (call : BlockedCall), R kernel → R { kernel with
    global_scheduler := kernel.global_scheduler.modify_task slot fun task => { task with _stack := some call } })

include hblock hstack

theorem block_now (call : BlockedCall) :
    Ends S (scheduler.block_now call : KernelM M Unit) (fun _ => S) (fun _ => S) B := by
  refine .bind .get fun kernel => .bind (.okOr fun _ hstate _ => hstate.2) fun current => ?_
  refine .bind (hrules.save kernel current) fun _ => .bind (?_ : Ends _ _ (fun _ => R) _ B) fun _ =>
    .bind (Ends.modify.pre fun _ hready => hstack current call hready) fun _ => hrules.activates
  constructor
  rintro middle ⟨hready, hsettled⟩
  have hafter := hblock hready
  have hpanic := Scheduler.transition_current_ne_panic .Blocked middle.global_scheduler
  rw [Operation.execute, discard_snd, locked_apply] at hafter
  obtain heq | ⟨error, heq⟩ | heq := leave_processor_cases (Scheduler.transition_current .Blocked) middle
    (Scheduler.transition_current_cases .Blocked _).refused
  · rw [heq]
    exact hafter
  · rw [heq]
    exact hsettled
  · exact absurd (congrArg Prod.fst heq) (leave_processor_ne_panic hpanic)

/-- A caller that finds nobody to give the processor to leaves it all the same. -/
theorem block_in_wait (hstuck : ∀ {kernel}, R kernel → S kernel →
      (Scheduler.transition_current .Blocked kernel.global_scheduler).1 = .err .NoRunnableTasks →
      S ((Operation.block_current : Operation M).execute kernel).2)
    (kernel : Kernel M) (current : Slot) (child : Option TaskId) :
    Ends (fun state => kernel.global_scheduler.current = some current ∧ kernel = state ∧ S state)
      (scheduler.block_in_wait current child) (fun _ => S) (fun _ => S) B := by
  refine .bind (hrules.save kernel current) fun _ => .bind (?_ : Ends _ _ (fun _ => R) _ B) fun _ =>
    .bind (Ends.modify.pre fun _ hready => hstack current (.wait_for_child child) hready) fun _ => hrules.activates
  constructor
  rintro middle ⟨hready, hsettled⟩
  have hafter := hblock hready
  have hstuck := hstuck hready hsettled
  have hpanic := Scheduler.transition_current_ne_panic .Blocked middle.global_scheduler
  have hrefused := (Scheduler.transition_current_cases .Blocked middle.global_scheduler).refused
  rw [Operation.execute, discard_snd, locked_apply] at hafter hstuck
  rw [locked_apply]
  simp only [Scheduler.block_current] at hafter hstuck
  generalize Scheduler.transition_current .Blocked middle.global_scheduler = result at *
  rcases result with ⟨_ | error | _, next⟩
  · exact hafter
  · by_cases hnobody : error = .NoRunnableTasks
    · subst hnobody
      exact hstuck rfl
    · obtain rfl : next = middle.global_scheduler := hrefused error hnobody rfl
      exact hsettled
  · exact absurd rfl hpanic

end Blocking

end Discipline

end leafos.tasking.scheduler
