import LeafOS.Support.Dial
import LeafOS.Tasking.Sleepers

namespace leafos.tasking.scheduler

open leafos.memory leafos.tasking.fd Prog

variable {M : Type} {past : Scheduler} {id : TaskId} {slot : Slot} {operations : List (Operation M)} {kernel : Kernel M}

namespace Scheduler

section Selection

variable {self : Scheduler} {task : Task} {previous : Slot}

/-- A ready task other than the idle one is passed over only for such a task in front
of it. -/
theorem select_next_first (htask : self.tasks slot = some task) (hready : task.state = .Ready)
    (hordinary : task.is_idle = false) (start : Slot) :
    ∃ chosen selected, self.tasks chosen = some selected ∧ selected.state = .Ready ∧ selected.is_idle = false ∧
      Dial.gap start chosen ≤ Dial.gap start slot ∧
      select_next start self = (.ok selected.id,
        { self.put chosen (some { selected with state := .Running }) with current := some chosen }) := by
  have hpasses : selectable 0 (self.tasks slot) = true := by simp [selectable, htask, hready, hordinary]
  have hfound : ((scan start).find? fun slot => selectable 0 (self.tasks slot)).isSome :=
    List.find?_isSome.mpr ⟨slot, Dial.mem_around start slot, hpasses⟩
  obtain ⟨chosen, hchosen⟩ := Option.isSome_iff_exists.mp hfound
  have htest : selectable 0 (self.tasks chosen) = true := by simpa using List.find?_some hchosen
  obtain ⟨selected, hselected, hstate⟩ := (Option.any_eq_true _ _).mp htest
  simp only [Bool.and_eq_true, beq_iff_eq, Bool.or_eq_true, Bool.not_eq_true'] at hstate
  obtain ⟨hstate, hfirst | hsecond⟩ := hstate
  swap
  · cases hsecond.1
  refine ⟨chosen, selected, hselected, hstate, hfirst.2, Dial.find?_gap_le hchosen hpasses, ?_⟩
  simp only [select_next, bind_apply, modify_apply, get_apply, hchosen, Option.some_or, okOr_some, hselected]
  rfl

/-- Where the processor went, seen from a task that waits for it: to an ordinary task
in a slot nearer to it than the previous one. The nearest slot is its own. -/
structure Nearer (after : Scheduler) (waiting previous chosen : Slot) : Prop where
  current : after.current = some chosen
  ordinary : ∃ task, after.tasks chosen = some task ∧ task.is_idle = false
  gap : Dial.gap chosen waiting < Dial.gap previous waiting

variable (htask : self.tasks slot = some task)
include htask

variable (hready : task.state = .Ready)
include hready

theorem select_next_nearer (hordinary : task.is_idle = false) (hne : previous ≠ slot) :
    ∃ id after chosen, select_next (previous + 1) self = (.ok id, after) ∧ after.Nearer slot previous chosen := by
  obtain ⟨chosen, selected, _, _, hflag, hgap, heq⟩ := select_next_first htask hready hordinary (previous + 1)
  refine ⟨selected.id, _, chosen, heq, rfl, ⟨{ selected with state := .Running }, by simp [put], hflag⟩, ?_⟩
  exact lt_of_le_of_lt (Dial.gap_le_of_between hgap) (Dial.gap_succ hne)

theorem ne_of_running {running : Task}
    (hrunning : self.tasks previous = some running) (hstate : running.state = .Running) : previous ≠ slot := by
  rintro rfl
  obtain rfl := Option.mem_unique htask hrunning
  rw [hready] at hstate
  cases hstate

theorem GivesUp.nearer {call : SchedulerM TaskId} {next_state : TaskState} {wake_at : Task → Option UInt64}
    (hcall : self.GivesUp call next_state wake_at) (hordinary : task.is_idle = false)
    (hcurrent : self.current = some previous) :
    (∃ error, error ≠ .NoRunnableTasks ∧ call self = (.err error, self)) ∨
    ∃ id after chosen, call self = (.ok id, after) ∧ after.Nearer slot previous chosen := by
  obtain hrefused | ⟨current, running, hnow, hrunning, hstate, _, heq⟩ := hcall
  · exact .inl hrefused
  · right
    obtain rfl := Option.mem_unique hcurrent hnow
    have hne := ne_of_running htask hready hrunning hstate
    rw [heq]
    exact select_next_nearer (by simpa [put, hne.symm] using htask) hready hordinary hne

end Selection

section Exit

variable {self : Scheduler} {previous : Slot} {task : Task}

variable (hcurrent : self.current = some previous) (hne : slot ≠ previous) (htask : self.tasks slot = some task) (hordinary : task.is_idle = false)
include hcurrent hne htask hordinary

/-- An exit that spares the waiting task hands the processor on towards it. -/
theorem finish_exit_nearer (hwaits : task.state = .Ready ∨ task.state = .Terminated) (exit_code : Option UInt64)
    (hspared : ∀ later, (finish_exit previous exit_code self).2.tasks slot = some later → later.state ≠ .Terminated) :
    ((finish_exit previous exit_code self).1 = .panic ∧
      (finish_exit previous exit_code self).2.current = some previous) ∨
    ∃ chosen, (finish_exit previous exit_code self).1 = .ok () ∧
      (finish_exit previous exit_code self).2.Nearer slot previous chosen := by
  cases hrunning : self.tasks previous with
  | none =>
    left
    simp [finish_exit, hrunning, hcurrent]
  | some running =>
    obtain ⟨outcome, hleft, _, hgranted, hrefused⟩ := finish_exit_apply hrunning exit_code
    obtain ⟨update, hwoken, hupdate⟩ := wake_parent_apply previous (self.put previous (some { running with exit_code }))
    rw [hwoken] at hleft hgranted hrefused
    -- neither recording the code nor waking the parent changes the waiting task
    have hsame : ((self.put previous (some { running with exit_code })).map_tasks update).tasks slot = some task := by
      have hkept : update slot task = task := by
        obtain hkept | ⟨hblocked, _⟩ := hupdate slot task
        · exact hkept
        · rw [hblocked] at hwaits
          obtain hstate | hstate := hwaits <;> cases hstate
      simp [map_tasks, put, hne, htask, hkept]
    have hnow : ((self.put previous (some { running with exit_code })).map_tasks update).current = some previous :=
      hcurrent
    generalize (self.put previous (some { running with exit_code })).map_tasks update = ready
      at hsame hnow hleft hgranted hrefused
    obtain hready | hterminated := hwaits
    · obtain ⟨error, hother, hresult⟩ | ⟨id, after, chosen, hresult, hnearer⟩ :=
        (transition_current_cases .Terminated ready).nearer hsame hready hordinary hnow
      · left
        rw [hleft, hresult]
        exact ⟨hrefused error hother (by rw [hresult]), hnow⟩
      · right
        rw [hleft, hresult]
        exact ⟨chosen, hgranted id (by rw [hresult]), hnearer⟩
    · have hothers : Option.Rel (Task.Turns none fun _ => False) _ _ :=
        transition_current_others .Terminated fun hself => hne (Option.mem_unique hself hnow)
      obtain ⟨later, hlater, hturns⟩ := rel_some_left (hsame ▸ hothers)
      rw [hleft] at hspared
      exact absurd (hturns.terminated hterminated).1 (hspared later hlater)

/-- The same for the whole exit, which may terminate siblings first. -/
theorem exit_current_nearer (hready : task.state = .Ready) (exit_code : Option UInt64) (terminate_group : Bool)
    (hspared : ∀ later,
      (exit_current_with_status_and_group exit_code terminate_group self).2.tasks slot = some later →
      later.state ≠ .Terminated) :
    ((exit_current_with_status_and_group exit_code terminate_group self).1 = .panic ∧
      (exit_current_with_status_and_group exit_code terminate_group self).2.current = some previous) ∨
    ∃ chosen, (exit_current_with_status_and_group exit_code terminate_group self).1 = .ok () ∧
      (exit_current_with_status_and_group exit_code terminate_group self).2.Nearer slot previous chosen := by
  simp only [exit_current_with_status_and_group, bind_apply, get_apply, hcurrent, expect_some] at hspared ⊢
  cases terminate_group with
  | false => exact finish_exit_nearer hcurrent hne htask hordinary (.inl hready) exit_code hspared
  | true =>
    have hstays : (terminate_siblings previous exit_code self).2.current = some previous := by
      simp only [terminate_siblings, modify_apply]
      cases (self.tasks previous).bind Task.parent <;> exact hcurrent
    have hafter : ∃ later, (terminate_siblings previous exit_code self).2.tasks slot = some later ∧
        (later.state = .Ready ∨ later.state = .Terminated) ∧ later.is_idle = false := by
      simp only [terminate_siblings, modify_apply]
      cases (self.tasks previous).bind Task.parent with
      | none => exact ⟨task, htask, .inl hready, hordinary⟩
      | some parent =>
        simp only [map_tasks, htask, Option.map_some, Option.some.injEq, exists_eq_left']
        split
        · exact ⟨.inr rfl, hordinary⟩
        · exact ⟨.inl hready, hordinary⟩
    obtain ⟨later, hlater, hstate, hflag⟩ := hafter
    exact finish_exit_nearer hstays hne hlater hflag hstate exit_code hspared

end Exit

end Scheduler

/-- The slot that has the processor after a call that succeeded. -/
def chosen_slot (result : Outcome SchedulerError Unit × Kernel M) : Option Slot :=
  match result with
  | (.ok _, after) => after.global_scheduler.current
  | _ => none

/-- The slot that an operation selects, if it calls `transition_current` or
`sleep_current_until` and that succeeds. -/
def Operation.selected (operation : Operation M) (kernel : Kernel M) : Option Slot :=
  match operation with
  | .yield_current | .block_current | .terminate_current | .sleep_current_until _
  | .exit_current_with_status_and_group _ _ => chosen_slot (operation.execute kernel)
  | _ => none

/-- The slot holds the task with the given id, ready and not the idle one. -/
def Kernel.IsReady (kernel : Kernel M) (slot : Slot) (id : TaskId) : Prop :=
  ∃ task, kernel.global_scheduler.tasks slot = some task ∧ task.id = id ∧ task.state = .Ready ∧
    task.is_idle = false

/-- The task in the slot was spared: it is still ready, or has been selected. -/
def Kernel.IsSpared (kernel : Kernel M) (slot : Slot) : Prop :=
  ∃ task, kernel.global_scheduler.tasks slot = some task ∧ (task.state = .Ready ∨ task.state = .Running)

section Step

variable {previous : Slot}

/-- What an operation that may select does, seen from the waiting task. -/
def Handover (slot previous : Slot) (result : Outcome SchedulerError Unit × Kernel M) : Prop :=
  (result.1 ≠ .ok () ∧ result.2.global_scheduler.current = some previous) ∨
    ∃ chosen, result.1 = .ok () ∧ result.2.global_scheduler.Nearer slot previous chosen

theorem locked_handover {method : SchedulerM TaskId} (hcurrent : kernel.global_scheduler.current = some previous)
    (hmethod : (∃ error, error ≠ .NoRunnableTasks ∧
        method kernel.global_scheduler = (.err error, kernel.global_scheduler)) ∨
      ∃ id after chosen, method kernel.global_scheduler = (.ok id, after) ∧ after.Nearer slot previous chosen) :
    Handover slot previous ((discard (locked method) : KernelM M Unit) kernel) := by
  obtain ⟨error, _, heq⟩ | ⟨id, after, chosen, heq, hnearer⟩ := hmethod
  · have hresult : (discard (locked method) : KernelM M Unit) kernel = (.err error, kernel) :=
      discard_err (by rw [locked_apply, heq])
    rw [hresult]
    exact .inl ⟨nofun, hcurrent⟩
  · have hresult : (discard (locked method) : KernelM M Unit) kernel =
        (.ok (), { kernel with global_scheduler := after }) := discard_ok (by rw [locked_apply, heq])
    rw [hresult]
    exact .inr ⟨chosen, rfl, hnearer⟩

/-- A handover is what `Operation.selected` reports. -/
theorem Handover.selected {result : Outcome SchedulerError Unit × Kernel M}
    (hhandover : Handover slot previous result) :
    (chosen_slot result = none ∧ result.2.global_scheduler.current = some previous) ∨
      ∃ chosen, chosen_slot result = some chosen ∧ result.2.global_scheduler.Nearer slot previous chosen := by
  obtain ⟨outcome, after⟩ := result
  obtain ⟨hrefused, hstays⟩ | ⟨chosen, hgranted, hnearer⟩ := hhandover
  · cases outcome with
    | ok => exact absurd rfl hrefused
    | err error | panic => exact .inl ⟨rfl, hstays⟩
  · obtain rfl : outcome = .ok () := hgranted
    exact .inr ⟨chosen, hnearer.current, hnearer⟩

/-- While a task waits ready and some task has the processor, an operation leaves the
processor where it is or hands it on towards the waiting task. -/
theorem Operation.execute_nearer (operation : Operation M)
    (hinv : kernel.global_scheduler.Inv past) (hcurrent : kernel.global_scheduler.current = some previous)
    (hready : kernel.IsReady slot id) (hspared : (operation.execute kernel).2.IsSpared slot) :
    (operation.selected kernel = none ∧ (operation.execute kernel).2.global_scheduler.current = some previous) ∨
    ∃ chosen, operation.selected kernel = some chosen ∧
      (operation.execute kernel).2.global_scheduler.Nearer slot previous chosen := by
  obtain ⟨task, htask, _, hstate, hordinary⟩ := hready
  have hne : slot ≠ previous := by
    rintro rfl
    have hrunning := (hinv.task_fits htask).running.mpr hcurrent
    rw [hstate] at hrunning
    cases hrunning
  cases operation with
  | yield_current =>
    have hgives := Scheduler.transition_current_cases .Ready kernel.global_scheduler
    exact (locked_handover hcurrent (hgives.nearer htask hstate hordinary hcurrent)).selected
  | block_current =>
    have hgives := Scheduler.transition_current_cases .Blocked kernel.global_scheduler
    exact (locked_handover hcurrent (hgives.nearer htask hstate hordinary hcurrent)).selected
  | terminate_current =>
    have hgives := Scheduler.transition_current_cases .Terminated kernel.global_scheduler
    exact (locked_handover hcurrent (hgives.nearer htask hstate hordinary hcurrent)).selected
  | sleep_current_until deadline =>
    have hgives := Scheduler.sleep_current_until_cases deadline kernel.global_scheduler
    exact (locked_handover hcurrent (hgives.nearer htask hstate hordinary hcurrent)).selected
  | exit_current_with_status_and_group exit_code terminate_group =>
    refine Handover.selected ?_
    have hlive : ∀ later, (Scheduler.exit_current_with_status_and_group exit_code terminate_group
        kernel.global_scheduler).2.tasks slot = some later → later.state ≠ .Terminated := by
      intro later hlater hterminated
      obtain ⟨spared, htasks, hspared⟩ := hspared
      obtain rfl := Option.mem_unique hlater htasks
      rw [hterminated] at hspared
      obtain hfalse | hfalse := hspared <;> cases hfalse
    obtain ⟨hpanic, hstays⟩ | ⟨chosen, hgranted, hnearer⟩ :=
      Scheduler.exit_current_nearer hcurrent hne htask hordinary hstate exit_code terminate_group hlive
    · exact .inl ⟨by rw [execute, locked_apply, hpanic]; rintro ⟨⟩, hstays⟩
    · exact .inr ⟨chosen, hgranted, hnearer⟩
  | start =>
    refine .inl ⟨rfl, ?_⟩
    rw [execute, discard_snd, locked_apply, Scheduler.start]
    simp [hcurrent]
  | idle_to_bootstrap now =>
    refine .inl ⟨rfl, ?_⟩
    rw [execute, locked_apply, Scheduler.idle_to_bootstrap_live htask hordinary (by simp [hstate]) now]
    exact hcurrent
  | _ => exact .inl ⟨rfl, (Operation.execute_current _ hinv (by rintro ⟨⟩)).trans hcurrent⟩

end Step

/-- A choice of the scheduler: who had the processor, who got it, and whether that was
the idle task. -/
structure Selection where
  previous : Slot
  chosen : Slot
  idle : Bool
deriving DecidableEq

/-- The choices made in a sequence of operations, in order. -/
def selections : List (Operation M) → Kernel M → List Selection
  | [], _ => []
  | operation :: rest, kernel =>
    let after := (operation.execute kernel).2
    match kernel.global_scheduler.current, operation.selected kernel with
    | some previous, some chosen =>
      { previous, chosen, idle := (after.global_scheduler.tasks chosen).any Task.is_idle } :: selections rest after
    | _, _ => selections rest after

/-- The task stays ready throughout the operations, where the last one may have selected it. -/
def StaysReady (slot : Slot) (id : TaskId) : List (Operation M) → Kernel M → Prop
  | [], kernel => kernel.IsSpared slot
  | operation :: rest, kernel => kernel.IsReady slot id ∧ StaysReady slot id rest (operation.execute kernel).2

theorem StaysReady.spared (hstays : StaysReady slot id operations kernel) : kernel.IsSpared slot := by
  cases operations with
  | nil => exact hstays
  | cons operation rest =>
    obtain ⟨task, htask, _, hready, _⟩ := hstays.1
    exact ⟨task, htask, .inl hready⟩

/-- Every choice comes nearer to the waiting task than all earlier ones. -/
theorem selections_nearer {previous : Slot} (operations : List (Operation M)) (hinv : kernel.global_scheduler.Inv past)
    (hcurrent : kernel.global_scheduler.current = some previous) (hstays : StaysReady slot id operations kernel) :
    (∀ selection ∈ selections operations kernel, selection.idle = false ∧
      Dial.gap selection.chosen slot < Dial.gap selection.previous slot ∧
      Dial.gap selection.chosen slot < Dial.gap previous slot) ∧
    ((selections operations kernel).map Selection.chosen).Nodup := by
  induction operations generalizing kernel previous with
  | nil => exact ⟨nofun, List.nodup_nil⟩
  | cons operation rest ih =>
    obtain ⟨hready, hrest⟩ := hstays
    have hkept := operation.execute_inv hinv
    rw [selections]
    obtain ⟨hnone, hsame⟩ | ⟨chosen, hchosen, hnearer⟩ :=
      operation.execute_nearer hinv hcurrent hready hrest.spared
    · simp only [hcurrent, hnone]
      exact ih hkept hsame hrest
    · simp only [hcurrent, hchosen]
      obtain ⟨hlater, hnodup⟩ := ih hkept hnearer.current hrest
      obtain ⟨task, htask, hordinary⟩ := hnearer.ordinary
      refine ⟨?_, ?_⟩
      · intro selection hselection
        rcases List.mem_cons.mp hselection with rfl | hmem
        · exact ⟨by simp [htask, hordinary], hnearer.gap, hnearer.gap⟩
        · obtain ⟨hflag, hstep, hgap⟩ := hlater selection hmem
          exact ⟨hflag, hstep, hgap.trans hnearer.gap⟩
      · rw [List.map_cons, List.nodup_cons]
        refine ⟨?_, hnodup⟩
        intro hmem
        obtain ⟨selection, hselection, hsame⟩ := List.mem_map.mp hmem
        have hgap := (hlater selection hselection).2.2
        rw [hsame] at hgap
        exact lt_irrefl _ hgap

/-- Round robin never bypasses a ready task twice. While a task other than the idle one
stays ready and some task has the processor, every choice of the scheduler is for an
ordinary task in a slot strictly closer to the waiting task than the slot that gave the
processor up; so no slot is chosen twice, and the idle task is not chosen at all. -/
theorem round_robin_never_bypasses_twice (earlier : List (Operation M)) (objects : Objects) (memory : M) (cpu : Cpu)
    (kernel_root : PhysFrame) {kernel : Kernel M}
    (hkernel : kernel = (run earlier (.fresh objects memory cpu kernel_root)).2)
    (hcurrent : kernel.global_scheduler.current.isSome) (slot : Slot) (id : TaskId)
    (operations : List (Operation M)) (hstays : StaysReady slot id operations kernel) :
    (∀ selection ∈ selections operations kernel, selection.idle = false ∧
      Dial.gap selection.chosen slot < Dial.gap selection.previous slot) ∧
    ((selections operations kernel).map Selection.chosen).Nodup := by
  obtain ⟨⟨past, hinv⟩, _⟩ := run_spec earlier
    (.fresh objects memory cpu kernel_root) Scheduler.inv_new
  rw [← hkernel] at hinv
  obtain ⟨previous, hcurrent⟩ := Option.isSome_iff_exists.mp hcurrent
  obtain ⟨hnearer, hnodup⟩ := selections_nearer operations hinv hcurrent hstays
  exact ⟨fun selection hselection => ⟨(hnearer selection hselection).1, (hnearer selection hselection).2.1⟩, hnodup⟩

/-- Three kernel tasks are created and the first one starts. -/
def three_tasks : List (Operation Unit) :=
  [.create_kernel_task 0 none (.ok (.empty, 0)), .create_kernel_task 0 none (.ok (.empty, 0)),
    .create_kernel_task 0 none (.ok (.empty, 0)), .start]

def three_tasks_kernel : Kernel Unit :=
  (run three_tasks (.fresh ⟨[], [], [], .empty⟩ () ⟨0, 0, 0⟩ 0)).2

/-- The third task gets the processor after the second one. -/
theorem round_robin_never_bypasses_twice_sample :
    let chosen := selections [.yield_current, .yield_current] three_tasks_kernel
    chosen = [⟨0, 1, false⟩, ⟨1, 2, false⟩] ∧ (chosen.map Selection.chosen).Nodup := by
  intro chosen
  have hstates : ∀ operations ∈ ([[], [.yield_current]] : List (List (Operation Unit))),
      ((run operations three_tasks_kernel).2.global_scheduler.tasks 2).map
        (fun task => (task.id, task.state, task.is_idle)) = some (3, .Ready, false) := by decide +kernel
  have hready : ∀ operations ∈ ([[], [.yield_current]] : List (List (Operation Unit))),
      (run operations three_tasks_kernel).2.IsReady 2 3 := by
    intro operations hmem
    obtain ⟨task, htask, hfields⟩ := Option.map_eq_some_iff.mp (hstates operations hmem)
    simp only [Prod.mk.injEq] at hfields
    exact ⟨task, htask, hfields⟩
  have hlast : ((run [.yield_current, .yield_current] three_tasks_kernel).2.global_scheduler.tasks 2).map
      Task.state = some .Running := by decide +kernel
  obtain ⟨task, htask, hrunning⟩ := Option.map_eq_some_iff.mp hlast
  have hstays : StaysReady 2 3 [.yield_current, .yield_current] three_tasks_kernel :=
    ⟨hready [] (by simp), hready [.yield_current] (by simp), task, htask, .inr hrunning⟩
  exact ⟨by decide +kernel, (round_robin_never_bypasses_twice three_tasks _ _ _ _ rfl (by decide +kernel) 2 3
    [.yield_current, .yield_current] hstays).2⟩

end leafos.tasking.scheduler
