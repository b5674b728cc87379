import LeafOS.Tasking.KernelSteps
import LeafOS.Tasking.Rescheduled

namespace leafos.tasking.scheduler

open leafos.memory leafos.tasking.fd Prog

variable {M : Type}

/-- The address space of the task in a slot. -/
def Scheduler.space_of (self : Scheduler) (slot : Slot) : Option AddressSpace :=
  (self.tasks slot).bind fun task => task.user.map UserTask.address_space

/-- The root of the context that has the processor: that of the current user task, or
the kernel's. -/
def active_root (kernel : Kernel M) : Option PhysFrame :=
  match kernel.global_scheduler.current.bind kernel.global_scheduler.space_of with
  | some space => space.root
  | none => some kernel.kernel_root

namespace Scheduler

variable {self before after : Scheduler} {blocks : Bool} {slot : Slot} {clock : Option UInt64}
  {leaves : TaskState → Prop} {task : Task} {past : Scheduler}

/-- The task table together with its idle task: it has no address space, and it is
there as long as any task runs. -/
structure Orderly (scheduler : Scheduler) : Prop where
  inv : scheduler.Inv scheduler
  idle : ∀ slot, scheduler.idle_index = some slot → scheduler.space_of slot = none
  started : scheduler.current.isSome → scheduler.idle_index.isSome

theorem space_of_put (self : Scheduler) (slot other : Slot) (task : Option Task) :
    (self.put slot task).space_of other =
      if other = slot then task.bind fun task => task.user.map UserTask.address_space
      else self.space_of other := by
  rw [space_of, put_tasks]
  split <;> rfl

theorem Rescheduled.space_of (hsame : before.Rescheduled blocks after) : after.space_of = before.space_of := by
  funext slot
  have htasks := hsame.tasks slot
  unfold Scheduler.space_of
  revert htasks
  generalize before.tasks slot = first, after.tasks slot = second
  intro htasks
  cases htasks with
  | none => rfl
  | some hchanged => exact hchanged.space

theorem Orderly.rescheduled (horderly : before.Orderly) (hsame : before.Rescheduled blocks after)
    (hinv : after.Inv before) (hstarted : after.current.isSome → before.idle_index.isSome) : after.Orderly where
  inv := hinv.restart
  idle := by
    rw [hsame.idle_index, hsame.space_of]
    exact horderly.idle
  started := fun hsome => by
    rw [hsame.idle_index]
    exact hstarted hsome

theorem Moves.space_of (hmoves : Moves clock leaves before after) : after.space_of = before.space_of :=
  (hmoves.rescheduled fun _ => rfl : before.Rescheduled true after).space_of

theorem Orderly.moved (horderly : before.Orderly) (hmoves : Moves clock leaves before after)
    (hstarted : after.current.isSome → before.idle_index.isSome) : after.Orderly :=
  horderly.rescheduled (hmoves.rescheduled fun _ => rfl : before.Rescheduled true after)
    (hmoves.inv horderly.inv) hstarted

theorem mem_scan (start slot : Slot) : slot ∈ scan start := by
  have hcancel : ∀ start slot : Slot, start + (slot - start) = slot := by decide
  exact List.mem_map.mpr ⟨slot - start, List.mem_finRange _, hcancel start slot⟩

/-- Selection finds a task whenever one is ready. -/
theorem select_next_ready (htask : self.tasks slot = some task) (hready : task.state = .Ready)
    (start : Slot) : (select_next start self).1 ≠ .err .NoRunnableTasks := by
  have hselectable : ∃ pass, (pass = 0 ∨ pass = 1) ∧ selectable pass (self.tasks slot) = true := by
    cases hidle : task.is_idle with
    | false => exact ⟨0, .inl rfl, by simp [selectable, htask, hready, hidle]⟩
    | true => exact ⟨1, .inr rfl, by simp [selectable, htask, hready, hidle]⟩
  obtain ⟨pass, hpass, hselectable⟩ := hselectable
  have hfound : (((scan start).find? fun slot => selectable 0 (self.tasks slot)).or
      ((scan start).find? fun slot => selectable 1 (self.tasks slot))).isSome := by
    rw [Option.isSome_or, Bool.or_eq_true, List.find?_isSome, List.find?_isSome]
    obtain rfl | rfl := hpass
    · exact .inl ⟨slot, mem_scan start slot, hselectable⟩
    · exact .inr ⟨slot, mem_scan start slot, hselectable⟩
  obtain ⟨found, hfound⟩ := Option.isSome_iff_exists.mp hfound
  obtain ⟨chosen, task', _, _, heq⟩ | heq := select_next_cases start self
  · rw [heq]
    nofun
  · simp only [select_next, bind_apply, modify_apply, get_apply, hfound, okOr_some] at heq
    cases htask' : self.tasks found with
    | some task' =>
      simp only [htask', okOr_some] at heq
      cases heq
    | none =>
      obtain hfirst | ⟨_, hsecond⟩ := Option.or_eq_some_iff.mp hfound
      · have := List.find?_some hfirst
        simp [selectable, htask'] at this
      · have := List.find?_some hsecond
        simp [selectable, htask'] at this

/-- A task that yields is itself ready, so somebody is selected. -/
theorem transition_current_ready (self : Scheduler) :
    (∃ error, error ≠ .NoRunnableTasks ∧ transition_current .Ready self = (.err error, self)) ∨
    ∃ id after next, transition_current .Ready self = (.ok id, after) ∧ self.current.isSome ∧
      after.current = some next := by
  obtain ⟨error, hne, heq⟩ | ⟨current, task, hcurrent, htask, _, _, heq⟩ := transition_current_cases .Ready self
  · exact .inl ⟨error, hne, heq⟩
  · right
    have hready : ({ self.put current (some { task with state := .Ready, wake_at := none }) with
        current := none } : Scheduler).tasks current =
          some { task with state := .Ready, wake_at := none } := by
      simp [put]
    have hselected := select_next_ready hready rfl (current + 1)
    obtain ⟨slot, chosen, _, _, hselect⟩ | hselect := select_next_cases (current + 1)
      ({ self.put current (some { task with state := .Ready, wake_at := none }) with current := none })
    · exact ⟨chosen.id, _, slot, heq.trans hselect, by simp [hcurrent], rfl⟩
    · rw [hselect] at hselected
      exact absurd rfl hselected

/-- While another task runs, the idle task is ready. -/
theorem Inv.idle_ready (hinv : self.Inv past) (hstarted : self.current.isSome → self.idle_index.isSome)
    {current : Slot} (hcurrent : self.current = some current) (htask : self.tasks current = some task)
    (hordinary : task.is_idle = false) :
    ∃ index idle, index ≠ current ∧ self.tasks index = some idle ∧ idle.state = .Ready := by
  obtain ⟨index, hindex⟩ := Option.isSome_iff_exists.mp (hstarted (by simp [hcurrent]))
  cases hfound : self.tasks index with
  | none => exact absurd hindex (hinv.empty_slot hfound).2
  | some idle =>
    have hfits := hinv.task_fits hfound
    have hflag := hfits.idle.mpr hindex
    have hne : index ≠ current := by
      rintro rfl
      obtain rfl := Option.mem_unique htask hfound
      rw [hordinary] at hflag
      cases hflag
    refine ⟨index, idle, hne, hfound, (hfits.idle_state hflag).resolve_right fun hrunning => ?_⟩
    have hsame := hfits.running.mp hrunning
    rw [hcurrent] at hsame
    exact hne (Option.some.inj hsame).symm

/-- Whoever leaves the processor finds somebody to give it to. -/
theorem Inv.gives_up (hinv : self.Inv past) (hstarted : self.current.isSome → self.idle_index.isSome)
    {call : SchedulerM TaskId} {next_state : TaskState} {wake_at : Task → Option UInt64}
    (hcall : self.GivesUp call next_state wake_at) : (call self).1 ≠ .err .NoRunnableTasks := by
  obtain ⟨error, herror, heq⟩ | ⟨current, task, hcurrent, htask, _, hidle, heq⟩ := hcall
  · rw [heq]
    exact fun hsame => herror (Outcome.err.inj hsame)
  · rw [heq]
    cases hflag : task.is_idle with
    | true =>
      -- the idle task only yields, so it is ready itself
      exact select_next_ready (Function.update_self _ _ _) (hidle hflag) _
    | false =>
      obtain ⟨index, idle, hne, hfound, hready⟩ := hinv.idle_ready hstarted hcurrent htask hflag
      exact select_next_ready ((Function.update_of_ne hne _ _).trans hfound) hready _

end Scheduler

/-- What holds between two operations: the table is orderly, and the processor has
the root of the context that runs. -/
structure Kernel.Sound (kernel : Kernel M) : Prop where
  orderly : kernel.global_scheduler.Orderly
  active : active_root kernel = some kernel.cpu.cr3

/-- An operation that leaves the memory manager and the address spaces of all slots
alone. -/
structure Kernel.Steady (before after : Kernel M) : Prop where
  sound : after.Sound
  memory : after.memory = before.memory
  kernel_root : after.kernel_root = before.kernel_root
  space_of : after.global_scheduler.space_of = before.global_scheduler.space_of

section Rules

variable {kernel middle after : Kernel M} {blocks : Bool}

theorem Kernel.Sound.refl (hsound : kernel.Sound) : kernel.Steady kernel := ⟨hsound, rfl, rfl, rfl⟩

/-- Activation loads the root of the selected context. -/
theorem activate_selected_ok {outcome : Outcome SchedulerError Unit}
    (hcall : activate_selected kernel = (outcome, after)) (hpanic : outcome ≠ .panic) :
    after = { kernel with cpu := after.cpu } ∧ active_root kernel = some after.cpu.cr3 := by
  simp only [activate_selected, activate_task_address_space, bind_apply, get_apply] at hcall
  cases hcurrent : kernel.global_scheduler.current with
  | none =>
    simp only [hcurrent, set_apply] at hcall
    cases hcall
    simp [active_root, hcurrent]
  | some index =>
    simp only [hcurrent] at hcall
    cases htask : kernel.global_scheduler.tasks index with
    | none =>
      simp only [htask, bind_apply, expect_none] at hcall
      cases hcall
      exact absurd rfl hpanic
    | some task =>
      simp only [htask, bind_apply, expect_some] at hcall
      cases huser : task.user with
      | none =>
        simp only [huser, set_apply] at hcall
        cases hcall
        simp [active_root, hcurrent, Scheduler.space_of, htask, huser]
      | some user =>
        simp only [huser, bind_apply] at hcall
        cases hstack : task.stack_top with
        | none =>
          simp only [hstack, expect_none] at hcall
          cases hcall
          exact absurd rfl hpanic
        | some stack_top =>
          simp only [hstack, expect_some] at hcall
          cases hroot : user.address_space.root with
          | none =>
            simp only [hroot, expect_none] at hcall
            cases hcall
            exact absurd rfl hpanic
          | some root =>
            simp only [hroot, expect_some, set_apply] at hcall
            cases hcall
            simp [active_root, hcurrent, Scheduler.space_of, htask, huser, hroot]

end Rules

end leafos.tasking.scheduler
