import LeafOS.Tasking.Calls

namespace leafos.tasking.scheduler

open leafos.memory leafos.tasking.fd Prog

variable {M : Type} {kernel after : Kernel M} {self : Scheduler} (parent : TaskId) (child : Option TaskId)
  (destroy : Destroy M)

namespace Scheduler

/-- What a task left on its stack is nobody else's business. -/
theorem Orderly.modify_stack (horderly : self.Orderly) (slot : Slot) (call : Option BlockedCall) :
    (self.modify_task slot fun task => { task with _stack := call }).Orderly ∧
      (self.modify_task slot fun task => { task with _stack := call }).space_of = self.space_of := by
  have hspaces : (self.modify_task slot fun task => { task with _stack := call }).space_of = self.space_of := by
    funext other
    rw [modify_task, space_of_put]
    split
    · rename_i hsame
      subst hsame
      unfold space_of
      cases self.tasks other <;> rfl
    · rfl
  refine ⟨⟨?_, ?_, horderly.started⟩, hspaces⟩
  · exact (horderly.inv.modify_task _ fun task htask => horderly.inv.keeps htask).restart
  · rw [hspaces]
    exact horderly.idle

end Scheduler

open Scheduler

theorem save_current_user_rsp_rescheduled (current : Slot) (kernel : Kernel M) :
    kernel.global_scheduler.Rescheduled false (save_current_user_rsp current kernel).2.global_scheduler := by
  show kernel.global_scheduler.Rescheduled false (kernel.global_scheduler.modify_task current _)
  unfold modify_task
  cases htask : kernel.global_scheduler.tasks current with
  | none =>
    have hsame : kernel.global_scheduler.put current none = kernel.global_scheduler := by
      simp [put, ← htask]
    rw [Option.map_none, hsame]
    exact .refl false _
  | some task =>
    refine Rescheduled.put htask ⟨rfl, rfl, ?_, rfl, rfl, .inl⟩
    simp only [Option.map_map]
    rfl

theorem terminated_child_snd (self : Scheduler) : (terminated_child parent child self).2 = self := by
  simp only [terminated_child, bind_apply, get_apply]
  generalize Option.bind _ self.tasks = found
  cases found with
  | some task => rfl
  | none => simp only; split <;> rfl

theorem check_child_snd (kernel : Kernel M) : (check_child parent child kernel).2 = kernel := by
  cases child with
  | none => rfl
  | some child_id =>
    simp only [check_child, bind_apply, get_apply]
    cases kernel.global_scheduler.task child_id with
    | none => rfl
    | some task => simp only [okOr_some]; split <;> rfl

theorem check_child_ne_stuck (kernel : Kernel M) : (check_child parent child kernel).1 ≠ .err .NoRunnableTasks := by
  refine bind_ne_err nofun fun _ _ _ => ?_
  cases child with
  | none => nofun
  | some child_id =>
    refine bind_ne_err (okOr_ne_err _ (by decide)) fun _ _ _ => ?_
    split <;> nofun

theorem terminated_child_ne_stuck (self : Scheduler) :
    (terminated_child parent child self).1 ≠ .err .NoRunnableTasks := by
  simp only [terminated_child, bind_apply, get_apply]
  generalize Option.bind _ self.tasks = found
  cases found with
  | some task => rintro ⟨⟩
  | none =>
    dsimp only
    split
    · rintro ⟨⟩
    · cases child <;> rintro ⟨⟩

/-- `wait_for_child` is refused without an effect, or reaps a child, or blocks. -/
theorem wait_for_child_apply (child : Option TaskId) (kernel : Kernel M) :
    (∃ outcome, wait_for_child destroy child kernel = (outcome, kernel) ∧ (∀ value, outcome ≠ .ok value) ∧
      outcome ≠ .err .NoRunnableTasks) ∨
    ∃ current task, kernel.global_scheduler.current = some current ∧
      kernel.global_scheduler.tasks current = some task ∧
      ((∃ id exited, (terminated_child task.id child kernel.global_scheduler).1 = .ok id ∧
          kernel.global_scheduler.task id = some exited ∧ wait_for_child destroy child kernel =
            (reap_terminated destroy id >>= fun _ => pure (some (id, exited.exit_code))) kernel) ∨
        (terminated_child task.id child kernel.global_scheduler).1 = .err .ChildRunning ∧
          wait_for_child destroy child kernel = (block_in_wait current child >>= fun _ => pure none) kernel) := by
  simp only [wait_for_child, bind_apply, get_apply]
  cases hcurrent : kernel.global_scheduler.current with
  | none => exact .inl ⟨.err .NotStarted, rfl, nofun, nofun⟩
  | some current =>
    cases htask : kernel.global_scheduler.tasks current with
    | none => exact .inl ⟨.err .UnknownTask, by simp [htask], nofun, nofun⟩
    | some task =>
      have hchecked := check_child_snd task.id child kernel
      have hstuck := check_child_ne_stuck task.id child kernel
      simp only [okOr_some, htask]
      generalize check_child task.id child kernel = result at hchecked hstuck
      obtain ⟨checked, middle⟩ := result
      obtain rfl : middle = kernel := hchecked
      cases checked with
      | err error => exact .inl ⟨.err error, rfl, nofun, fun hsame => hstuck (congrArg _ (Outcome.err.inj hsame))⟩
      | panic => exact .inl ⟨.panic, rfl, nofun, nofun⟩
      | ok _ =>
        have hsame := terminated_child_snd task.id child middle.global_scheduler
        have hstuck := terminated_child_ne_stuck task.id child middle.global_scheduler
        simp only [attempt, locked_apply]
        generalize hfound : terminated_child task.id child middle.global_scheduler = result at hsame hstuck
        obtain ⟨found, next⟩ := result
        obtain rfl : next = middle.global_scheduler := hsame
        cases found with
        | panic => exact .inl ⟨.panic, rfl, nofun, nofun⟩
        | ok id =>
          cases hexited : middle.global_scheduler.task id with
          | none => exact .inl ⟨.err .UnknownTask, by simp [hexited], nofun, nofun⟩
          | some exited =>
            refine .inr ⟨current, task, rfl, htask, .inl ⟨id, exited, by rw [hfound], hexited, ?_⟩⟩
            simp only [bind_apply, hexited, okOr_some]
        | err error =>
          by_cases hrunning : error = .ChildRunning
          · subst hrunning
            exact .inr ⟨current, task, rfl, htask, .inr ⟨by rw [hfound], rfl⟩⟩
          · refine .inl ⟨.err error, ?_, nofun, fun hsame => hstuck (congrArg _ (Outcome.err.inj hsame))⟩
            cases error <;> first | rfl | exact absurd rfl hrunning

/-- A turn of `wait_for_child` fails without effect, reaps a child or blocks. -/
theorem wait_for_child_effect (child : Option TaskId) (kernel : Kernel M) :
    (wait_for_child destroy child kernel).2 = kernel ∨
    ∃ current task, kernel.global_scheduler.current = some current ∧
      kernel.global_scheduler.tasks current = some task ∧
      ((∃ id, (terminated_child task.id child kernel.global_scheduler).1 = .ok id ∧
          (wait_for_child destroy child kernel).2 = (reap_terminated destroy id kernel).2) ∨
        ((terminated_child task.id child kernel.global_scheduler).1 = .err .ChildRunning ∧
          (wait_for_child destroy child kernel).2 = (block_in_wait current child kernel).2 ∧
          ((block_in_wait current child kernel).1 = .panic → (wait_for_child destroy child kernel).1 = .panic))) := by
  obtain ⟨_, heq, _⟩ | ⟨current, task, hcurrent, htask, ⟨id, exited, hid, _, heq⟩ | ⟨hwaits, heq⟩⟩ :=
    wait_for_child_apply destroy child kernel
  · exact .inl (by rw [heq])
  · refine .inr ⟨current, task, hcurrent, htask, .inl ⟨id, hid, ?_⟩⟩
    rw [heq, bind_apply]
    rcases reap_terminated destroy id kernel with ⟨_ | _ | _, after⟩ <;> rfl
  · refine .inr ⟨current, task, hcurrent, htask, .inr ⟨hwaits, ?_⟩⟩
    rw [heq, bind_apply]
    rcases block_in_wait current child kernel with ⟨_ | _ | _, after⟩ <;> simp

/-- A kernel task in a free slot brings no address space. -/
theorem space_of_fill {slot : Slot} {task : Task} (hfree : self.tasks slot = none)
    (huser : task.user = none) : (self.put slot (some task)).space_of = self.space_of := by
  funext other
  rw [space_of_put]
  split
  · rename_i hsame
    simp [hsame, space_of, hfree, huser]
  · rfl

/-- An operation that brings no address space keeps the table orderly. -/
theorem Operation.Effect.orderly {operation : Operation M} {before after : Scheduler}
    (heffect : operation.Effect before after) (hallowed : operation.Allowed before) (hschedules : operation.Schedules)
    (horderly : before.Orderly) : after.Orderly ∧ after.space_of = before.space_of := by
  have hinv := heffect.inv horderly.inv
  cases heffect with
  | stays hmoves hcurrent => exact ⟨horderly.moved hmoves (hcurrent ▸ horderly.started), hmoves.space_of⟩
  | switches hmoves _ hstarts =>
    refine ⟨horderly.moved hmoves fun _ => ?_, hmoves.space_of⟩
    obtain hsome | rfl := hstarts
    · exact horderly.started hsome
    · exact hallowed
  | @insert slot task _ hfree _ _ _ _ _ hspace =>
    rw [hschedules.space, Option.map_eq_none_iff] at hspace
    have hspaces : ({ before with next_id := before.next_id + 1 }.put slot (some task)).space_of = before.space_of :=
      space_of_fill hfree hspace
    refine ⟨⟨hinv.restart, ?_, horderly.started⟩, hspaces⟩
    rw [hspaces]
    exact horderly.idle
  | @install slot task hfree _ _ _ _ _ huser =>
    have hspaces : ({ before with next_id := before.next_id + 1 }.put slot
        (some { task with is_idle := true })).space_of = before.space_of := space_of_fill hfree huser
    refine ⟨⟨hinv.restart, fun other hother => ?_, fun _ => rfl⟩, hspaces⟩
    obtain rfl := Option.some.inj hother
    have hempty : before.space_of slot = none := by simp [space_of, hfree]
    rw [← hempty, ← hspaces]
    rfl
  | reap hreaps _ _ | tear _ hreaps _ _ => exact absurd hreaps hschedules.reaps
  | @retire slot _ hnobody hindex _ _ _ =>
    refine ⟨⟨hinv.restart, by simp, fun hsome => ?_⟩, ?_⟩
    · have hrunning : before.current.isSome := hsome
      rw [hnobody] at hrunning
      cases hrunning
    · funext other
      change (before.put slot none).space_of other = _
      rw [space_of_put]
      split
      · rename_i hsame
        rw [hsame, horderly.idle slot hindex]
        rfl
      · rfl

/-- The tasks have the address spaces they had, whoever is selected. -/
structure Kernel.Rearranged (before after : Kernel M) : Prop where
  orderly : after.global_scheduler.Orderly
  memory : after.memory = before.memory
  kernel_root : after.kernel_root = before.kernel_root
  space_of : after.global_scheduler.space_of = before.global_scheduler.space_of

section Steady

variable {before : Kernel M} {global_scheduler : Scheduler}

theorem Kernel.Steady.rearranged (hsteady : before.Steady kernel) : before.Rearranged kernel :=
  ⟨hsteady.sound.orderly, hsteady.memory, hsteady.kernel_root, hsteady.space_of⟩

/-- The table changes, and the running task keeps the processor. -/
theorem Kernel.Steady.keeps (hsteady : before.Steady kernel)
    (horderly : global_scheduler.Orderly) (hspaces : global_scheduler.space_of = kernel.global_scheduler.space_of)
    (hcurrent : global_scheduler.current = kernel.global_scheduler.current) :
    before.Steady { kernel with global_scheduler } := by
  refine ⟨⟨horderly, ?_⟩, hsteady.memory, hsteady.kernel_root, hspaces.trans hsteady.space_of⟩
  have hactive := hsteady.sound.active
  simp only [active_root, hcurrent, hspaces] at hactive ⊢
  exact hactive

theorem Kernel.Rearranged.moved (hready : before.Rearranged kernel)
    (horderly : global_scheduler.Orderly) (hspaces : global_scheduler.space_of = kernel.global_scheduler.space_of) :
    before.Rearranged { kernel with global_scheduler } :=
  ⟨horderly, hready.memory, hready.kernel_root, hspaces.trans hready.space_of⟩

theorem Kernel.Rearranged.modify_stack (hready : before.Rearranged kernel) (slot : Slot) (call : BlockedCall) :
    before.Rearranged { kernel with
      global_scheduler := kernel.global_scheduler.modify_task slot fun task => { task with _stack := some call } } :=
  hready.moved (hready.orderly.modify_stack slot (some call)).1 (hready.orderly.modify_stack slot (some call)).2

theorem Kernel.Rearranged.blocked (hready : before.Rearranged kernel) :
    before.Rearranged ((Operation.block_current : Operation M).execute kernel).2 := by
  have hmoves := transition_current_moves .Blocked (by decide) (by decide) kernel.global_scheduler
  rw [Operation.execute, discard_snd]
  refine hready.moved (hready.orderly.moved hmoves fun hsome => hready.orderly.started ?_) hmoves.space_of
  rw [Option.isSome_iff_ne_none] at hsome ⊢
  exact mt (transition_current_nobody .Blocked) hsome

/-- Calls that neither create nor reap user tasks leave the address spaces of all slots alone. -/
theorem steady_discipline (before : Kernel M) : Discipline before.Steady before.Rearranged fun _ => True where
  saves := by
    intro kernel slot hsteady _
    have hsame := save_current_user_rsp_rescheduled slot kernel
    have horderly := hsteady.sound.orderly.rescheduled hsame
      (hsteady.sound.orderly.inv.modify_task _ fun task htask => hsteady.sound.orderly.inv.keeps htask)
      hsteady.sound.orderly.started
    exact ⟨hsteady.rearranged.moved horderly hsame.space_of, hsteady.keeps horderly hsame.space_of rfl⟩
  rests := fun hsteady _ => hsteady.rearranged
  stays := by
    intro kernel operation hallowed hschedules hsteady hcurrent
    obtain ⟨horderly, hspaces⟩ := (operation.execute_effect hsteady.sound.orderly.inv).orderly hallowed hschedules
      hsteady.sound.orderly
    rw [hschedules.execute]
    exact hsteady.keeps horderly hspaces (operation.execute_current hsteady.sound.orderly.inv hcurrent)
  selects := by
    intro kernel operation hallowed hschedules hready
    obtain ⟨horderly, hspaces⟩ := (operation.execute_effect hready.orderly.inv).orderly hallowed hschedules
      hready.orderly
    rw [hschedules.execute]
    exact hready.moved horderly hspaces
  activates := by
    constructor
    intro kernel hready
    have hloaded : ∀ {outcome after}, activate_selected kernel = (outcome, after) → outcome ≠ .panic →
        before.Steady after := by
      intro outcome after hcall hpanic
      obtain ⟨hafter, hactive⟩ := activate_selected_ok hcall hpanic
      rw [hafter]
      exact ⟨⟨hready.orderly, hactive⟩, hready.memory, hready.kernel_root, hready.space_of⟩
    generalize activate_selected kernel = result at hloaded ⊢
    rcases result with ⟨_ | _ | _, after⟩
    · exact hloaded rfl (by simp)
    · exact hloaded rfl (by simp)
    · trivial
  halts := fun _ => trivial
  breaks := fun _ _ _ _ => trivial

/-- A turn of `wait_for_child` either reaps a child or leaves all address spaces alone. -/
theorem wait_for_child_cases (child : Option TaskId) (hsound : kernel.Sound)
    {outcome : Outcome SchedulerError (Option (TaskId × Option UInt64))}
    (hcall : wait_for_child destroy child kernel = (outcome, after)) (hpanic : outcome ≠ .panic) :
    (∃ id, after = (reap_terminated destroy id kernel).2) ∨ kernel.Steady after := by
  have heffect := wait_for_child_effect destroy child kernel
  rw [hcall] at heffect
  obtain rfl | ⟨current, task, hcurrent, htask, ⟨id, _, hreap⟩ | ⟨_, hblock, hblocked⟩⟩ := heffect
  · exact .inr hsound.refl
  · exact .inl ⟨id, hreap⟩
  · right
    have hsteady := (steady_discipline kernel).block_in_wait (·.blocked) (fun slot call => (·.modify_stack slot call))
      (fun hready _ hstuck => absurd hstuck
        (hready.orderly.inv.gives_up hready.orderly.started (Scheduler.transition_current_cases .Blocked _)))
      kernel current child |>.ends kernel ⟨hcurrent, rfl, hsound.refl⟩
    generalize block_in_wait current child kernel = result at hsteady hblock hblocked
    rcases result with ⟨_ | _ | _, last⟩
    · exact Eq.mpr (congrArg kernel.Steady hblock) hsteady
    · exact Eq.mpr (congrArg kernel.Steady hblock) hsteady
    · exact absurd (hblocked rfl) hpanic

end Steady

end leafos.tasking.scheduler
