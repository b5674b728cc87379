import LeafOS.Tasking.IdleTask

namespace leafos.tasking.scheduler

open leafos.memory leafos.tasking.fd leafos.arch.syscall Prog Relation

variable {M : Type} {task : Task} {id : TaskId}

/-- The states of a run that starts in `kernel`, between or inside calls. -/
def Kernel.Reaches (kernel later : Kernel M) : Prop := ∃ events, (interleave events kernel).Changes later

theorem Kernel.Reaches.changes {kernel later : Kernel M} (hreaches : kernel.Reaches later) : kernel.Changes later := by
  obtain ⟨events, hchanges⟩ := hreaches
  exact (interleave_changes events kernel).trans hchanges

/-- The id was given to a task that is no longer in the table. -/
structure Scheduler.Gone (scheduler : Scheduler) (id : TaskId) : Prop where
  assigned : id < scheduler.next_id
  absent : ∀ slot task, scheduler.tasks slot = some task → task.id ≠ id

/-- The task in a slot has exited with a code and waits to be reaped. -/
def Scheduler.Exited (scheduler : Scheduler) (slot : Slot) (id : TaskId) (exit_code : Option UInt64) : Prop :=
  ∃ task, scheduler.tasks slot = some task ∧ task.id = id ∧ task.state = .Terminated ∧ task.exit_code = exit_code

section Exits

variable {before after : Kernel M} {self past : Scheduler} {slot : Slot} {exit_code : Option UInt64}

/-- An emptied slot takes its task's id with it. -/
theorem Scheduler.Inv.gone (hinv : self.Inv past) (hpast : past.Inv past)
    (htask : past.tasks slot = some task) (hempty : self.tasks slot = none) : self.Gone task.id := by
  have hlt := (hpast.task_fits htask).id_lt
  refine ⟨Nat.lt_of_lt_of_le hlt hinv.next_id_le, fun other later hlater hsame => ?_⟩
  obtain ⟨earlier, hearlier, hid⟩ := hinv.old other later hlater (hsame ▸ hlt)
  obtain rfl := hpast.ids_inj other slot earlier task hearlier htask (hid.trans hsame)
  rw [hempty] at hlater
  cases hlater

section Waking

variable (hinv : before.global_scheduler.Inv past)
include hinv

/-- An id is not assigned twice. -/
theorem Kernel.Change.gone (hchange : Kernel.Change before after) (hgone : before.global_scheduler.Gone id) :
    after.global_scheduler.Gone id := by
  have hafter := hchange.inv hinv.restart
  refine ⟨Nat.lt_of_lt_of_le hgone.assigned hafter.next_id_le, fun slot task htask hsame => ?_⟩
  obtain ⟨earlier, hearlier, hid⟩ := hafter.old slot task htask (hsame ▸ hgone.assigned)
  exact hgone.absent slot earlier hearlier (hid.trans hsame)

theorem Kernel.Change.exited (hchange : Kernel.Change before after)
    (hexited : before.global_scheduler.Exited slot id exit_code) :
    after.global_scheduler.Exited slot id exit_code ∨ after.global_scheduler.Gone id := by
  obtain ⟨task, htask, rfl, hterminated, rfl⟩ := hexited
  have hother : before.global_scheduler.current ≠ some slot := by
    intro hcurrent
    have hrunning := (hinv.task_fits htask).running.mpr hcurrent
    rw [hterminated] at hrunning
    cases hrunning
  obtain ⟨clock, leaves, tables, reaps, _, hfate⟩ := hchange.fate hinv hother
  rw [htask] at hfate
  obtain ⟨later, hlater, hturns⟩ | ⟨hempty, _⟩ := hfate.of_some
  · obtain ⟨hstate, hcode⟩ := hturns.terminated hterminated
    exact .inl ⟨later, hlater, hturns.same.id, hstate, hcode⟩
  · exact .inr ((hchange.inv hinv.restart).gone hinv.restart htask hempty)

theorem Kernel.Changes.gone (hchanges : before.Changes after) (hgone : before.global_scheduler.Gone id) :
    after.global_scheduler.Gone id :=
  (Kernel.Changes.keeps (P := fun kernel => kernel.global_scheduler.Inv past ∧ kernel.global_scheduler.Gone id)
    hchanges (fun hchange h => ⟨hchange.inv h.1, hchange.gone h.1 h.2⟩) ⟨hinv, hgone⟩).2

/-- A terminated task keeps its exit code until it is reaped. -/
theorem Kernel.Changes.exited (hchanges : before.Changes after)
    (hexited : before.global_scheduler.Exited slot id exit_code) :
    after.global_scheduler.Exited slot id exit_code ∨ after.global_scheduler.Gone id := by
  refine (Kernel.Changes.keeps (P := fun kernel => kernel.global_scheduler.Inv past ∧
    (kernel.global_scheduler.Exited slot id exit_code ∨ kernel.global_scheduler.Gone id))
    hchanges (fun hchange h => ⟨hchange.inv h.1, ?_⟩) ⟨hinv, .inl hexited⟩).2
  obtain ⟨hkept, hexited | hgone⟩ := h
  · exact hchange.exited hkept hexited
  · exact .inr (hchange.gone hkept hgone)

end Waking

end Exits

/-- A task is one of those that a call of `wait_for_child` waits for. -/
def Task.IsChild (task : Task) (parent : TaskId) (child : Option TaskId) : Prop :=
  task.parent = some parent ∧ ∀ id, child = some id → task.id = id

namespace Scheduler

variable {self past : Scheduler} {slot : Slot} {parent : TaskId} {child : Option TaskId} {after : Scheduler}
  {clock : Option UInt64} {leaves : TaskState → Prop} {index other : Slot} {later : Task} {ends : Slot → Task → Prop}
  {wakes : Prop}

theorem matching_some (parent : TaskId) (child : Option TaskId) (task : Task) :
    matching parent child (some task) = true ↔ task.IsChild parent child := by
  cases child <;> simp [matching, Task.IsChild]

/-- There is a child to wait for, and none has exited. -/
structure Awaits (scheduler : Scheduler) (parent : TaskId) (child : Option TaskId) : Prop where
  some_child : ∃ slot task, scheduler.tasks slot = some task ∧ task.IsChild parent child
  none_exited : ∀ slot task, scheduler.tasks slot = some task → task.IsChild parent child → task.state ≠ .Terminated

theorem position_eq_none {test : Option Task → Bool} (hnone : self.position test = none) (slot : Slot) :
    test (self.tasks slot) = false := by
  have hall := List.find?_eq_none.mp hnone slot (List.mem_finRange slot)
  simpa using hall

/-- What `terminated_child` finds. -/
theorem terminated_child_ok (hfound : (terminated_child parent child self).1 = .ok id) :
    ∃ slot task, self.tasks slot = some task ∧ task.id = id ∧ task.IsChild parent child ∧
      task.state = .Terminated := by
  simp only [terminated_child, bind_apply, get_apply] at hfound
  generalize hposition : self.position _ = position at hfound
  cases position with
  | none =>
    simp only [Option.bind_none] at hfound
    split at hfound
    · cases hfound
    · cases hfound
  | some slot =>
    have htest := position_some hposition
    cases htask : self.tasks slot with
    | none => simp [htask, matching] at htest
    | some task =>
      simp only [htask, Bool.and_eq_true, matching_some] at htest
      simp only [Option.bind_some, htask] at hfound
      cases hfound
      exact ⟨slot, task, htask, rfl, htest.1, by simpa using htest.2⟩

theorem terminated_child_running (hrunning : (terminated_child parent child self).1 = .err .ChildRunning) :
    self.Awaits parent child := by
  simp only [terminated_child, bind_apply, get_apply] at hrunning
  generalize hposition : self.position _ = position at hrunning
  cases position with
  | some slot =>
    have htest := position_some hposition
    cases htask : self.tasks slot with
    | none => simp [htask, matching] at htest
    | some task =>
      simp only [Option.bind_some, htask] at hrunning
      cases hrunning
  | none =>
    simp only [Option.bind_none] at hrunning
    constructor
    · cases hmatch : self.position (matching parent child) with
      | none =>
        simp only [hmatch, Option.isSome_none, Bool.false_eq_true, if_false] at hrunning
        cases child <;> cases hrunning
      | some slot =>
        have htest := position_some hmatch
        cases htask : self.tasks slot with
        | none => simp [htask, matching] at htest
        | some task => exact ⟨slot, task, htask, (matching_some _ _ _).mp (htask ▸ htest)⟩
    · intro slot task htask hchild hstate
      have hnone := position_eq_none hposition slot
      rw [htask, (matching_some _ _ _).mpr hchild] at hnone
      simp [hstate] at hnone

/-- Waiting goes on while the children stay and none exits. -/
theorem Awaits.keeps (hawaits : self.Awaits parent child)
    (hstay : ∀ slot task, self.tasks slot = some task → task.IsChild parent child → task.state ≠ .Terminated →
      ∃ later, after.tasks slot = some later ∧ later.id = task.id ∧ later.parent = task.parent)
    (hexit : ∀ slot later, after.tasks slot = some later → later.IsChild parent child → later.state = .Terminated →
      ∃ task, self.tasks slot = some task ∧ later.id = task.id ∧ later.parent = task.parent ∧
        task.state = .Terminated) : after.Awaits parent child := by
  constructor
  · obtain ⟨slot, task, htask, hchild⟩ := hawaits.some_child
    obtain ⟨later, hlater, hid, hparent⟩ := hstay slot task htask hchild (hawaits.none_exited slot task htask hchild)
    exact ⟨slot, later, hlater, hparent.trans hchild.1, fun id hwanted => hid.trans (hchild.2 id hwanted)⟩
  · intro slot later hlater hchild hstate
    obtain ⟨task, htask, hid, hparent, hterminated⟩ := hexit slot later hlater hchild hstate
    refine hawaits.none_exited slot task htask ?_ hterminated
    exact ⟨hparent.symm.trans hchild.1, fun id hwanted => hid.symm.trans (hchild.2 id hwanted)⟩

/-- The same tasks are in the table, and nobody has exited. -/
def Quiet (before after : Scheduler) : Prop :=
  ∀ slot, Option.Rel (fun task later => later.id = task.id ∧ later.parent = task.parent ∧
    (later.state = .Terminated → task.state = .Terminated)) (before.tasks slot) (after.tasks slot)

theorem Quiet.trans {before middle : Scheduler} (hfirst : before.Quiet middle) (hsecond : middle.Quiet after) :
    before.Quiet after := by
  intro slot
  refine rel_trans (fun hleft hright => ?_) (hfirst slot) (hsecond slot)
  exact ⟨hright.1.trans hleft.1, hright.2.1.trans hleft.2.1, fun hstate => hleft.2.2 (hright.2.2 hstate)⟩

theorem Treats.quiet
    (htreats : Treats clock leaves self after) (hleaves : ¬ leaves .Terminated) : self.Quiet after := by
  intro slot
  have hrel := htreats slot
  generalize self.tasks slot = first, after.tasks slot = second at hrel
  cases hrel with
  | none => exact .none
  | some hturns => exact .some ⟨hturns.same.id, hturns.same.parent, hturns.was_terminated hleaves⟩

theorem Quiet.modify_task (self : Scheduler) (slot : Slot) {update : Task → Task}
    (hupdate : ∀ task, (update task).id = task.id ∧ (update task).parent = task.parent ∧
      (update task).state = task.state) : self.Quiet (self.modify_task slot update) := by
  intro other
  rw [Scheduler.modify_task, put_tasks]
  by_cases hsame : other = slot
  · rw [if_pos hsame, hsame]
    cases self.tasks slot with
    | none => exact .none
    | some task => exact .some ⟨(hupdate task).1, (hupdate task).2.1, fun hstate => (hupdate task).2.2 ▸ hstate⟩
  · rw [if_neg hsame]
    cases self.tasks other with
    | none => exact .none
    | some task => exact .some ⟨rfl, rfl, id⟩

theorem Awaits.quiet (hawaits : self.Awaits parent child) (hquiet : self.Quiet after) : after.Awaits parent child := by
  refine hawaits.keeps (fun slot task htask _ _ => ?_) fun slot later hlater _ hstate => ?_
  · obtain ⟨later, hlater, hid, hparent, _⟩ := rel_some_left (htask ▸ hquiet slot)
    exact ⟨later, hlater, hid, hparent⟩
  · obtain ⟨task, htask, hid, hparent, hexit⟩ := rel_some_right (hlater ▸ hquiet slot)
    exact ⟨task, htask, hid, hparent, hexit hstate⟩

/-- The parent of the task in a slot is not left blocked. -/
theorem Inv.wake_parent_wakes (hinv : self.Inv past) (htask : self.tasks index = some task)
    (hlater : (Scheduler.wake_parent index self).2.tasks other = some later)
    (hparent : task.parent = some later.id) : later.state ≠ .Blocked := by
  intro hblocked
  have hmoves : Moves none (fun _ => False) self (Scheduler.wake_parent index self).2 := wake_parent_moves index self
  obtain ⟨earlier, hearlier, hturns⟩ := (hmoves.treats hinv).stayed hlater
  have hposition := hinv.position_of hearlier
  rw [← hturns.same.id] at hposition
  simp only [Scheduler.wake_parent, modify_apply, htask, Option.bind_some, hparent, hposition, Scheduler.modify_task,
    Scheduler.put_tasks, if_true, hearlier, Option.map_some, Option.some.injEq] at hlater
  split at hlater
  · rw [← hlater] at hblocked
    cases hblocked
  · rename_i hawake
    exact hawake (hlater ▸ hblocked)

/-- Whoever exits between two states is one of those that `ends` names, and in a step that wakes parents does
not leave its own blocked. -/
def Notices (ends : Slot → Task → Prop) (wakes : Prop) (before after : Scheduler) : Prop :=
  ∀ slot later, after.tasks slot = some later → later.state = .Terminated →
    ∃ task, before.tasks slot = some task ∧ task.Same later ∧ (task.state = .Terminated ∨ ends slot task ∧ (wakes →
      ∀ other parent, after.tasks other = some parent → task.parent = some parent.id → parent.state ≠ .Blocked))

/-- A step that terminates nobody leaves nobody to notice. -/
theorem Notices.of_fates {before : Scheduler}
    {tables : FdTable → Prop} {reaps : Prop} (hleaves : ¬ leaves .Terminated)
    (hfates : ∀ slot, Fate clock leaves tables reaps (before.tasks slot) (after.tasks slot)) :
    before.Notices ends wakes after := by
  intro slot later hlater hstate
  have hfate := hfates slot
  rw [hlater] at hfate
  obtain ⟨earlier, hearlier, hturns⟩ | ⟨_, hready, _⟩ := hfate.to_some
  · exact ⟨earlier, hearlier, hturns.same, .inl (hturns.was_terminated hleaves hstate)⟩
  · rw [hstate] at hready
    cases hready

theorem Notices.refl (self : Scheduler) : self.Notices ends wakes self := by
  intro slot later hlater hstate
  exact ⟨later, hlater, ⟨rfl, rfl, rfl, rfl, rfl⟩, .inl hstate⟩

/-- The parent of the task in a slot is not blocked after it is woken, nor after a step
that blocks nobody. -/
theorem Inv.wake_parent_noticed (hinv : self.Inv past) (htask : self.tasks index = some task)
    (hleaves : ¬ leaves .Blocked) (htreats : Treats clock leaves (Scheduler.wake_parent index self).2 after)
    {parent : Task} (hparent : after.tasks other = some parent) (hsame : task.parent = some parent.id) :
    parent.state ≠ .Blocked := by
  intro hblocked
  obtain ⟨woken, hwoken, hturns⟩ := htreats.stayed hparent
  exact hinv.wake_parent_wakes htask hwoken (hturns.same.id ▸ hsame) (hturns.blocked hleaves hblocked)

theorem Inv.wake_parent_terminated (hinv : self.Inv past)
    (hlater : (Scheduler.wake_parent index self).2.tasks slot = some later) (hstate : later.state = .Terminated) :
    ∃ task, self.tasks slot = some task ∧ task.Same later ∧ task.state = .Terminated := by
  have hmoves : Moves none (fun _ => False) self (Scheduler.wake_parent index self).2 := wake_parent_moves index self
  obtain ⟨task, htask, hturns⟩ := (hmoves.treats hinv).stayed hlater
  exact ⟨task, htask, hturns.same, hturns.was_terminated (fun h => h) hstate⟩

theorem Inv.terminate_task_notices (hinv : self.Inv past) (id : TaskId) (exit_code : UInt64) :
    self.Notices (fun slot task => task.id = id ∧ self.current ≠ some slot) wakes
      (Scheduler.terminate_task id exit_code self).2 := by
  obtain heq | ⟨index, task, htask, hid, hcurrent, hidle, _, heq⟩ := terminate_task_cases id exit_code self
  · rw [heq]
    exact .refl self
  · rw [heq]
    have hstopped : task.state ≠ .Running :=
      fun hrunning => hcurrent ((hinv.task_fits htask).running.mp hrunning)
    have hput : (self.put index (some { task with exit_code := some exit_code, state := .Terminated })).Inv past :=
      hinv.put htask ⟨rfl, rfl, rfl, by simp [hstopped], by simp, by simp [hidle]⟩
    intro slot later hlater hstate
    obtain ⟨earlier, hearlier, hsame, hterminated⟩ := hput.wake_parent_terminated hlater hstate
    rw [put_tasks] at hearlier
    split at hearlier
    · rename_i hslot
      subst hslot
      cases hearlier
      exact ⟨task, htask, ⟨hsame.id, hsame.parent, hsame.is_idle, hsame.stack, hsame.fds⟩, .inr ⟨⟨hid, hcurrent⟩,
        fun _ other parent hparent hchild => hput.wake_parent_wakes (if_pos rfl) hparent hchild⟩⟩
    · exact ⟨earlier, hearlier, hsame, .inl hterminated⟩

section Exit

variable {current : Slot} {running : Task}

section Exits

variable (hrunning : self.tasks current = some running)
include hrunning

/-- At the end of an exit nobody but the running task terminates. -/
theorem Inv.finish_exit_terminated (hinv : self.Inv past) (hcurrent : self.current = some current)
    (exit_code : Option UInt64) (hlater : (Scheduler.finish_exit current exit_code self).2.tasks slot = some later)
    (hstate : later.state = .Terminated) (hother : slot ≠ current) :
    ∃ task, self.tasks slot = some task ∧ task.Same later ∧ task.state = .Terminated := by
  rw [finish_exit_snd hrunning] at hlater
  have hput : (self.put current (some { running with exit_code })).Inv past := hinv.put hrunning (hinv.keeps hrunning)
  have hnow : (Scheduler.wake_parent current (self.put current (some { running with exit_code }))).2.current ≠
      some slot := by
    rw [wake_parent_current]
    exact fun hsame => hother (Option.mem_unique hsame hcurrent)
  have hleft : Option.Rel (Task.Turns none fun _ => False) _ _ := transition_current_others .Terminated hnow
  obtain ⟨woken, hwoken, hturns⟩ := rel_some_right (hlater ▸ hleft)
  obtain ⟨task, htask, hsame, hterminated⟩ :=
    hput.wake_parent_terminated hwoken (hturns.was_terminated (fun h => h) hstate)
  rw [put_tasks, if_neg hother] at htask
  exact ⟨task, htask, hsame.trans hturns.same, hterminated⟩

/-- The parent of a task that exits is not left blocked. -/
theorem Inv.finish_exit_wakes (hinv : self.Inv past) (exit_code : Option UInt64) {parent : Task}
    (hparent : (Scheduler.finish_exit current exit_code self).2.tasks other = some parent)
    (hchild : running.parent = some parent.id) : parent.state ≠ .Blocked := by
  have hfits := hinv.task_fits hrunning
  have hput : (self.put current (some { running with exit_code })).Inv past :=
    hinv.put hrunning (hinv.keeps hrunning)
  have hstays : (self.put current (some { running with exit_code })).tasks current =
      some { running with exit_code } := by rw [put_tasks, if_pos rfl]
  rw [finish_exit_snd hrunning] at hparent
  have hwoken : Moves none (fun _ => False) _ _ :=
    wake_parent_moves current (self.put current (some { running with exit_code }))
  have hmoves := transition_current_moves .Terminated (by simp) (by simp)
    (Scheduler.wake_parent current (self.put current (some { running with exit_code }))).2
  exact hput.wake_parent_noticed hstays (by simp) (hmoves.treats (hwoken.inv hput)) hparent hchild

theorem terminate_siblings_terminated (exit_code : Option UInt64)
    (hlater : (terminate_siblings current exit_code self).2.tasks slot = some later)
    (hstate : later.state = .Terminated) :
    ∃ task, self.tasks slot = some task ∧ task.Same later ∧
      (task.state = .Terminated ∨ task.parent.isSome = true ∧ task.parent = running.parent) := by
  simp only [terminate_siblings, modify_apply, hrunning, Option.bind_some] at hlater
  cases hparent : running.parent with
  | none =>
    rw [hparent] at hlater
    exact ⟨later, hlater, ⟨rfl, rfl, rfl, rfl, rfl⟩, .inl hstate⟩
  | some parent =>
    simp only [hparent, map_tasks] at hlater
    obtain ⟨task, htask, heq⟩ := Option.map_eq_some_iff.mp hlater
    split at heq
    · rename_i hsibling
      rw [← heq]
      exact ⟨task, htask, ⟨rfl, rfl, rfl, rfl, rfl⟩, .inr ⟨by rw [hsibling.2.1]; rfl, hsibling.2.1⟩⟩
    · rw [← heq] at hstate ⊢
      exact ⟨task, htask, ⟨rfl, rfl, rfl, rfl, rfl⟩, .inl hstate⟩

/-- The running task survives the termination of its siblings as it is. -/
theorem terminate_siblings_running (exit_code : Option UInt64) :
    (terminate_siblings current exit_code self).2.tasks current = some running := by
  simp only [terminate_siblings, modify_apply, hrunning, Option.bind_some]
  cases running.parent with
  | none => exact hrunning
  | some parent => simp [map_tasks, hrunning]

end Exits

/-- The tasks that an exit ends: the running one, and with a group the siblings of it. -/
def ExitEnds (self : Scheduler) (terminate_group : Bool) (slot : Slot) (task : Task) : Prop :=
  self.current = some slot ∨ terminate_group = true ∧ task.parent.isSome = true ∧
    task.parent = (self.current.bind self.tasks).bind Task.parent

theorem Inv.exit_current_notices (hinv : self.Inv past) (exit_code : Option UInt64) (terminate_group : Bool) :
    self.Notices (self.ExitEnds terminate_group) wakes
      (Scheduler.exit_current_with_status_and_group exit_code terminate_group self).2 := by
  simp only [Scheduler.exit_current_with_status_and_group, bind_apply, get_apply]
  cases hcurrent : self.current with
  | none => exact .refl self
  | some current =>
    cases hrunning : self.tasks current with
    | none => exact absurd hcurrent (hinv.empty_slot hrunning).1
    | some running =>
      simp only [expect_some]
      -- what the end of the exit finds, whether or not siblings were terminated before
      have hend : ∀ middle : Scheduler, middle.Inv past → middle.tasks current = some running →
          middle.current = some current → (∀ slot later, middle.tasks slot = some later → later.state = .Terminated →
            ∃ task, self.tasks slot = some task ∧ task.Same later ∧ (task.state = .Terminated ∨
              self.ExitEnds terminate_group slot task ∧ task.parent = running.parent)) →
          self.Notices (self.ExitEnds terminate_group) wakes (Scheduler.finish_exit current exit_code middle).2 := by
        intro middle hmiddle hstays hnow hexits slot later hlater hstate
        by_cases hother : slot = current
        · subst hother
          obtain ⟨earlier, hearlier, hturns⟩ := ((finish_exit_moves hnow exit_code).treats hmiddle).stayed hlater
          obtain rfl := Option.mem_unique hearlier hstays
          exact ⟨earlier, hrunning, hturns.same, .inr ⟨.inl hcurrent, fun _ other parent hparent hchild =>
            hmiddle.finish_exit_wakes hstays exit_code hparent hchild⟩⟩
        · obtain ⟨task, htask, hsame, hterminated⟩ :=
            hmiddle.finish_exit_terminated hstays hnow exit_code hlater hstate hother
          obtain ⟨earlier, hearlier, hfirst, hended⟩ := hexits slot task htask hterminated
          refine ⟨earlier, hearlier, hfirst.trans hsame, hended.imp_right fun hsibling => ⟨hsibling.1, ?_⟩⟩
          exact fun _ other parent hparent hchild =>
            hmiddle.finish_exit_wakes hstays exit_code hparent (hsibling.2.symm.trans hchild)
      cases terminate_group with
      | false =>
        exact hend self hinv hrunning hcurrent fun slot later hlater hstate =>
          ⟨later, hlater, ⟨rfl, rfl, rfl, rfl, rfl⟩, .inl hstate⟩
      | true =>
        have hnow := (terminate_siblings_current current exit_code self).trans hcurrent
        refine hend _ ((terminate_siblings_moves hcurrent exit_code).inv hinv)
          (terminate_siblings_running hrunning exit_code) hnow fun slot later hlater hstate => ?_
        obtain ⟨task, htask, hsame, hended⟩ := terminate_siblings_terminated hrunning exit_code hlater hstate
        refine ⟨task, htask, hsame, hended.imp_right fun hsibling => ⟨.inr ⟨rfl, hsibling.1, ?_⟩, hsibling.2⟩⟩
        rw [hsibling.2, hcurrent, Option.bind_some, hrunning, Option.bind_some]

end Exit

end Scheduler

section Waiting

variable {kernel before after : Kernel M} {past : Scheduler} {operation : Operation M} {destroy : Destroy M}

/-- The tasks that an operation ends. -/
def Operation.Ends (operation : Operation M) (self : Scheduler) (slot : Slot) (task : Task) : Prop :=
  match operation with
  | .terminate_current => self.current = some slot
  | .terminate_task id _ => task.id = id ∧ self.current ≠ some slot
  | .exit_current_with_status_and_group _ terminate_group => self.ExitEnds terminate_group slot task
  | _ => False

instance (self : Scheduler) (slot : Slot) (task : Task) : Decidable (operation.Ends self slot task) := by
  unfold Operation.Ends Scheduler.ExitEnds
  split <;> infer_instance

theorem Operation.execute_notices (hinv : kernel.global_scheduler.Inv past) :
    kernel.global_scheduler.Notices (operation.Ends kernel.global_scheduler) (operation ≠ .terminate_current)
      (operation.execute kernel).2.global_scheduler := by
  cases operation with
  | terminate_current =>
    intro slot later hlater hstate
    simp only [Operation.execute, discard_snd, locked_apply] at hlater
    have hmoves := Scheduler.transition_current_moves .Terminated (by simp) (by simp) kernel.global_scheduler
    obtain ⟨task, htask, hturns⟩ := (hmoves.treats hinv).stayed hlater
    refine ⟨task, htask, hturns.same, or_iff_not_imp_left.mpr fun hlive => ⟨?_, fun hwakes => absurd rfl hwakes⟩⟩
    by_contra hcurrent
    have hothers : Option.Rel (Task.Turns none fun _ => False) _ _ :=
      Scheduler.transition_current_others .Terminated hcurrent
    obtain ⟨earlier, hearlier, hkept⟩ := Scheduler.rel_some_right (hlater ▸ hothers)
    obtain rfl := Option.mem_unique htask hearlier
    exact hlive (hkept.was_terminated (fun h => h) hstate)
  | terminate_task id exit_code => exact hinv.terminate_task_notices id exit_code
  | exit_current_with_status_and_group exit_code terminate_group =>
    exact hinv.exit_current_notices exit_code terminate_group
  | _ => exact .of_fates (by rintro ⟨⟩) fun slot => Operation.execute_fate _ hinv slot

/-- Whoever is blocked in `wait_for_child` waits for a child that has not exited. -/
def Scheduler.Waiting (scheduler : Scheduler) : Prop :=
  ∀ slot task child, scheduler.tasks slot = some task → task.state = .Blocked →
    task._stack = some (.wait_for_child child) → scheduler.Awaits task.id child

theorem Operation.execute_waiting (hallowed : operation.Allowed kernel.global_scheduler)
    (hinv : kernel.global_scheduler.Inv past) (hwaiting : kernel.global_scheduler.Waiting) :
    (operation.execute kernel).2.global_scheduler.Waiting := by
  have hfates := operation.execute_fate hinv
  have hwakes : operation ≠ .terminate_current := by
    rintro rfl
    exact hallowed
  have hnotices := operation.execute_notices hinv
  generalize (operation.execute kernel).2.global_scheduler = after at hfates hnotices
  intro slot later child hlater hblocked hstack
  have hfate := hfates slot
  rw [hlater] at hfate
  obtain ⟨task, htask, hturns⟩ | ⟨_, hready, _⟩ := hfate.to_some
  · have hsame := hturns.same
    rw [hsame.id]
    have hawaits := hwaiting slot task child htask (hturns.blocked hallowed.leaves hblocked) (hsame.stack ▸ hstack)
    refine hawaits.keeps (fun other childTask hchildTask hchild hlive => ?_) ?_
    · have hstays := hfates other
      rw [hchildTask] at hstays
      obtain ⟨stayed, hstayed, hturns⟩ | ⟨_, hterminated | ⟨hidle, _⟩⟩ := hstays.of_some
      · exact ⟨stayed, hstayed, hturns.same.id, hturns.same.parent⟩
      · exact absurd hterminated hlive
      · -- the idle task is nobody's child
        have hnone := (hinv.task_fits hchildTask).idle_parent hidle
        rw [hchild.1] at hnone
        cases hnone
    · intro other exited hexited hchild hstate
      obtain ⟨earlier, hearlier, hkept, hterminated | ⟨_, hnoticed⟩⟩ := hnotices other exited hexited hstate
      · exact ⟨earlier, hearlier, hkept.id, hkept.parent, hterminated⟩
      · exact absurd hblocked (hnoticed hwakes slot later hlater (hkept.parent ▸ hsame.id ▸ hchild.1))
  · rw [hblocked] at hready
    cases hready

/-- Blocking one task in a call leaves the others' children where they are. -/
theorem Kernel.block_quiet (hinv : kernel.global_scheduler.Inv past) (current : Slot) (call : BlockedCall) :
    kernel.global_scheduler.Quiet ((Scheduler.transition_current .Blocked (kernel.saved current)).2.modify_task current
      fun task => { task with _stack := some call }) := by
  have hsaved : kernel.global_scheduler.Quiet (kernel.saved current) := .modify_task _ _ fun _ => ⟨rfl, rfl, rfl⟩
  have hmoves := Scheduler.transition_current_moves .Blocked (by simp) (by simp) (kernel.saved current)
  exact (hsaved.trans ((hmoves.treats (kernel.saved_inv hinv current)).quiet (by simp))).trans
    (.modify_task _ _ fun _ => ⟨rfl, rfl, rfl⟩)

theorem Kernel.Change.waiting (hchange : Kernel.Change before after) (havailable : before.global_scheduler.Available)
    (hwaiting : before.global_scheduler.Waiting) : after.global_scheduler.Waiting := by
  have hinv := havailable.inv
  -- a task that is not running was blocked before, in the same call
  have hothers : ∀ {current} slot later child, before.global_scheduler.current = some current → slot ≠ current →
      after.global_scheduler.tasks slot = some later → later.state = .Blocked →
      later._stack = some (.wait_for_child child) → before.global_scheduler.Awaits later.id child := by
    intro current slot later child hcurrent hother hlater hblocked hstack
    obtain ⟨clock, leaves, tables, reaps, hleaves, hfate⟩ :=
      hchange.fate hinv fun hnow => hother (Option.mem_unique hnow hcurrent)
    rw [hlater] at hfate
    obtain ⟨task, htask, hturns⟩ | ⟨_, hready, _⟩ := hfate.to_some
    · rw [hturns.same.id]
      exact hwaiting slot task child htask (hturns.blocked hleaves hblocked) (hturns.same.stack ▸ hstack)
    · rw [hblocked] at hready
      cases hready
  cases hchange with
  | operation operation hallowed => exact Operation.execute_waiting hallowed hinv hwaiting
  | elsewhere objects memory cpu => exact hwaiting
  | @serve current running user fds _stack hcurrent hrunning huser =>
    have hquiet : before.global_scheduler.Quiet
        (before.global_scheduler.put current (some { running with user, fds, _stack })) := by
      have hmodified : before.global_scheduler.Quiet (before.global_scheduler.modify_task current
        fun task => { task with user, fds, _stack }) := .modify_task _ _ fun _ => ⟨rfl, rfl, rfl⟩
      rwa [Scheduler.modify_task, hrunning] at hmodified
    intro slot later child hlater hblocked hstack
    by_cases hsame : slot = current
    · subst hsame
      rw [Scheduler.put_tasks, if_pos rfl] at hlater
      cases hlater
      have hstate := (hinv.task_fits hrunning).running.mpr hcurrent
      exact absurd (hblocked.symm.trans hstate) (by decide)
    · exact (hothers slot later child hcurrent hsame hlater hblocked hstack).quiet hquiet
  | @block current running call hcurrent hrunning hgranted hwaits =>
    have hquiet := Kernel.block_quiet hinv current call
    intro slot later child hlater hblocked hstack
    by_cases hsame : slot = current
    · subst hsame
      have hrel := hquiet slot
      rw [hrunning, hlater] at hrel
      obtain ⟨hid, _⟩ := Option.rel_some_some.mp hrel
      rw [Scheduler.modify_task, Scheduler.put_tasks, if_pos rfl] at hlater
      obtain ⟨_, _, rfl⟩ := Option.map_eq_some_iff.mp hlater
      rw [hid]
      exact (Scheduler.terminated_child_running (hwaits child (Option.some.inj hstack))).quiet hquiet
    · exact (hothers slot later child hcurrent hsame hlater hblocked hstack).quiet hquiet
  | @stuck current hcurrent hnobody =>
    exact absurd hnobody ((before.saved_available havailable _).transition_current .Blocked)

/-- A task that is reaped leaves the table. -/
theorem reap_terminated_ok (hreaped : reap_terminated destroy id kernel = (.ok (), after)) :
    ∃ slot task, kernel.global_scheduler.tasks slot = some task ∧ task.id = id ∧
      after.global_scheduler.tasks slot = none := by
  obtain ⟨error, heq⟩ | ⟨slot, task, hslot, htask, _, ⟨_, heq⟩ | ⟨_, _, _, _, hfails, heq⟩⟩ :=
    reap_terminated_effect destroy id kernel
  · rw [heq] at hreaped
    cases hreaped
  · obtain ⟨found, hfound, hid⟩ := Scheduler.position_of_some hslot
    obtain rfl := Option.mem_unique htask hfound
    rw [heq] at hreaped
    cases hreaped
    exact ⟨slot, task, htask, hid, by rw [Kernel.reaped, Scheduler.put_tasks, if_pos rfl]⟩
  · rw [heq] at hreaped
    exact absurd (congrArg Prod.fst hreaped) hfails

/-- What `wait_for_child` returns was found by `terminated_child` and reaped. -/
theorem wait_for_child_ok {child : Option TaskId} {exit_code : Option UInt64}
    (hcall : wait_for_child destroy child kernel = (.ok (some (id, exit_code)), after)) :
    ∃ caller task, kernel.running = some caller ∧
      (Scheduler.terminated_child caller.id child kernel.global_scheduler).1 = .ok id ∧
      kernel.global_scheduler.task id = some task ∧ task.exit_code = exit_code ∧
      reap_terminated destroy id kernel = (.ok (), after) := by
  obtain ⟨_, heq, hnever, _⟩ | ⟨current, caller, hcurrent, hcaller, ⟨found, exited, hfound, hexited, heq⟩ | ⟨_, heq⟩⟩ :=
    wait_for_child_apply destroy child kernel
  · exact absurd (Prod.mk.inj (heq.symm.trans hcall)).1 (hnever _)
  · rw [heq, bind_apply] at hcall
    generalize hreaped : reap_terminated destroy found kernel = result at hcall
    rcases result with ⟨_ | _ | _, last⟩
    · cases hcall
      exact ⟨caller, exited, by simp [Kernel.running, hcurrent, hcaller], hfound, hexited, rfl, hreaped⟩
    · cases hcall
    · cases hcall
  · rw [heq, bind_apply] at hcall
    generalize block_in_wait current child kernel = result at hcall
    rcases result with ⟨_ | _ | _, last⟩ <;> cases hcall

end Waiting

/-- Exit codes reach the right parent once, and no wait is lost. In every state of every
run, between or inside calls: a terminated task keeps its exit code until it is gone;
what a `wait_for_child` returns is a terminated child of its caller with its exit code,
which is then gone, so that no later `wait_for_child` returns it again; and a task that is
blocked in `wait_for_child` has a child to wait for, none of which is terminated. -/
theorem exit_codes_are_delivered_once (objects : Objects) (memory : M) (cpu : Cpu) (kernel_root : PhysFrame)
    {kernel : Kernel M} (hreached : (Kernel.fresh objects memory cpu kernel_root).Reaches kernel) :
    (∀ slot id exit_code, kernel.global_scheduler.Exited slot id exit_code → ∀ later, kernel.Reaches later →
      later.global_scheduler.Exited slot id exit_code ∨ later.global_scheduler.Gone id) ∧
    (∀ destroy child id exit_code after,
      wait_for_child destroy child kernel = (.ok (some (id, exit_code)), after) →
      (∃ caller slot task, kernel.running = some caller ∧ kernel.global_scheduler.tasks slot = some task ∧
        task.id = id ∧ task.IsChild caller.id child ∧ task.state = .Terminated ∧ task.exit_code = exit_code) ∧
      ∀ later, after.Reaches later → later.global_scheduler.Gone id ∧
        ∀ destroy child exit_code last, wait_for_child destroy child later ≠ (.ok (some (id, exit_code)), last)) ∧
    ∀ slot task child, kernel.global_scheduler.tasks slot = some task → task.state = .Blocked →
      task._stack = some (.wait_for_child child) → kernel.global_scheduler.Awaits task.id child := by
  have hstate : kernel.global_scheduler.Available ∧ kernel.global_scheduler.Waiting :=
    Kernel.Changes.keeps (P := fun kernel => kernel.global_scheduler.Available ∧ kernel.global_scheduler.Waiting)
      hreached.changes (fun hchange h => ⟨hchange.available h.1, hchange.waiting h.1 h.2⟩)
      ⟨Scheduler.available_new, fun _ _ _ htask => by cases htask⟩
  obtain ⟨havailable, hwaiting⟩ := hstate
  have hinv := havailable.inv
  refine ⟨fun slot id exit_code hexited later hlater => hlater.changes.exited hinv hexited, ?_, hwaiting⟩
  intro destroy child id exit_code after hcall
  obtain ⟨caller, task, hcaller, hfound, htask, hcode, hreaped⟩ := wait_for_child_ok hcall
  obtain ⟨slot, exited, hexited, hid, hchild, hterminated⟩ := Scheduler.terminated_child_ok hfound
  refine ⟨⟨caller, slot, exited, hcaller, hexited, hid, hchild, hterminated, ?_⟩, ?_⟩
  · rw [Scheduler.task, ← hid, hinv.position_of hexited, Option.bind_some, hexited] at htask
    cases htask
    exact hcode
  · intro later hlater
    obtain ⟨index, reaped, hslot, rfl, hempty⟩ := reap_terminated_ok hreaped
    have hafter : after.global_scheduler.Inv kernel.global_scheduler := by
      have hexecuted := (Operation.reap_terminated destroy reaped.id).execute_inv hinv.restart
      rwa [Operation.execute, hreaped] at hexecuted
    have hgone := hlater.changes.gone hafter (hafter.gone hinv.restart hslot hempty)
    refine ⟨hgone, fun destroy child exit_code last hagain => ?_⟩
    obtain ⟨_, _, _, hfound, _⟩ := wait_for_child_ok hagain
    obtain ⟨again, task, htask, hsame, _⟩ := Scheduler.terminated_child_ok hfound
    exact hgone.absent again task htask hsame

/-- A program starts a child, which exits with code 7; its parent learns that. -/
theorem exit_codes_are_delivered_once_sample :
    let kernel := interleave [sample_spawn, .run_tasks 0 (.ok (.empty, 0)), .spawn 0 (.ok (.empty, 0)), .yield,
      .exit (some 7) false] sample_kernel
    let result := wait_for_child (fun _ => return ()) none kernel
    result.1 = .ok (some (3, some 7)) ∧ result.2.global_scheduler.Gone 3 := by
  intro kernel result
  have hreached : sample_kernel.Reaches kernel := ⟨_, .refl⟩
  have hcall : result.1 = .ok (some (3, some 7)) := by decide +kernel
  have hdelivered := (exit_codes_are_delivered_once _ () _ 0 hreached).2.1 _ none 3 (some 7) result.2
    (Prod.ext hcall rfl)
  exact ⟨hcall, (hdelivered.2 result.2 ⟨[], .refl⟩).1⟩

end leafos.tasking.scheduler
