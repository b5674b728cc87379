import LeafOS.Tasking.Steps
import Mathlib.Logic.Relation

namespace leafos.tasking.scheduler

open leafos.memory leafos.tasking.fd Prog Relation

/-- What happens to a task without it getting or leaving the processor: it is woken, its
deadline expires, or it is terminated by somebody else. -/
inductive Task.Nudged (clock : Option UInt64) (leaves : TaskState → Prop) (current : Option Slot) (slot : Slot) :
    Task → Task → Prop
  | same (task : Task) : Nudged clock leaves current slot task task
  | wake (task : Task) (hblocked : task.state = .Blocked) :
      Nudged clock leaves current slot task { task with state := .Ready }
  | expire (task : Task) (now : UInt64) (hclock : clock = some now) (hsleeping : task.state = .Sleeping)
      (hexpired : Scheduler.expired now task.wake_at = true) :
      Nudged clock leaves current slot task { task with state := .Ready, wake_at := none }
  | terminate (task : Task) (exit_code : Option UInt64) (hlive : task.state ≠ .Terminated)
      (hleaves : leaves .Terminated) (hother : current ≠ some slot) (hparent : task.is_idle → task.parent ≠ none) :
      Nudged clock leaves current slot task { task with exit_code, state := .Terminated }

namespace Scheduler

variable (id : TaskId) (next_state : TaskState) (deadline now : UInt64) (child_index : Slot) (exit_code : UInt64)
  {self : Scheduler}

/-- One change that the scheduler makes to a table that keeps its tasks. `clock` is the
tick counter that the method reads, if it reads it, and `leaves` tells in which states it
puts a task. -/
inductive Move (clock : Option UInt64) (leaves : TaskState → Prop) : Scheduler → Scheduler → Prop
  | select {self : Scheduler} {slot : Slot} {task : Task} (hcurrent : self.current = none)
      (htask : self.tasks slot = some task) (hready : task.state = .Ready) :
      Move clock leaves self
        { self.put slot (some { task with state := .Running }) with current := some slot }
  | leave {self : Scheduler} {slot : Slot} {task : Task} (state : TaskState) (wake_at : Option UInt64)
      (hcurrent : self.current = some slot) (htask : self.tasks slot = some task) (hleaves : leaves state)
      (hstopped : state ≠ .Running) (hsleeping : state = .Sleeping → wake_at.isSome)
      (hidle : task.is_idle → state = .Ready) :
      Move clock leaves self { self.put slot (some { task with state, wake_at }) with current := none }
  | record_exit {self : Scheduler} {slot : Slot} {task : Task} (exit_code : Option UInt64)
      (hcurrent : self.current = some slot) (htask : self.tasks slot = some task) :
      Move clock leaves self (self.put slot (some { task with exit_code }))
  | nudge {self : Scheduler} {slot : Slot} {task changed : Task} (htask : self.tasks slot = some task)
      (hnudged : task.Nudged clock leaves self.current slot changed) :
      Move clock leaves self (self.put slot (some changed))
  | nudge_all {self : Scheduler} (update : Slot → Task → Task) (hupdate : ∀ slot task,
      self.tasks slot = some task → task.Nudged clock leaves self.current slot (update slot task)) :
      Move clock leaves self (self.map_tasks update)

abbrev Moves (clock : Option UInt64) (leaves : TaskState → Prop) : Scheduler → Scheduler → Prop :=
  ReflTransGen (Move clock leaves)

section Invariant

variable {clock : Option UInt64} {leaves : TaskState → Prop} {before after past : Scheduler}

/-- The idle task has no parent, so nobody terminates it. -/
theorem Inv.nudged (hinv : before.Inv past) {slot : Slot} {task changed : Task} (htask : before.tasks slot = some task)
    (hnudged : task.Nudged clock leaves before.current slot changed) : task.Keeps changed := by
  have hfits := hinv.task_fits htask
  cases hnudged with
  | same => exact hinv.keeps htask
  | wake hblocked => exact ⟨rfl, rfl, rfl, by simp [hblocked], by simp, fun _ => .inl rfl⟩
  | expire now _ hsleeping _ => exact ⟨rfl, rfl, rfl, by simp [hsleeping], by simp, fun _ => .inl rfl⟩
  | terminate exit_code _ _ hother hparent =>
    refine ⟨rfl, rfl, rfl, ?_, by simp, fun hidle => absurd (hfits.idle_parent hidle) (hparent hidle)⟩
    simpa using fun hrunning => hother (hfits.running.mp hrunning)

theorem Move.inv (hmove : Move clock leaves before after) (hinv : before.Inv past) : after.Inv past := by
  cases hmove with
  | select hcurrent htask _ => exact hinv.select htask hcurrent
  | leave state wake_at hcurrent htask _ hstopped hsleeping hidle =>
    exact hinv.leave htask hcurrent rfl rfl rfl hstopped hsleeping hidle
  | record_exit exit_code _ htask => exact hinv.put htask (hinv.keeps htask)
  | nudge htask hnudged => exact hinv.put htask (hinv.nudged htask hnudged)
  | nudge_all update hupdate =>
    exact hinv.map_tasks update fun slot task htask => hinv.nudged htask (hupdate slot task htask)

theorem Moves.inv (hmoves : Moves clock leaves before after) (hinv : before.Inv past) : after.Inv past := by
  induction hmoves with
  | refl => exact hinv
  | tail _ hmove ih => exact hmove.inv ih

end Invariant

section Methods

variable {clock : Option UInt64} {leaves : TaskState → Prop} {current : Slot}

/-- Where no task is ready the table stays as it is. -/
theorem select_next_moves (hcurrent : self.current = none) (start : Slot) :
    Moves clock leaves self (select_next start self).2 := by
  obtain ⟨slot, task, htask, hready, heq⟩ | heq := select_next_cases start self
  · rw [heq]
    exact .single (.select hcurrent htask hready)
  · rw [heq]
    have hsame : { self with current := none } = self := by rw [← hcurrent]
    rw [hsame]

variable (self)

theorem start_moves : Moves none (fun _ => False) self (start self).2 := by
  simp only [start, bind_apply, get_apply]
  cases hcurrent : self.current with
  | none => exact select_next_moves hcurrent 0
  | some current => exact .refl

/-- Leaving the processor and choosing who gets it are two moves. -/
theorem transition_current_moves (hstate : next_state ≠ .Running) (hawake : next_state ≠ .Sleeping) (self : Scheduler) :
    Moves none (· = next_state) self (transition_current next_state self).2 := by
  obtain ⟨error, _, heq⟩ | ⟨current, task, hcurrent, htask, _, hidle, heq⟩ := transition_current_cases next_state self
  · rw [heq]
  · rw [heq]
    refine .head (.leave next_state _ hcurrent htask rfl hstate ?_ hidle) (select_next_moves rfl _)
    exact fun h => absurd h hawake

theorem sleep_current_until_moves : Moves none (· = .Sleeping) self (sleep_current_until deadline self).2 := by
  obtain ⟨error, _, heq⟩ | ⟨current, task, hcurrent, htask, _, hidle, heq⟩ := sleep_current_until_cases deadline self
  · rw [heq]
  · rw [heq]
    exact .head (.leave .Sleeping (some deadline) hcurrent htask rfl (by simp) (fun _ => rfl) hidle)
      (select_next_moves rfl _)

/-- What a tick does to one task. -/
theorem expired_nudged (current : Option Slot) (slot : Slot) (task : Task) :
    task.Nudged (some now) leaves current slot (if task.state = .Sleeping ∧ expired now task.wake_at then
      { task with state := .Ready, wake_at := none } else task) := by
  split
  · rename_i hexpired
    exact .expire task now rfl hexpired.1 hexpired.2
  · exact .same task

theorem wake_expired_sleepers_moves : Moves (some now) (fun _ => False) self (wake_expired_sleepers now self).2 :=
  .single (.nudge_all _ fun slot task _ => expired_nudged now self.current slot task)

theorem wake_all_blocked_moves : Moves none (fun _ => False) self (wake_all_blocked self).2 := by
  refine .single (.nudge_all _ fun slot task _ => ?_)
  split
  · rename_i hblocked
    exact .wake task hblocked
  · exact .same task

theorem wake_moves : Moves none (fun _ => False) self (wake id self).2 := by
  simp only [wake, bind_apply, get_apply]
  cases hindex : self.position_of id with
  | none => exact .refl
  | some index =>
    obtain ⟨task, htask, _⟩ := position_of_some hindex
    simp only [okOr_some, htask]
    split
    · exact .refl
    · rename_i hblocked
      exact .single (.nudge htask (.wake task (not_not.mp hblocked)))

theorem wake_parent_moves : Moves clock leaves self (wake_parent child_index self).2 := by
  obtain ⟨update, heq, hupdate⟩ := wake_parent_apply child_index self
  rw [heq]
  refine .single (.nudge_all update fun slot task _ => ?_)
  obtain hsame | ⟨hblocked, hready⟩ := hupdate slot task
  · rw [hsame]
    exact .same task
  · rw [hready]
    exact .wake task hblocked

/-- A task kills one that does not run and wakes its parent, unless the call is refused without effect. -/
theorem terminate_task_cases : (terminate_task id exit_code self).2 = self ∨
    ∃ index task, self.tasks index = some task ∧ task.id = id ∧ self.current ≠ some index ∧ task.is_idle = false ∧
      task.state ≠ .Terminated ∧ (terminate_task id exit_code self).2 = (wake_parent index
        (self.put index (some { task with exit_code := some exit_code, state := .Terminated }))).2 := by
  simp only [terminate_task, bind_apply, get_apply]
  cases hindex : self.position_of id with
  | none => exact .inl rfl
  | some index =>
    obtain ⟨task, htask, hid⟩ := position_of_some hindex
    simp only [okOr_some]
    split
    · exact .inl rfl
    · rename_i hcurrent
      simp only [bind_apply, htask, okOr_some]
      split
      · exact .inl rfl
      · rename_i hlive
        simp only [not_or, Bool.not_eq_true] at hlive
        exact .inr ⟨index, task, htask, hid, hcurrent, hlive.1, hlive.2, rfl⟩

theorem terminate_task_moves : Moves none (· = .Terminated) self (terminate_task id exit_code self).2 := by
  obtain heq | ⟨index, task, htask, _, hcurrent, hidle, hlive, heq⟩ := terminate_task_cases id exit_code self
  · rw [heq]
  · rw [heq]
    refine .head (.nudge htask (.terminate task (some exit_code) hlive rfl hcurrent ?_)) (wake_parent_moves index _)
    simp [hidle]

/-- Sleepers wake before the idle task hands the processor back. -/
theorem idle_to_bootstrap_moves : Moves (some now) (· = .Ready) self (idle_to_bootstrap now self).2 := by
  have hwoken : Moves (some now) (· = .Ready) self (wake_expired_sleepers now self).2 :=
    .single (.nudge_all _ fun slot task _ => expired_nudged now self.current slot task)
  obtain heq | ⟨_, heq | ⟨current, idle, hcurrent, htask, hflag, heq⟩⟩ := idle_to_bootstrap_cases now self
  · rwa [heq]
  · rwa [heq]
  · rw [heq]
    exact hwoken.tail (.leave .Ready idle.wake_at hcurrent htask rfl (by simp) (by simp) (fun _ => rfl))

variable {self}

theorem terminate_siblings_moves (hcurrent : self.current = some current) (exit_code : Option UInt64) :
    Moves none (· = .Terminated) self (terminate_siblings current exit_code self).2 := by
  simp only [terminate_siblings, modify_apply]
  cases (self.tasks current).bind Task.parent with
  | none => exact .refl
  | some parent =>
    refine .single (.nudge_all _ fun slot task _ => ?_)
    split
    · rename_i hsibling
      obtain ⟨hother, hparent, hlive⟩ := hsibling
      refine .terminate task exit_code hlive rfl ?_ ?_
      · rw [hcurrent]
        exact fun hsame => hother (Option.some.inj hsame).symm
      · simp [hparent]
    · exact .same task

theorem finish_exit_snd {running : Task} (hrunning : self.tasks current = some running) (exit_code : Option UInt64) :
    (finish_exit current exit_code self).2 = (transition_current .Terminated
      (wake_parent current (self.put current (some { running with exit_code }))).2).2 := by
  obtain ⟨_, heq, _⟩ := finish_exit_apply hrunning exit_code
  rw [heq]

theorem finish_exit_moves (hcurrent : self.current = some current)
    (exit_code : Option UInt64) : Moves none (· = .Terminated) self (finish_exit current exit_code self).2 := by
  cases htask : self.tasks current with
  | none =>
    simp only [finish_exit, bind_apply, get_apply, htask]
    exact .refl
  | some task =>
    rw [finish_exit_snd htask]
    refine .head (.record_exit exit_code hcurrent htask) (.trans (wake_parent_moves current _) ?_)
    exact transition_current_moves .Terminated (by simp) (by simp) _

theorem terminate_siblings_current (current : Slot) (exit_code : Option UInt64) (self : Scheduler) :
    (terminate_siblings current exit_code self).2.current = self.current := by
  simp only [terminate_siblings, modify_apply]
  cases (self.tasks current).bind Task.parent <;> rfl

/-- A group exit ends the siblings before the caller. -/
theorem exit_current_moves (exit_code : Option UInt64) (terminate_group : Bool) (self : Scheduler) :
    Moves none (· = .Terminated) self
      (exit_current_with_status_and_group exit_code terminate_group self).2 := by
  simp only [exit_current_with_status_and_group, bind_apply, get_apply]
  cases hcurrent : self.current with
  | none => exact .refl
  | some current =>
    simp only [expect_some]
    cases terminate_group with
    | false => exact finish_exit_moves hcurrent exit_code
    | true =>
      refine .trans (terminate_siblings_moves hcurrent exit_code) (finish_exit_moves ?_ exit_code)
      rw [terminate_siblings_current, hcurrent]

end Methods

section Current

variable (self)

/-- Waking and killing concern tasks that do not run. -/
theorem wake_current : (wake id self).2.current = self.current := by
  simp only [wake, bind_apply, get_apply]
  cases hindex : self.position_of id with
  | none => rfl
  | some index =>
    obtain ⟨task, htask, _⟩ := position_of_some hindex
    simp only [okOr_some, htask]
    split <;> rfl

theorem wake_parent_current : (wake_parent child_index self).2.current = self.current := by
  obtain ⟨update, heq, _⟩ := wake_parent_apply child_index self
  rw [heq]
  rfl

theorem terminate_task_current : (terminate_task id exit_code self).2.current = self.current := by
  obtain heq | ⟨index, _, _, _, _, _, _, heq⟩ := terminate_task_cases id exit_code self
  · rw [heq]
  · rw [heq]
    exact wake_parent_current index _

variable {self} (hnobody : self.current = none)
include hnobody

/-- With nobody on the processor, nobody leaves it. -/
theorem transition_current_nobody : (transition_current next_state self).2.current = none := by
  simp [transition_current, hnobody]

theorem sleep_current_until_nobody : (sleep_current_until deadline self).2.current = none := by
  simp [sleep_current_until, hnobody]

theorem exit_current_nobody (exit_code : Option UInt64) (terminate_group : Bool) :
    (exit_current_with_status_and_group exit_code terminate_group self).2.current = none := by
  simp [exit_current_with_status_and_group, hnobody]

theorem idle_to_bootstrap_nobody : (idle_to_bootstrap now self).2.current = none := by
  obtain heq | ⟨_, heq | ⟨_, _, _, _, _, heq⟩⟩ := idle_to_bootstrap_cases now self
  · rwa [heq]
  · rwa [heq]
  · rw [heq]

end Current

end Scheduler

end leafos.tasking.scheduler
