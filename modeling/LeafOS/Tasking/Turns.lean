import LeafOS.Tasking.Runs

namespace leafos.tasking.scheduler

open leafos.memory leafos.tasking.fd Prog Relation

/-- What can happen to a task that stays in the table, one change at a time. `clock` is
the tick counter that the call reads, if it reads it, and `leaves` tells in which states
the call may put a task that was running, or any task if it terminates it. -/
inductive Task.Turn (clock : Option UInt64) (leaves : TaskState → Prop) : Task → Task → Prop
  | select (task : Task) (hready : task.state = .Ready) : Turn clock leaves task { task with state := .Running }
  | leave (task : Task) (state : TaskState) (wake_at : Option UInt64) (hrunning : task.state = .Running)
      (hleaves : leaves state) : Turn clock leaves task { task with state, wake_at }
  | record_exit (task : Task) (exit_code : Option UInt64) (hrunning : task.state = .Running) :
      Turn clock leaves task { task with exit_code }
  | wake (task : Task) (hblocked : task.state = .Blocked) : Turn clock leaves task { task with state := .Ready }
  | expire (task : Task) (now : UInt64) (hclock : clock = some now) (hsleeping : task.state = .Sleeping)
      (hexpired : Scheduler.expired now task.wake_at = true) :
      Turn clock leaves task { task with state := .Ready, wake_at := none }
  | terminate (task : Task) (exit_code : Option UInt64) (hlive : task.state ≠ .Terminated)
      (hleaves : leaves .Terminated) : Turn clock leaves task { task with exit_code, state := .Terminated }
  | tear (task : Task) (user : Option UserTask) (hterminated : task.state = .Terminated) :
      Turn clock leaves task { task with user }

abbrev Task.Turns (clock : Option UInt64) (leaves : TaskState → Prop) : Task → Task → Prop :=
  ReflTransGen (Task.Turn clock leaves)

section Task

variable {clock : Option UInt64} {leaves : TaskState → Prop} {before after : Task}

/-- What a task is does not change, whatever happens to it. -/
structure Task.Same (before after : Task) : Prop where
  id : after.id = before.id
  parent : after.parent = before.parent
  is_idle : after.is_idle = before.is_idle
  stack : after._stack = before._stack
  fds : after.fds = before.fds

theorem Task.Same.trans {middle : Task} (hfirst : before.Same middle) (hsecond : middle.Same after) :
    before.Same after where
  id := hsecond.id.trans hfirst.id
  parent := hsecond.parent.trans hfirst.parent
  is_idle := hsecond.is_idle.trans hfirst.is_idle
  stack := hsecond.stack.trans hfirst.stack
  fds := hsecond.fds.trans hfirst.fds

section Effects

variable (hturns : before.Turns clock leaves after)
include hturns

theorem Task.Turns.same : before.Same after := by
  induction hturns with
  | refl => exact ⟨rfl, rfl, rfl, rfl, rfl⟩
  | tail _ hturn ih => cases hturn <;> exact ⟨ih.id, ih.parent, ih.is_idle, ih.stack, ih.fds⟩

/-- What happens to a terminated task no longer concerns its exit. -/
theorem Task.Turns.terminated (hterminated : before.state = .Terminated) :
    after.state = .Terminated ∧ after.exit_code = before.exit_code := by
  induction hturns with
  | refl => exact ⟨hterminated, rfl⟩
  | tail _ hturn ih =>
    obtain ⟨hstate, hcode⟩ := ih
    cases hturn with
    | tear user _ => exact ⟨hstate, hcode⟩
    | terminate _ hlive _ => exact absurd hstate hlive
    | select h | leave _ _ h _ | record_exit _ h | wake h | expire _ _ h _ => rw [hstate] at h; cases h

/-- Where nothing blocks, only a task that was blocked is. -/
theorem Task.Turns.blocked (hleaves : ¬ leaves .Blocked) (hblocked : after.state = .Blocked) :
    before.state = .Blocked := by
  induction hturns with
  | refl => exact hblocked
  | tail _ hturn ih =>
    cases hturn with
    | select _ => cases hblocked
    | leave _ _ _ hallowed => exact absurd (hblocked ▸ hallowed) hleaves
    | record_exit _ _ => exact ih hblocked
    | wake _ | expire _ _ _ _ | terminate _ _ _ => cases hblocked
    | tear _ _ => exact ih hblocked

/-- Where nothing terminates, only a task that was terminated is. -/
theorem Task.Turns.was_terminated (hleaves : ¬ leaves .Terminated) (hterminated : after.state = .Terminated) :
    before.state = .Terminated := by
  induction hturns with
  | refl => exact hterminated
  | tail _ hturn ih =>
    cases hturn with
    | select _ => cases hterminated
    | leave _ _ _ hallowed => exact absurd (hterminated ▸ hallowed) hleaves
    | record_exit _ _ => exact ih hterminated
    | wake _ | expire _ _ _ _ => cases hterminated
    | terminate _ _ hallowed => exact absurd hallowed hleaves
    | tear _ _ => exact ih hterminated

end Effects

/-- A sleeper that nobody compares with the clock sleeps on, unless it is terminated. -/
theorem Task.Turns.sleeping (hturns : before.Turns none leaves after) (hsleeping : before.state = .Sleeping) :
    after = before ∨ after.state = .Terminated := by
  induction hturns with
  | refl => exact .inl rfl
  | tail hfirst hturn ih =>
    obtain rfl | hterminated := ih
    · cases hturn with
      | terminate _ _ _ => exact .inr rfl
      | expire _ hclock _ _ => cases hclock
      | select h | leave _ _ h _ | record_exit _ h | wake h | tear _ h => rw [hsleeping] at h; cases h
    · exact .inr (Task.Turns.terminated (.single hturn) hterminated).1

theorem Task.Nudged.turns {current : Option Slot} {slot : Slot} (hnudged : before.Nudged clock leaves current slot after) :
    before.Turns clock leaves after := by
  cases hnudged with
  | same => exact .refl
  | wake hblocked => exact .single (.wake before hblocked)
  | expire now hclock hsleeping hexpired => exact .single (.expire before now hclock hsleeping hexpired)
  | terminate exit_code hlive hleaves _ _ => exact .single (.terminate before exit_code hlive hleaves)

end Task

namespace Scheduler

/-- The same slots are in use, by the same tasks, after some turns. -/
def Treats (clock : Option UInt64) (leaves : TaskState → Prop) (before after : Scheduler) : Prop :=
  ∀ slot, Option.Rel (Task.Turns clock leaves) (before.tasks slot) (after.tasks slot)

section Rules

variable {clock : Option UInt64} {leaves : TaskState → Prop} {self before middle after : Scheduler} {slot : Slot}
  {task changed : Task}

theorem Treats.refl (self : Scheduler) : Treats clock leaves self self := by
  intro slot
  cases self.tasks slot with
  | none => exact .none
  | some task => exact .some .refl

theorem Treats.trans (hfirst : Treats clock leaves before middle) (hsecond : Treats clock leaves middle after) :
    Treats clock leaves before after := by
  intro slot
  exact rel_trans ReflTransGen.trans (hfirst slot) (hsecond slot)

theorem Treats.put (htask : self.tasks slot = some task) (hturns : task.Turns clock leaves changed) :
    Treats clock leaves self (self.put slot (some changed)) := by
  intro other
  rw [put_tasks]
  split
  · rename_i hsame
    rw [hsame, htask]
    exact .some hturns
  · exact Treats.refl self other

theorem Treats.map_tasks {update : Slot → Task → Task}
    (hupdate : ∀ slot task, self.tasks slot = some task → task.Turns clock leaves (update slot task)) :
    Treats clock leaves self (self.map_tasks update) := by
  intro slot
  simp only [Scheduler.map_tasks]
  cases htask : self.tasks slot with
  | none => exact .none
  | some task => exact .some (hupdate slot task htask)

theorem rel_some_left {α : Type} {R : α → α → Prop} {value : α} {entry : Option α}
    (hrel : Option.Rel R (some value) entry) : ∃ other, entry = some other ∧ R value other := by
  cases hrel with
  | some hvalues => exact ⟨_, rfl, hvalues⟩

theorem rel_some_right {α : Type} {R : α → α → Prop} {value : α} {entry : Option α}
    (hrel : Option.Rel R entry (some value)) : ∃ other, entry = some other ∧ R other value := by
  cases hrel with
  | some hvalues => exact ⟨_, rfl, hvalues⟩

/-- What became of a task. -/
theorem Treats.stays (htreats : Treats clock leaves before after) (htask : before.tasks slot = some task) :
    ∃ later, after.tasks slot = some later ∧ task.Turns clock leaves later :=
  rel_some_left (htask ▸ htreats slot)

/-- Where a task came from. -/
theorem Treats.stayed (htreats : Treats clock leaves before after) {later : Task}
    (hlater : after.tasks slot = some later) : ∃ task, before.tasks slot = some task ∧ task.Turns clock leaves later :=
  rel_some_right (hlater ▸ htreats slot)

end Rules

section Moves

variable {clock : Option UInt64} {leaves : TaskState → Prop} {self before after past : Scheduler}

theorem select_next_treats (start : Slot) (self : Scheduler) : Treats clock leaves self (select_next start self).2 := by
  obtain ⟨slot, task, htask, hready, heq⟩ | heq := select_next_cases start self
  · rw [heq]
    exact .put htask (.single (.select task hready))
  · rw [heq]
    exact .refl self

/-- A transition puts only the running task in another state. -/
theorem transition_current_others (next_state : TaskState) {slot : Slot} (hother : self.current ≠ some slot) :
    Option.Rel (Task.Turns clock leaves) (self.tasks slot) ((transition_current next_state self).2.tasks slot) := by
  obtain ⟨error, _, heq⟩ | ⟨current, task, hcurrent, _, _, _, heq⟩ := transition_current_cases next_state self
  · rw [heq]
    exact Treats.refl self slot
  · have hne : slot ≠ current := fun hsame => hother (hsame ▸ hcurrent)
    have hleft : ∀ changed, (self.put current changed).tasks slot = self.tasks slot :=
      fun changed => Function.update_of_ne hne _ _
    rw [heq, ← hleft]
    exact select_next_treats (current + 1) _ slot

theorem Moves.treats (hmoves : Moves clock leaves before after) (hinv : before.Inv past) :
    Treats clock leaves before after := by
  induction hmoves with
  | refl => exact .refl before
  | tail hfirst hmove ih =>
    have hmiddle := Moves.inv hfirst hinv
    apply ih.trans
    cases hmove with
    | select _ htask hready => exact .put htask (.single (.select _ hready))
    | leave state wake_at hcurrent htask hleaves _ _ _ =>
      have hrunning := (hmiddle.task_fits htask).running.mpr hcurrent
      exact .put htask (.single (.leave _ state wake_at hrunning hleaves))
    | record_exit exit_code hcurrent htask =>
      have hrunning := (hmiddle.task_fits htask).running.mpr hcurrent
      exact .put htask (.single (.record_exit _ exit_code hrunning))
    | nudge htask hnudged => exact .put htask hnudged.turns
    | nudge_all update hupdate => exact .map_tasks fun slot task htask => (hupdate slot task htask).turns

end Moves

end Scheduler

variable {M : Type}

/-- What can become of a slot of the table. -/
inductive Fate (clock : Option UInt64) (leaves : TaskState → Prop) (tables : FdTable → Prop) (reaps : Prop) :
    Option Task → Option Task → Prop
  | stays {before after : Option Task} (hrel : Option.Rel (Task.Turns clock leaves) before after) :
      Fate clock leaves tables reaps before after
  | arrives {task : Task} (hready : task.state = .Ready) (hfds : tables task.fds) :
      Fate clock leaves tables reaps none (some task)
  | reaped {task : Task} (hreaps : reaps) (hterminated : task.state = .Terminated) :
      Fate clock leaves tables reaps (some task) none
  | retired {task : Task} (hidle : task.is_idle = true) (hready : task.state = .Ready) :
      Fate clock leaves tables reaps (some task) none

section Fates

variable {clock : Option UInt64} {leaves : TaskState → Prop} {tables : FdTable → Prop} {reaps : Prop}
  {before : Scheduler} {slot : Slot} {task : Task} {entry : Option Task}

theorem Fate.same (entry : Option Task) : Fate clock leaves tables reaps entry entry := by
  cases entry with
  | none => exact .stays .none
  | some task => exact .stays (.some .refl)

theorem Fate.insert (hfree : before.tasks slot = none) (hready : task.state = .Ready)
    (hfds : tables task.fds) (other : Slot) :
    Fate clock leaves tables reaps (before.tasks other) ((before.put slot (some task)).tasks other) := by
  rw [Scheduler.put_tasks]
  split
  · rename_i hsame
    rw [hsame, hfree]
    exact .arrives hready hfds
  · exact .same _

theorem Fate.remove (htask : before.tasks slot = some task) (hfate : Fate clock leaves tables reaps (some task) none)
    (other : Slot) : Fate clock leaves tables reaps (before.tasks other) ((before.put slot none).tasks other) := by
  rw [Scheduler.put_tasks]
  split
  · rename_i hsame
    rw [hsame, htask]
    exact hfate
  · exact .same _

/-- A slot that is in use stays so, unless its task is reaped or is the idle task. -/
theorem Fate.of_some (hfate : Fate clock leaves tables reaps (some task) entry) :
    (∃ later, entry = some later ∧ task.Turns clock leaves later) ∨
    (entry = none ∧ (task.state = .Terminated ∨ task.is_idle = true ∧ task.state = .Ready)) := by
  cases hfate with
  | stays hrel => exact .inl (Scheduler.rel_some_left hrel)
  | reaped _ hterminated => exact .inr ⟨rfl, .inl hterminated⟩
  | retired hidle hready => exact .inr ⟨rfl, .inr ⟨hidle, hready⟩⟩

/-- A task that is in the table was there before or is new. -/
theorem Fate.to_some (hfate : Fate clock leaves tables reaps entry (some task)) :
    (∃ earlier, entry = some earlier ∧ earlier.Turns clock leaves task) ∨
    (entry = none ∧ task.state = .Ready ∧ tables task.fds) := by
  cases hfate with
  | stays hrel => exact .inl (Scheduler.rel_some_right hrel)
  | arrives hready hfds => exact .inr ⟨rfl, hready, hfds⟩

end Fates

/-- What an operation does to a slot of the table. -/
theorem Operation.execute_fate (operation : Operation M) {kernel : Kernel M} {past : Scheduler}
    (hinv : kernel.global_scheduler.Inv past) (slot : Slot) :
    Fate operation.clock operation.leaves operation.tables operation.reaps (kernel.global_scheduler.tasks slot)
      ((operation.execute kernel).2.global_scheduler.tasks slot) := by
  have heffect := operation.execute_effect hinv
  generalize (operation.execute kernel).2.global_scheduler = after at heffect
  cases heffect with
  | stays hmoves _ | switches hmoves _ _ => exact .stays (hmoves.treats hinv slot)
  | insert _ hfree _ _ hready _ hfds _ => exact Fate.insert hfree hready hfds slot
  | @install _ task hfree _ _ _ hready hfds _ =>
    have hstate : { task with is_idle := true }.state = .Ready := hready
    exact Fate.insert hfree hstate hfds slot
  | reap hreaps htask hstate => exact Fate.remove htask (.reaped hreaps hstate) slot
  | tear user _ htask hstate => exact .stays (Scheduler.Treats.put htask (.single (.tear _ user hstate)) slot)
  | retire _ _ htask hidle hready => exact Fate.remove htask (.retired hidle hready) slot

end leafos.tasking.scheduler
