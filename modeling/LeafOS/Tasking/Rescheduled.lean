import LeafOS.Tasking.Preservation

namespace leafos.tasking.scheduler

open leafos.memory leafos.tasking.fd Prog

/-- A change to a task that concerns its scheduling only. It may have become blocked
if `blocks` is set. -/
structure Task.Rescheduled (blocks : Bool) (before after : Task) : Prop where
  id : after.id = before.id
  is_idle : after.is_idle = before.is_idle
  space : after.user.map UserTask.address_space = before.user.map UserTask.address_space
  stack : after._stack = before._stack
  fds : after.fds = before.fds
  blocked : after.state = .Blocked → before.state = .Blocked ∨ blocks = true

theorem Task.Rescheduled.refl (blocks : Bool) (task : Task) : task.Rescheduled blocks task :=
  ⟨rfl, rfl, rfl, rfl, rfl, .inl⟩

theorem Task.Rescheduled.trans {blocks : Bool} {before middle after : Task}
    (hfirst : before.Rescheduled blocks middle) (hsecond : middle.Rescheduled blocks after) :
    before.Rescheduled blocks after where
  id := hsecond.id.trans hfirst.id
  is_idle := hsecond.is_idle.trans hfirst.is_idle
  space := hsecond.space.trans hfirst.space
  stack := hsecond.stack.trans hfirst.stack
  fds := hsecond.fds.trans hfirst.fds
  blocked := fun hblocked => (hsecond.blocked hblocked).elim hfirst.blocked .inr

theorem Task.Nudged.rescheduled {clock : Option UInt64} {leaves : TaskState → Prop} {blocks : Bool}
    {current : Option Slot} {slot : Slot} {task changed : Task}
    (hnudged : task.Nudged clock leaves current slot changed) : task.Rescheduled blocks changed := by
  cases hnudged with
  | same => exact .refl blocks task
  | wake _ | expire _ _ _ _ | terminate _ _ _ _ _ => exact ⟨rfl, rfl, rfl, rfl, rfl, nofun⟩

namespace Scheduler

/-- A change to the task table that concerns scheduling only: the same tasks are in
the same slots, with the same descriptors and address spaces. -/
structure Rescheduled (blocks : Bool) (before after : Scheduler) : Prop where
  idle_index : after.idle_index = before.idle_index
  tasks : ∀ slot, Option.Rel (Task.Rescheduled blocks) (before.tasks slot) (after.tasks slot)

section Rules

variable {blocks : Bool} {before middle after self : Scheduler} {slot : Slot} {task changed : Task}

theorem Rescheduled.refl (blocks : Bool) (self : Scheduler) : self.Rescheduled blocks self := by
  refine ⟨rfl, fun slot => ?_⟩
  cases self.tasks slot with
  | none => exact .none
  | some task => exact .some (.refl blocks task)

theorem Rescheduled.trans (hfirst : before.Rescheduled blocks middle)
    (hsecond : middle.Rescheduled blocks after) : before.Rescheduled blocks after := by
  refine ⟨hsecond.idle_index.trans hfirst.idle_index, fun slot => ?_⟩
  exact rel_trans (fun hleft hright => hleft.trans hright) (hfirst.tasks slot) (hsecond.tasks slot)

theorem Rescheduled.put (htask : self.tasks slot = some task) (hchanged : task.Rescheduled blocks changed) :
    self.Rescheduled blocks (self.put slot (some changed)) := by
  refine ⟨rfl, fun other => ?_⟩
  rw [put_tasks]
  split
  · rename_i hsame
    rw [hsame, htask]
    exact .some hchanged
  · exact (Rescheduled.refl blocks self).tasks other

theorem Rescheduled.map_tasks {update : Slot → Task → Task}
    (hupdate : ∀ slot task, self.tasks slot = some task → task.Rescheduled blocks (update slot task)) :
    self.Rescheduled blocks (self.map_tasks update) := by
  refine ⟨rfl, fun slot => ?_⟩
  simp only [Scheduler.map_tasks]
  cases htask : self.tasks slot with
  | none => exact .none
  | some task => exact .some (hupdate slot task htask)

/-- Only the register `current` changes. -/
theorem Rescheduled.current (hsame : before.Rescheduled blocks after) (current : Option Slot) :
    before.Rescheduled blocks { after with current } := ⟨hsame.idle_index, hsame.tasks⟩

end Rules

section Moves

variable {clock : Option UInt64} {leaves : TaskState → Prop} {blocks : Bool} {before after : Scheduler}

theorem Move.rescheduled (hmove : Move clock leaves before after) (hblocks : leaves .Blocked → blocks = true) :
    before.Rescheduled blocks after := by
  cases hmove with
  | @select slot task _ htask _ =>
    have hselected : task.Rescheduled blocks { task with state := .Running } := ⟨rfl, rfl, rfl, rfl, rfl, nofun⟩
    exact (Rescheduled.put htask hselected).current (some slot)
  | @leave slot task state wake_at _ htask hleaves _ _ _ =>
    have hleft : task.Rescheduled blocks { task with state, wake_at } :=
      ⟨rfl, rfl, rfl, rfl, rfl, fun hblocked => .inr (hblocks (hblocked ▸ hleaves))⟩
    exact (Rescheduled.put htask hleft).current none
  | record_exit exit_code _ htask => exact .put htask ⟨rfl, rfl, rfl, rfl, rfl, .inl⟩
  | nudge htask hnudged => exact .put htask hnudged.rescheduled
  | nudge_all update hupdate => exact .map_tasks fun slot task htask => (hupdate slot task htask).rescheduled

/-- What the scheduler's methods do to a table concerns scheduling only. -/
theorem Moves.rescheduled (hmoves : Moves clock leaves before after) (hblocks : leaves .Blocked → blocks = true) :
    before.Rescheduled blocks after := by
  induction hmoves with
  | refl => exact .refl blocks before
  | tail _ hmove ih => exact ih.trans (hmove.rescheduled hblocks)

end Moves

end Scheduler

end leafos.tasking.scheduler
