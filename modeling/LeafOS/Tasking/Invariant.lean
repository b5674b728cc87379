import LeafOS.Tasking.Kernel

namespace leafos.tasking.scheduler

open leafos.tasking.fd

variable {self : Scheduler} {found : Slot}

/-- What the scheduler's registers say about one slot and its task. -/
structure Task.Fits (current : Option Slot) (next_id : Nat) (idle_index : Option Slot)
    (slot : Slot) (task : Task) : Prop where
  running : task.state = .Running ↔ current = some slot
  id_lt : task.id < next_id
  sleeping : task.state = .Sleeping → task.wake_at.isSome
  idle : task.is_idle ↔ idle_index = some slot
  idle_state : task.is_idle → task.state = .Ready ∨ task.state = .Running
  idle_parent : task.is_idle → task.parent = none

/-- The same for a slot that may be empty: an empty slot is neither current nor
idle. -/
def SlotFits (current : Option Slot) (next_id : Nat) (idle_index : Option Slot)
    (slot : Slot) : Option Task → Prop
  | some task => task.Fits current next_id idle_index slot
  | none => current ≠ some slot ∧ idle_index ≠ some slot

/-- The bookkeeping invariant of the task table, seen from an earlier state of it:
ids below the earlier `next_id` are found where they were then, so every other
id was assigned since. -/
structure Scheduler.Inv (scheduler past : Scheduler) : Prop where
  fits : ∀ slot, SlotFits scheduler.current scheduler.next_id scheduler.idle_index slot
    (scheduler.tasks slot)
  ids_inj : ∀ slot other task sibling, scheduler.tasks slot = some task →
    scheduler.tasks other = some sibling → task.id = sibling.id → slot = other
  next_id_le : past.next_id ≤ scheduler.next_id
  old : ∀ slot task, scheduler.tasks slot = some task → task.id < past.next_id →
    ∃ earlier, past.tasks slot = some earlier ∧ earlier.id = task.id

theorem Scheduler.inv_new : Scheduler.new.Inv Scheduler.new := by
  constructor <;> simp [Scheduler.new, SlotFits]

/-- Any state that has the invariant can be taken as the past of what follows. -/
theorem Scheduler.Inv.restart {past : Scheduler} (hinv : self.Inv past) : self.Inv self :=
  ⟨hinv.fits, hinv.ids_inj, le_rfl, fun _ task htask _ => ⟨task, htask, rfl⟩⟩

theorem Scheduler.put_tasks (self : Scheduler) (slot other : Slot) (task : Option Task) :
    (self.put slot task).tasks other = if other = slot then task else self.tasks other := by
  simp [Scheduler.put, Function.update_apply]

theorem Scheduler.position_some {test : Option Task → Bool}
    (h : self.position test = some found) : test (self.tasks found) = true := by
  simpa using List.find?_some h

theorem Scheduler.position_isNone (h : self.position Option.isNone = some found) : self.tasks found = none := by
  simpa using Scheduler.position_some h

theorem Scheduler.position_of_some {id : TaskId} (h : self.position_of id = some found) :
    ∃ task, self.tasks found = some task ∧ task.id = id := by
  have htest := Scheduler.position_some h
  simpa [Option.any_eq_true] using htest

section Update

variable {past : Scheduler} {slot : Slot} {task : Task} {changed : Task}

theorem Scheduler.Inv.task_fits (hinv : self.Inv past) (htask : self.tasks slot = some task) :
    task.Fits self.current self.next_id self.idle_index slot := by
  have h := hinv.fits slot
  rwa [htask] at h

theorem Scheduler.Inv.empty_slot (hinv : self.Inv past) (hempty : self.tasks slot = none) :
    self.current ≠ some slot ∧ self.idle_index ≠ some slot := by
  have hfits := hinv.fits slot
  rwa [hempty] at hfits

/-- A task is found under its id. -/
theorem Scheduler.Inv.position_of (hinv : self.Inv past) (htask : self.tasks slot = some task) :
    self.position_of task.id = some slot := by
  have hfound : (self.position_of task.id).isSome := by
    rw [Scheduler.position_of, Scheduler.position, List.find?_isSome]
    exact ⟨slot, List.mem_finRange slot, by simp [htask]⟩
  obtain ⟨found, hfound⟩ := Option.isSome_iff_exists.mp hfound
  obtain ⟨sibling, hsibling, hsame⟩ := Scheduler.position_of_some hfound
  rw [hfound, hinv.ids_inj found slot sibling task hsibling htask hsame]

/-- Rewriting one slot together with the registers keeps the invariant when the
new content fits the new registers, the registers agree about every other slot,
and a new id is fresh. -/
theorem Scheduler.Inv.update (hinv : self.Inv past) {after : Scheduler} {entry : Option Task}
    (htasks : after.tasks = Function.update self.tasks slot entry)
    (hfits : SlotFits after.current after.next_id after.idle_index slot entry)
    (hcurrent : ∀ other, other ≠ slot → (after.current = some other ↔ self.current = some other))
    (hidle : ∀ other, other ≠ slot → (after.idle_index = some other ↔ self.idle_index = some other))
    (hnext : self.next_id ≤ after.next_id)
    (hid : ∀ task, entry = some task → task.id = self.next_id ∨ ∃ old, self.tasks slot = some old ∧ old.id = task.id) :
    after.Inv past := by
  have hother : ∀ other, other ≠ slot → after.tasks other = self.tasks other := by
    intro other hne
    rw [htasks, Function.update_of_ne hne]
  have hslot : after.tasks slot = entry := by rw [htasks, Function.update_self]
  have hunique : ∀ other sibling task, other ≠ slot → self.tasks other = some sibling →
      entry = some task → task.id ≠ sibling.id := by
    intro other sibling task hne hsibling htask hsame
    obtain hfresh | ⟨old, hold, holdId⟩ := hid task htask
    · exact Nat.ne_of_lt (hinv.task_fits hsibling).id_lt (hsame.symm.trans hfresh)
    · exact hne (hinv.ids_inj other slot sibling old hsibling hold (by rw [holdId, hsame]))
  constructor
  · intro other
    by_cases hne : other = slot
    · subst other
      rw [hslot]
      exact hfits
    · rw [hother other hne]
      have hold := hinv.fits other
      cases htask : self.tasks other with
      | none =>
        rw [htask] at hold
        exact ⟨fun h => hold.1 ((hcurrent other hne).mp h), fun h => hold.2 ((hidle other hne).mp h)⟩
      | some task =>
        rw [htask] at hold
        exact ⟨hold.running.trans (hcurrent other hne).symm, lt_of_lt_of_le hold.id_lt hnext,
          hold.sleeping, hold.idle.trans (hidle other hne).symm, hold.idle_state, hold.idle_parent⟩
  · intro left right task sibling hleft hright hsame
    by_cases hl : left = slot <;> by_cases hr : right = slot
    · rw [hl, hr]
    · subst left
      rw [hslot] at hleft
      rw [hother right hr] at hright
      exact absurd hsame (hunique right sibling task hr hright hleft)
    · subst right
      rw [hslot] at hright
      rw [hother left hl] at hleft
      exact absurd hsame.symm (hunique left task sibling hl hleft hright)
    · rw [hother left hl] at hleft
      rw [hother right hr] at hright
      exact hinv.ids_inj left right task sibling hleft hright hsame
  · exact hinv.next_id_le.trans hnext
  · intro other task htask hlt
    by_cases hne : other = slot
    · subst other
      rw [hslot] at htask
      obtain hfresh | ⟨old, hold, holdId⟩ := hid task htask
      · exact absurd (hfresh ▸ hlt) (Nat.not_lt.mpr hinv.next_id_le)
      · rw [← holdId] at hlt ⊢
        exact hinv.old slot old hold hlt
    · rw [hother other hne] at htask
      exact hinv.old other task htask hlt

/-- A change to a task's record that the invariant does not notice. -/
structure Task.Keeps (before after : Task) : Prop where
  id : after.id = before.id
  parent : after.parent = before.parent
  is_idle : after.is_idle = before.is_idle
  running : after.state = .Running ↔ before.state = .Running
  sleeping : after.state = .Sleeping → after.wake_at.isSome
  idle_state : before.is_idle → after.state = .Ready ∨ after.state = .Running

theorem Task.Fits.keeps {current : Option Slot} {next_id : Nat} {idle_index : Option Slot}
    (hfits : task.Fits current next_id idle_index slot)
    (hkeeps : task.Keeps changed) : changed.Fits current next_id idle_index slot where
  running := hkeeps.running.trans hfits.running
  id_lt := hkeeps.id ▸ hfits.id_lt
  sleeping := hkeeps.sleeping
  idle := by rw [hkeeps.is_idle]; exact hfits.idle
  idle_state := by rw [hkeeps.is_idle]; exact hkeeps.idle_state
  idle_parent := by rw [hkeeps.is_idle, hkeeps.parent]; exact hfits.idle_parent

variable (hinv : self.Inv past)
include hinv

theorem Scheduler.Inv.map_tasks (update : Slot → Task → Task)
    (hkeeps : ∀ slot task, self.tasks slot = some task → task.Keeps (update slot task)) :
    (self.map_tasks update).Inv past := by
  constructor
  · intro slot
    have hold := hinv.fits slot
    cases htask : self.tasks slot with
    | none => simpa [Scheduler.map_tasks, htask] using hold
    | some task =>
      rw [htask] at hold
      simp only [Scheduler.map_tasks, htask, Option.map_some]
      exact hold.keeps (hkeeps slot task htask)
  · intro left right task sibling hleft hright hsame
    simp only [Scheduler.map_tasks, Option.map_eq_some_iff] at hleft hright
    obtain ⟨before, hbefore, rfl⟩ := hleft
    obtain ⟨before', hbefore', rfl⟩ := hright
    rw [(hkeeps _ _ hbefore).id, (hkeeps _ _ hbefore').id] at hsame
    exact hinv.ids_inj left right before before' hbefore hbefore' hsame
  · exact hinv.next_id_le
  · intro slot task htask hlt
    simp only [Scheduler.map_tasks, Option.map_eq_some_iff] at htask
    obtain ⟨before, hbefore, rfl⟩ := htask
    rw [(hkeeps _ _ hbefore).id] at hlt ⊢
    exact hinv.old slot before hbefore hlt

/-- A new ready task with the next id enters a free slot. -/
theorem Scheduler.Inv.insert (hfree : self.tasks slot = none)
    (hid : task.id = self.next_id) (hstate : task.state = .Ready) (hflag : task.is_idle = false) :
    ({ self with next_id := self.next_id + 1 }.put slot (some task)).Inv past := by
  have hempty := hinv.fits slot
  rw [hfree] at hempty
  refine hinv.update rfl ⟨?_, ?_, ?_, ?_, ?_, ?_⟩ (fun _ _ => Iff.rfl) (fun _ _ => Iff.rfl)
    (Nat.le_succ _) ?_
  · simpa [hstate, Scheduler.put] using hempty.1
  · simp [hid, Scheduler.put]
  · simp [hstate]
  · simpa [hflag, Scheduler.put] using hempty.2
  · simp [hflag]
  · simp [hflag]
  · rintro _ ⟨⟩
    exact .inl hid

section Present

variable (htask : self.tasks slot = some task)
include htask

/-- A task keeps its place, whatever it holds. -/
theorem Scheduler.Inv.keeps {exit_code : Option UInt64} {user : Option UserTask} {_stack : Option BlockedCall}
    {fds : FdTable} : task.Keeps { task with exit_code, user, _stack, fds } := by
  have hfits := hinv.task_fits htask
  exact ⟨rfl, rfl, rfl, Iff.rfl, hfits.sleeping, hfits.idle_state⟩

theorem Scheduler.Inv.put (hkeeps : task.Keeps changed) : (self.put slot (some changed)).Inv past := by
  refine hinv.update rfl ?_ (fun _ _ => Iff.rfl) (fun _ _ => Iff.rfl) le_rfl ?_
  · exact (hinv.task_fits htask).keeps hkeeps
  · rintro _ ⟨⟩
    exact .inr ⟨task, htask, hkeeps.id.symm⟩

/-- The running task stops running and nothing is current. -/
theorem Scheduler.Inv.leave (hcurrent : self.current = some slot) (hid : changed.id = task.id)
    (hparent : changed.parent = task.parent) (hflag : changed.is_idle = task.is_idle)
    (hstopped : changed.state ≠ .Running) (hsleeping : changed.state = .Sleeping → changed.wake_at.isSome)
    (hidle : task.is_idle → changed.state = .Ready) :
    ({ self.put slot (some changed) with current := none } : Scheduler).Inv past := by
  have hfits := hinv.task_fits htask
  refine hinv.update rfl ⟨?_, ?_, hsleeping, ?_, ?_, ?_⟩ ?_ (fun _ _ => Iff.rfl) le_rfl ?_
  · simp [hstopped]
  · rw [hid]
    exact hfits.id_lt
  · rw [hflag]
    exact hfits.idle
  · rw [hflag]
    exact fun h => .inl (hidle h)
  · rw [hflag, hparent]
    exact hfits.idle_parent
  · intro other hne
    simp [hcurrent, Ne.symm hne]
  · rintro _ ⟨⟩
    exact .inr ⟨task, htask, hid.symm⟩

/-- A ready task becomes the running one while nothing is current. -/
theorem Scheduler.Inv.select (hcurrent : self.current = none) :
    ({ self.put slot (some { task with state := .Running }) with current := some slot } :
      Scheduler).Inv past := by
  have hfits := hinv.task_fits htask
  refine hinv.update rfl ⟨?_, hfits.id_lt, ?_, hfits.idle, ?_, hfits.idle_parent⟩ ?_
    (fun _ _ => Iff.rfl) le_rfl ?_
  · simp
  · simp
  · exact fun _ => .inr rfl
  · intro other hne
    simp [hcurrent, Ne.symm hne]
  · rintro _ ⟨⟩
    exact .inr ⟨task, htask, rfl⟩

/-- A task that neither runs nor idles leaves the table. -/
theorem Scheduler.Inv.remove (hstopped : task.state = .Terminated) : (self.put slot none).Inv past := by
  have hfits := hinv.task_fits htask
  refine hinv.update rfl ⟨?_, ?_⟩ (fun _ _ => Iff.rfl) (fun _ _ => Iff.rfl) le_rfl ?_
  · intro hcurrent
    have hrunning := hfits.running.mpr hcurrent
    rw [hstopped] at hrunning
    cases hrunning
  · intro hidle
    obtain hstate | hstate := hfits.idle_state (hfits.idle.mpr hidle) <;> rw [hstopped] at hstate <;>
      cases hstate
  · rintro _ ⟨⟩

end Present

theorem Scheduler.Inv.modify_task (update : Task → Task)
    (hkeeps : ∀ task, self.tasks slot = some task → task.Keeps (update task)) :
    (self.modify_task slot update).Inv past := by
  unfold Scheduler.modify_task
  cases htask : self.tasks slot with
  | none =>
    have hsame : self.put slot none = self := by simp [Scheduler.put, ← htask]
    simpa only [Option.map_none, hsame] using hinv
  | some task => exact hinv.put htask (hkeeps task htask)

end Update

end leafos.tasking.scheduler
