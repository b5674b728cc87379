import LeafOS.Tasking.Moves

namespace leafos.tasking.scheduler

open leafos.memory leafos.tasking.fd Prog

namespace Scheduler

variable {self past : Scheduler} {slot : Slot}

/-- Installing the idle task does nothing if there is one, is refused without effect,
or turns a fresh kernel task into it. -/
theorem Inv.install_idle_cases (hinv : self.Inv past) (entry : KernelTaskEntry)
    (stack : KernelStack) :
    (self.idle_index.isSome ∧ Scheduler.install_idle entry stack self = (.ok (), self)) ∨
    (∃ error, Scheduler.install_idle entry stack self = (.err error, self)) ∨
    ∃ (slot : Slot) (task : Task), self.tasks slot = none ∧ self.idle_index = none ∧ task.id = self.next_id ∧
      task.parent = none ∧ task.state = .Ready ∧ task.fds = initial_table ∧ task.user = none ∧
      Scheduler.install_idle entry stack self = (.ok (), { { self with next_id := self.next_id + 1 }.put slot
        (some { task with is_idle := true }) with idle_index := some slot }) := by
  simp only [Scheduler.install_idle, bind_apply, get_apply]
  cases hidle : self.idle_index with
  | some index => exact .inl ⟨rfl, rfl⟩
  | none =>
    right
    simp only [Option.isNone_none, if_true, bind_apply]
    obtain ⟨error, heq⟩ | ⟨slot, task, hslot, hid, hparent, hstate, hflag, hfds, huser, heq⟩ :=
      create_kernel_task_cases entry none stack self
    · rw [heq]
      exact .inl ⟨error, rfl⟩
    · right
      refine ⟨slot, task, position_isNone hslot, trivial, hid, hparent, hstate, hfds, huser, ?_⟩
      have hcreated := hinv.insert (position_isNone hslot) hid hstate hflag
      rw [heq]
      simp only [get_apply]
      have hnew : ({ self with next_id := self.next_id + 1 }.put slot (some task)).tasks slot = some task := by
        rw [put_tasks, if_pos rfl]
      -- the id that was just assigned is found in the slot that was just filled
      have hindex : ({ self with next_id := self.next_id + 1 }.put slot (some task)).position_of self.next_id =
          some slot := by
        rw [← hid]
        exact hcreated.position_of hnew
      simp only [hindex, okOr_some, hnew, modify_apply]
      simp [Scheduler.put]

theorem Inv.install (hinv : self.Inv past) {task : Task} (hfree : self.tasks slot = none)
    (hnone : self.idle_index = none) (hid : task.id = self.next_id) (hparent : task.parent = none)
    (hstate : task.state = .Ready) : Inv { { self with next_id := self.next_id + 1 }.put slot
      (some { task with is_idle := true }) with idle_index := some slot } past := by
  refine hinv.update rfl ⟨?_, ?_, ?_, ?_, ?_, fun _ => hparent⟩ (fun _ _ => Iff.rfl) ?_ (Nat.le_succ _) ?_
  · have hempty := hinv.fits slot
    rw [hfree] at hempty
    simpa [hstate, Scheduler.put] using hempty.1
  · simp [hid, Scheduler.put]
  · simp [hstate]
  · simp
  · exact fun _ => .inl hstate
  · intro other hne
    simp [hnone, Ne.symm hne]
  · rintro _ ⟨⟩
    exact .inl hid

/-- Removing the idle task does nothing, or empties its slot while nobody runs. -/
theorem remove_idle_cases (self : Scheduler) :
    remove_idle self = (.ok (), self) ∨
    ∃ slot task, self.current = none ∧ self.idle_index = some slot ∧ self.tasks slot = some task ∧
      task.is_idle = true ∧ task.state = .Ready ∧
      remove_idle self = (.ok (), { self.put slot none with idle_index := none }) := by
  simp only [remove_idle, modify_apply]
  cases hidle : self.idle_index with
  | none => exact .inl rfl
  | some index =>
    dsimp only
    split
    · rename_i hready
      obtain ⟨task, htask, hfields⟩ := (Option.any_eq_true _ _).mp hready.2
      simp only [Bool.and_eq_true, beq_iff_eq] at hfields
      exact .inr ⟨index, task, Option.isNone_iff_eq_none.mp hready.1, rfl, htask, hfields.1, hfields.2, rfl⟩
    · exact .inl rfl

theorem Inv.retire (hinv : self.Inv past) (hcurrent : self.current = none)
    (hidle : self.idle_index = some slot) : Inv { self.put slot none with idle_index := none } past := by
  refine hinv.update rfl ⟨?_, ?_⟩ (fun _ _ => Iff.rfl) ?_ le_rfl ?_
  · change self.current ≠ some slot
    simp [hcurrent]
  · simp
  · intro other hne
    simp [hidle, Ne.symm hne]
  · rintro _ ⟨⟩

/-- A relation between the entries of tables composes when that between the tasks does. -/
theorem rel_trans {R : Task → Task → Prop} (htrans : ∀ {first second third}, R first second → R second third → R first third)
    {first second third : Option Task} (hleft : Option.Rel R first second) (hright : Option.Rel R second third) :
    Option.Rel R first third := by
  cases hleft with
  | none =>
    cases hright
    exact .none
  | some hleft =>
    cases hright with
    | some hright => exact .some (htrans hleft hright)

end Scheduler

end leafos.tasking.scheduler
