import LeafOS.Tasking.ActivationSteps
import LeafOS.Tasking.Turns

namespace leafos.tasking.scheduler

open leafos.memory leafos.tasking.fd Prog

variable {M : Type} {start duration : UInt64} {id : TaskId}

namespace Scheduler

variable {self : Scheduler} {slot : Slot} {task : Task}

section Deadlines

variable {elapsed : Nat}

theorem half_range_toNat : (2 ^ 63 : UInt64).toNat = 2 ^ 63 := by decide +kernel

/-- The counter runs `elapsed - duration` ticks past the deadline, modulo its range. -/
theorem elapsed_since_deadline (start duration : UInt64) (elapsed : Nat) :
    (start + UInt64.ofNat elapsed - (start + duration)).toNat =
      (2 ^ 64 - duration.toNat + elapsed % 2 ^ 64) % 2 ^ 64 := by
  have hstart := start.toNat_lt
  have hduration := duration.toNat_lt
  simp only [UInt64.toNat_sub, UInt64.toNat_add, UInt64.toNat_ofNat']
  omega

theorem not_expired_early (hduration : duration ≤ 2 ^ 63) (hearly : elapsed < duration.toNat) :
    expired (start + UInt64.ofNat elapsed) (some (start + duration)) = false := by
  rw [UInt64.le_iff_toNat_le, half_range_toNat] at hduration
  have hsince := elapsed_since_deadline start duration elapsed
  simp only [expired, Option.any_some, decide_eq_false_iff_not, UInt64.lt_iff_toNat_lt, hsince,
    half_range_toNat]
  omega

theorem expired_in_time (hduration : duration ≤ 2 ^ 63) (hlate : duration.toNat ≤ elapsed)
    (hrange : elapsed < duration.toNat + 2 ^ 63) :
    expired (start + UInt64.ofNat elapsed) (some (start + duration)) = true := by
  rw [UInt64.le_iff_toNat_le, half_range_toNat] at hduration
  have hsince := elapsed_since_deadline start duration elapsed
  simp only [expired, Option.any_some, decide_eq_true_eq, UInt64.lt_iff_toNat_lt, hsince,
    half_range_toNat]
  omega

end Deadlines

variable (htask : self.tasks slot = some task)
include htask

/-- A live task other than the idle one keeps the idle task in its loop. -/
theorem idle_to_bootstrap_live (hidle : task.is_idle = false) (hlive : task.state ≠ .Terminated) (now : UInt64) :
    idle_to_bootstrap now self = (.ok (), (wake_expired_sleepers now self).2) := by
  have hwoken : (wake_expired_sleepers now self).2.has_live_non_idle_tasks = true := by
    rw [has_live_non_idle_tasks, position, List.find?_isSome]
    refine ⟨slot, List.mem_finRange slot, ?_⟩
    simp only [wake_expired_sleepers, modify_apply, map_tasks, htask, Option.map_some]
    split <;> simp [hidle, hlive]
  obtain heq | ⟨hnobody, _⟩ := idle_to_bootstrap_cases now self
  · exact heq
  · rw [hwoken] at hnobody
    cases hnobody

/-- Selection leaves a task alone that is not ready. -/
theorem select_next_spares
    (hstate : task.state ≠ .Ready) (start : Slot) : (select_next start self).2.tasks slot = some task := by
  obtain ⟨chosen, selected, hselected, hready, heq⟩ | heq := select_next_cases start self
  · rw [heq]
    have hother : slot ≠ chosen := by
      rintro rfl
      obtain rfl := Option.mem_unique hselected htask
      exact hstate hready
    exact (Function.update_of_ne hother _ _).trans htask
  · rw [heq]
    exact htask

/-- The sleeper is made ready exactly when its deadline has passed. -/
theorem wake_expired_sleepers_sleeper (hsleeping : task.state = .Sleeping) (now : UInt64) :
    (wake_expired_sleepers now self).2.tasks slot =
      some (if expired now task.wake_at then { task with state := .Ready, wake_at := none } else task) := by
  simp only [wake_expired_sleepers, modify_apply, map_tasks, htask, Option.map_some, hsleeping, true_and]

end Scheduler

variable {kernel : Kernel M} {past : Scheduler} {slot : Slot} {task : Task}

/-- An operation that reads the tick counter wakes the sleeper if its deadline has
passed and does nothing else to it. -/
theorem Operation.execute_sleeper {operation : Operation M} {now : UInt64} (hclock : operation.clock = some now)
    (hinv : kernel.global_scheduler.Inv past)
    (htask : kernel.global_scheduler.tasks slot = some task) (hsleeping : task.state = .Sleeping) :
    (operation.execute kernel).2.global_scheduler.tasks slot =
      some (if Scheduler.expired now task.wake_at then { task with state := .Ready, wake_at := none } else task) := by
  have hwoken := Scheduler.wake_expired_sleepers_sleeper htask hsleeping now
  cases operation with
  | wake_expired_sleepers now =>
    obtain rfl := Option.some.inj hclock
    exact hwoken
  | idle_to_bootstrap now =>
    obtain rfl := Option.some.inj hclock
    have hidle : task.is_idle = false := by
      by_contra hflag
      obtain hstate | hstate := (hinv.task_fits htask).idle_state (by simpa using hflag) <;>
        rw [hsleeping] at hstate <;> cases hstate
    rw [← hwoken, execute, locked_apply, Scheduler.idle_to_bootstrap_live htask hidle (by simp [hsleeping]) now]
  | _ => cases hclock

/-- The operation is performed when the given number of ticks has passed since `start`. -/
def Operation.ReadsAt (operation : Operation M) (start : UInt64) (elapsed : Nat) : Prop :=
  ∀ now, operation.clock = some now → now = start + UInt64.ofNat elapsed

/-- The task with the given id sleeps in a slot, until the given deadline. -/
def Kernel.Sleeps (kernel : Kernel M) (slot : Slot) (id : TaskId) (deadline : UInt64) : Prop :=
  ∃ task, kernel.global_scheduler.tasks slot = some task ∧ task.id = id ∧ task.state = .Sleeping ∧
    task.wake_at = some deadline

/-- States reached by operations, each at its own time, throughout which the slot holds
a sleeping task. -/
inductive StillAsleep (start : UInt64) (slot : Slot) (kernel : Kernel M) : Kernel M → Prop
  | here : StillAsleep start slot kernel kernel
  | later {middle : Kernel M} (hmiddle : StillAsleep start slot kernel middle) (operation : Operation M)
      (elapsed : Nat) (htime : operation.ReadsAt start elapsed)
      (hasleep : ∃ task, (operation.execute middle).2.global_scheduler.tasks slot = some task ∧
        task.state = .Sleeping) :
      StillAsleep start slot kernel (operation.execute middle).2

/-- A task that has gone to sleep, with its deadline; the table keeps its bookkeeping. -/
theorem sleep_ticks_sleeps {asleep : Kernel M} (hinv : kernel.global_scheduler.Inv past)
    (hcurrent : kernel.global_scheduler.current = some slot) (htask : kernel.global_scheduler.tasks slot = some task)
    (hpositive : 0 < duration) (hsleep : sleep_ticks start duration kernel = (.ok (), asleep)) :
    asleep.Sleeps slot task.id (start + duration) ∧ asleep.global_scheduler.Inv past := by
  have hnonzero : duration ≠ 0 := fun hzero => by simp [hzero] at hpositive
  rw [sleep_ticks, if_neg hnonzero] at hsleep
  simp only [bind_apply, get_apply, hcurrent, okOr_some] at hsleep
  have hsaved : (save_current_user_rsp slot kernel).2.global_scheduler.Inv past :=
    hinv.modify_task _ fun task htask => hinv.keeps htask
  have hstays : (save_current_user_rsp slot kernel).2.global_scheduler.current = some slot := hcurrent
  have hrecord : ∃ record, (save_current_user_rsp slot kernel).2.global_scheduler.tasks slot = some record ∧
      record.id = task.id := by
    simp [save_current_user_rsp, Scheduler.modify_task, Scheduler.put, htask]
  generalize hsave : save_current_user_rsp slot kernel = result at hsaved hstays hrecord hsleep
  obtain ⟨saved, middle⟩ := result
  obtain rfl : saved = .ok () := (congrArg Prod.fst hsave).symm
  obtain ⟨record, hrecord, hid⟩ := hrecord
  simp only at hsleep hsaved hstays hrecord
  cases hleave : leave_processor (Scheduler.sleep_current_until (start + duration)) middle with
  | mk outcome left =>
    simp only [hleave] at hsleep
    cases outcome with
    | err error | panic => cases hsleep
    | ok =>
      obtain ⟨rfl, hgranted⟩ := leave_processor_ok hleave
      obtain ⟨hafter, _⟩ := activate_selected_ok hsleep (by rintro ⟨⟩)
      have htable : asleep.global_scheduler =
          (Scheduler.sleep_current_until (start + duration) middle.global_scheduler).2 := by rw [hafter]
      refine ⟨?_, htable ▸ (Scheduler.sleep_current_until_moves _ _).inv hsaved⟩
      unfold Kernel.Sleeps
      rw [htable]
      obtain ⟨error, hne, heq⟩ | ⟨current, sleeper, hnow, hsleeper, _, _, heq⟩ :=
        Scheduler.sleep_current_until_cases (start + duration) middle.global_scheduler
      · exact absurd (hgranted error (by rw [heq])) hne
      · obtain rfl := Option.mem_unique hstays hnow
        obtain rfl := Option.mem_unique hrecord hsleeper
        rw [heq]
        refine ⟨{ record with state := .Sleeping, wake_at := some (start + duration) }, ?_, hid, rfl, rfl⟩
        exact Scheduler.select_next_spares (by simp [Scheduler.put]) (by simp) _

/-- What an operation does to a sleeper: nothing, it terminates it, or it makes it ready
because its deadline has passed. -/
theorem Kernel.Sleeps.step (hinv : kernel.global_scheduler.Inv past) (hduration : duration ≤ 2 ^ 63)
    (hsleeps : kernel.Sleeps slot id (start + duration)) (operation : Operation M) {elapsed : Nat}
    (htime : operation.ReadsAt start elapsed) :
    (operation.execute kernel).2.Sleeps slot id (start + duration) ∨
    ∃ task, (operation.execute kernel).2.global_scheduler.tasks slot = some task ∧ task.id = id ∧
      (task.state = .Terminated ∨
        task.state = .Ready ∧ task.wake_at = none ∧ operation.clock.isSome ∧ duration.toNat ≤ elapsed) := by
  obtain ⟨task, htask, hid, hsleeping, hdeadline⟩ := hsleeps
  cases hclock : operation.clock with
  | none =>
    have hfate := operation.execute_fate hinv slot
    rw [htask] at hfate
    obtain ⟨later, hlater, hturns⟩ | ⟨_, hgone⟩ := hfate.of_some
    · rw [hclock] at hturns
      obtain rfl | hterminated := hturns.sleeping hsleeping
      · exact .inl ⟨later, hlater, hid, hsleeping, hdeadline⟩
      · exact .inr ⟨later, hlater, hturns.same.id.trans hid, .inl hterminated⟩
    · simp [hsleeping] at hgone
  | some now =>
    have hafter := operation.execute_sleeper hclock hinv htask hsleeping
    rw [hdeadline, htime now hclock] at hafter
    by_cases hexpired : Scheduler.expired (start + UInt64.ofNat elapsed) (some (start + duration)) = true
    · rw [if_pos hexpired] at hafter
      refine .inr ⟨_, hafter, hid, .inr ⟨rfl, rfl, rfl, ?_⟩⟩
      by_contra hearly
      rw [Scheduler.not_expired_early hduration (Nat.lt_of_not_le hearly)] at hexpired
      cases hexpired
    · rw [if_neg hexpired] at hafter
      exact .inl ⟨task, hafter, hid, hsleeping, hdeadline⟩

theorem StillAsleep.sleeps {later : Kernel M} (hlater : StillAsleep start slot kernel later)
    (hinv : kernel.global_scheduler.Inv past) (hduration : duration ≤ 2 ^ 63)
    (hsleeps : kernel.Sleeps slot id (start + duration)) :
    later.Sleeps slot id (start + duration) ∧ later.global_scheduler.Inv past := by
  induction hlater with
  | here => exact ⟨hsleeps, hinv⟩
  | later _ operation elapsed htime hasleep ih =>
    obtain ⟨hmiddle, hkept⟩ := ih
    refine ⟨?_, operation.execute_inv hkept⟩
    obtain hsame | ⟨task, htask, _, hleft⟩ := hmiddle.step hkept hduration operation htime
    · exact hsame
    · obtain ⟨sleeper, hsleeper, hstate⟩ := hasleep
      obtain rfl := Option.mem_unique htask hsleeper
      simp [hstate] at hleft

/-- Sleepers never wake early and are never missed, wherever the tick counter wraps. A
task that has called `sleep_ticks(duration)` at tick `start` and has slept since leaves
that state only by being terminated or in a call that compares its deadline with the
clock at least `duration` ticks later; and every such call less than half the counter's
range after the deadline makes it ready. -/
theorem sleepers_wake_on_time (earlier : List (Operation M)) (objects : Objects) (memory : M) (cpu : Cpu)
    (kernel_root : PhysFrame) {kernel : Kernel M}
    (hkernel : kernel = (run earlier (.fresh objects memory cpu kernel_root)).2)
    {slot : Slot} {sleeper : Task} (hcurrent : kernel.global_scheduler.current = some slot)
    (hsleeper : kernel.global_scheduler.tasks slot = some sleeper) {start duration : UInt64}
    (hpositive : 0 < duration) (hduration : duration ≤ 2 ^ 63) {asleep : Kernel M}
    (hsleep : sleep_ticks start duration kernel = (.ok (), asleep)) {later : Kernel M}
    (hlater : StillAsleep start slot asleep later) (operation : Operation M) (elapsed : Nat)
    (htime : operation.ReadsAt start elapsed) :
    later.Sleeps slot sleeper.id (start + duration) ∧
    ((operation.execute later).2.Sleeps slot sleeper.id (start + duration) ∨
      ∃ task, (operation.execute later).2.global_scheduler.tasks slot = some task ∧ task.id = sleeper.id ∧
        (task.state = .Terminated ∨
          task.state = .Ready ∧ task.wake_at = none ∧ operation.clock.isSome ∧ duration.toNat ≤ elapsed)) ∧
    (operation.clock.isSome → duration.toNat ≤ elapsed → elapsed < duration.toNat + 2 ^ 63 →
      ∃ task, (operation.execute later).2.global_scheduler.tasks slot = some task ∧ task.id = sleeper.id ∧
        task.state = .Ready ∧ task.wake_at = none) := by
  obtain ⟨⟨past, hinv⟩, _⟩ := run_spec earlier
    (.fresh objects memory cpu kernel_root) Scheduler.inv_new
  rw [← hkernel] at hinv
  obtain ⟨hsleeps, hkept⟩ := sleep_ticks_sleeps hinv hcurrent hsleeper hpositive hsleep
  obtain ⟨hstill, hinv⟩ := hlater.sleeps hkept hduration hsleeps
  refine ⟨hstill, hstill.step hinv hduration operation htime, ?_⟩
  intro hclock hlate hrange
  obtain ⟨now, hclock⟩ := Option.isSome_iff_exists.mp hclock
  obtain ⟨task, htask, hid, hsleeping, hdeadline⟩ := hstill
  have hafter := operation.execute_sleeper hclock hinv htask hsleeping
  rw [hdeadline, htime now hclock, if_pos (Scheduler.expired_in_time hduration hlate hrange)] at hafter
  exact ⟨_, hafter, hid, rfl, rfl⟩

/-- Two kernel tasks are created and the first one starts. -/
def two_tasks : List (Operation Unit) :=
  [.create_kernel_task 0 none (.ok (.empty, 0)), .create_kernel_task 0 none (.ok (.empty, 0)), .start]

def two_tasks_kernel : Kernel Unit :=
  (run two_tasks (.fresh ⟨[], [], [], .empty⟩ () ⟨0, 0, 0⟩ 0)).2

/-- A sleep of three ticks that begins one tick before the counter wraps. -/
theorem sleepers_wake_on_time_sample :
    let asleep := (sleep_ticks (-1) 3 two_tasks_kernel).2
    asleep.Sleeps 0 1 2 ∧
      ∃ task, ((Operation.wake_expired_sleepers 2).execute asleep).2.global_scheduler.tasks 0 = some task ∧
        task.id = 1 ∧ task.state = .Ready ∧ task.wake_at = none := by
  intro asleep
  have hcurrent : two_tasks_kernel.global_scheduler.current = some 0 := by decide +kernel
  have hstate : (two_tasks_kernel.global_scheduler.tasks 0).map Task.id = some 1 := by decide +kernel
  obtain ⟨sleeper, hsleeper, hid⟩ := Option.map_eq_some_iff.mp hstate
  have hgranted : (sleep_ticks (-1) 3 two_tasks_kernel).1 = .ok () := by decide +kernel
  have hsleep : sleep_ticks (-1) 3 two_tasks_kernel = (.ok (), asleep) := Prod.ext hgranted rfl
  have htime : (Operation.wake_expired_sleepers 2 : Operation Unit).ReadsAt (-1) 3 := by
    rintro now ⟨⟩
    decide
  obtain ⟨hsleeps, _, hwoken⟩ := sleepers_wake_on_time two_tasks _ _ _ _ rfl hcurrent hsleeper (by decide)
    (by decide +kernel) hsleep .here (.wake_expired_sleepers 2) 3 htime
  rw [hid] at hsleeps hwoken
  exact ⟨hsleeps, hwoken rfl (by decide) (by decide +kernel)⟩

end leafos.tasking.scheduler
