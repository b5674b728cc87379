import LeafOS.Tasking.ActivationSteps
import LeafOS.Tasking.Interleaving
import LeafOS.Tasking.Turns

namespace leafos.tasking.scheduler

open leafos.memory leafos.tasking.fd Prog

variable {M : Type}

/-- The top of a task's kernel stack, as `set_kernel_stack` aligns it. -/
def Task.kernel_stack (task : Task) : Option Nat := task.stack_top.map fun stack_top => stack_top / 16 * 16

/-- `entered` tells with which stack pointer each task entered the system call it is in.
Every live task in a call, except the one in the slot `current`, has that stack pointer in
its record. -/
structure Scheduler.Parked (scheduler : Scheduler) (entered : TaskId → Option Nat) (current : Option Slot) :
    Prop where
  inv : scheduler.Inv scheduler
  fresh : ∀ id, scheduler.next_id ≤ id → entered id = none
  saved : ∀ slot task user rsp, current ≠ some slot → scheduler.tasks slot = some task →
    task.state ≠ .Terminated → task.user = some user → entered task.id = some rsp → user.syscall_user_rsp = rsp

/-- The registers of the processor follow the running task. -/
structure Kernel.Follows (entered : TaskId → Option Nat) (kernel : Kernel M) : Prop where
  parked : kernel.global_scheduler.Parked entered kernel.global_scheduler.current
  running : ∀ task user, kernel.running = some task → task.user = some user →
    (∀ rsp, entered task.id = some rsp → kernel.cpu.user_rsp = rsp) ∧
      task.kernel_stack = some kernel.cpu.kernel_rsp

/-- Everybody's stack pointer is in its record, the running task's too. -/
def Kernel.Saved (entered : TaskId → Option Nat) (kernel : Kernel M) : Prop :=
  kernel.global_scheduler.Parked entered none

section Rules

variable {entered : TaskId → Option Nat} {clock : Option UInt64} {leaves : TaskState → Prop}
  {tables : FdTable → Prop} {reaps : Prop} {before after : Scheduler} {current : Option Slot}
  {kernel later : Kernel M}

/-- What happens to a task that is alive afterwards concerns neither its stack pointer nor
its kernel stack. -/
theorem Task.Turns.user {before after : Task} (hturns : before.Turns clock leaves after)
    (hlive : after.state ≠ .Terminated) :
    before.state ≠ .Terminated ∧ after.user = before.user ∧ after.stack_top = before.stack_top := by
  induction hturns with
  | refl => exact ⟨hlive, rfl, rfl⟩
  | tail _ hturn ih =>
    have hmiddle := ih fun hterminated => hlive (Task.Turns.terminated (.single hturn) hterminated).1
    cases hturn with
    | tear user hterminated => exact absurd hterminated hlive
    | _ => exact hmiddle

/-- A slot that was empty holds a task without a call. -/
theorem Scheduler.Parked.arrival (hparked : before.Parked entered current) (hinv : after.Inv before) {slot : Slot}
    {task : Task} (htask : after.tasks slot = some task) (hfree : before.tasks slot = none) :
    entered task.id = none := by
  refine hparked.fresh task.id (Nat.le_of_not_lt fun hlt => ?_)
  obtain ⟨earlier, hearlier, _⟩ := hinv.old slot task htask hlt
  rw [hfree] at hearlier
  cases hearlier

theorem Scheduler.Parked.fates (hparked : before.Parked entered current) (hinv : after.Inv before)
    (hfates : ∀ slot, Fate clock leaves tables reaps (before.tasks slot) (after.tasks slot)) :
    after.Parked entered current := by
  refine ⟨hinv.restart, fun id hid => hparked.fresh id (Nat.le_trans hinv.next_id_le hid), ?_⟩
  intro slot task user rsp hother htask hlive huser hentered
  obtain ⟨earlier, hearlier, hturns⟩ | ⟨hfree, _, _⟩ := (htask ▸ hfates slot).to_some
  · obtain ⟨hwas, hsame, _⟩ := hturns.user hlive
    exact hparked.saved slot earlier user rsp hother hearlier hwas (hsame ▸ huser) (hturns.same.id ▸ hentered)
  · rw [hparked.arrival hinv htask hfree] at hentered
    cases hentered

/-- With nobody running, everything is in the records. -/
theorem Kernel.Saved.idle (hsaved : kernel.Saved entered) (hcurrent : kernel.global_scheduler.current = none) :
    kernel.Follows entered := by
  refine ⟨hcurrent ▸ hsaved, fun task user hrunning => ?_⟩
  rw [Kernel.running, hcurrent] at hrunning
  cases hrunning

theorem Scheduler.Parked.weaken (hparked : before.Parked entered none) (current : Option Slot) :
    before.Parked entered current :=
  ⟨hparked.inv, hparked.fresh, fun slot task user rsp _ => hparked.saved slot task user rsp nofun⟩

/-- What a task left on its stack is kept apart from its stack pointer. -/
theorem Kernel.Saved.modify_stack (hsaved : kernel.Saved entered) (slot : Slot) (call : Option BlockedCall) :
    Kernel.Saved entered { kernel with
      global_scheduler := kernel.global_scheduler.modify_task slot fun task => { task with _stack := call } } := by
  refine ⟨?_, hsaved.fresh, fun other later user rsp _ hlater hlive huser hentered => ?_⟩
  · exact (hsaved.inv.modify_task _ fun task htask => hsaved.inv.keeps htask).restart
  · rw [Scheduler.modify_task, Scheduler.put_tasks] at hlater
    split at hlater
    · obtain ⟨task, htask, rfl⟩ := Option.map_eq_some_iff.mp hlater
      exact hsaved.saved slot task user rsp (by rintro ⟨⟩) htask hlive huser hentered
    · exact hsaved.saved other later user rsp (by rintro ⟨⟩) hlater hlive huser hentered

variable (hfollows : kernel.Follows entered)
include hfollows

/-- A change of the table that leaves the running task and the registers alone. -/
theorem Kernel.Follows.fates (hinv : later.global_scheduler.Inv kernel.global_scheduler)
    (hfates : ∀ slot, Fate clock leaves tables reaps (kernel.global_scheduler.tasks slot)
      (later.global_scheduler.tasks slot)) (hcurrent : later.global_scheduler.current = kernel.global_scheduler.current)
    (hcpu : later.cpu = kernel.cpu) : later.Follows entered := by
  refine ⟨hcurrent ▸ hfollows.parked.fates hinv hfates, fun task user hrunning huser => ?_⟩
  obtain ⟨slot, hslot, htask⟩ := Option.bind_eq_some_iff.mp hrunning
  rw [hcurrent] at hslot
  have hstate := (hinv.task_fits htask).running.mpr (hcurrent ▸ hslot)
  obtain ⟨earlier, hearlier, hturns⟩ | ⟨hfree, hready, _⟩ := (htask ▸ hfates slot).to_some
  · obtain ⟨_, hsame, hstack⟩ := hturns.user (by rw [hstate]; decide)
    have hrunning : kernel.running = some earlier := Option.bind_eq_some_iff.mpr ⟨slot, hslot, hearlier⟩
    have hregisters := hfollows.running earlier user hrunning (hsame ▸ huser)
    rwa [hcpu, Task.kernel_stack, hstack, hturns.same.id]
  · cases hstate.symm.trans hready

/-- The same when nothing happens to the table at all. -/
theorem Kernel.Follows.elsewhere (htable : later.global_scheduler = kernel.global_scheduler)
    (hcpu : later.cpu = kernel.cpu) : later.Follows entered := by
  refine ⟨by rw [htable]; exact hfollows.parked, fun task user hrunning huser => ?_⟩
  rw [Kernel.running, htable] at hrunning
  rw [hcpu]
  exact hfollows.running task user hrunning huser

theorem Kernel.Follows.saved (hcurrent : kernel.global_scheduler.current = none) : kernel.Saved entered := by
  have hparked := hfollows.parked
  rwa [hcurrent] at hparked

/-- Who is not in a call has nothing to save. -/
theorem Kernel.Follows.saved_outside
    (houtside : ∀ task user, kernel.running = some task → task.user = some user → entered task.id = none) :
    kernel.Saved entered := by
  refine ⟨hfollows.parked.inv, hfollows.parked.fresh, fun slot task user rsp _ htask hlive huser hentered => ?_⟩
  by_cases hother : kernel.global_scheduler.current = some slot
  · rw [houtside task user (Option.bind_eq_some_iff.mpr ⟨slot, hother, htask⟩) huser] at hentered
    cases hentered
  · exact hfollows.parked.saved slot task user rsp hother htask hlive huser hentered

end Rules

section Programs

variable {entered : TaskId → Option Nat} {kernel : Kernel M} (operation : Operation M)

/-- An operation keeps what is in the records. -/
theorem Operation.execute_saved (hsaved : kernel.Saved entered) : (operation.execute kernel).2.Saved entered :=
  Scheduler.Parked.fates hsaved (operation.execute_inv hsaved.inv) (operation.execute_fate hsaved.inv)

/-- One that leaves the running task and the registers alone. -/
theorem Operation.execute_follows (hfollows : kernel.Follows entered) (hstays : operation.Switches →
      (operation.execute kernel).2.global_scheduler.current = kernel.global_scheduler.current)
    (hcpu : (operation.execute kernel).2.cpu = kernel.cpu) : (operation.execute kernel).2.Follows entered :=
  hfollows.fates (operation.execute_inv hfollows.parked.inv) (operation.execute_fate hfollows.parked.inv)
    (operation.execute_current hfollows.parked.inv hstays) hcpu

/-- The running task saves its stack pointer. -/
theorem Kernel.Follows.saves {current : Slot} (hfollows : kernel.Follows entered)
    (hcurrent : kernel.global_scheduler.current = some current) :
    Kernel.Saved entered { kernel with global_scheduler := kernel.saved current } ∧
      Kernel.Follows entered { kernel with global_scheduler := kernel.saved current } := by
  have hsaved : (kernel.saved current).Parked entered none := by
    refine ⟨?_, hfollows.parked.fresh, fun slot later user rsp _ hlater hlive huser hentered => ?_⟩
    · exact (hfollows.parked.inv.modify_task _ fun task htask => hfollows.parked.inv.keeps htask).restart
    · rw [Kernel.saved, Scheduler.modify_task, Scheduler.put_tasks] at hlater
      split at hlater
      · obtain ⟨task, htask, rfl⟩ := Option.map_eq_some_iff.mp hlater
        obtain ⟨earlier, hearlier, rfl⟩ := Option.map_eq_some_iff.mp huser
        have hrunning : kernel.running = some task := Option.bind_eq_some_iff.mpr ⟨current, hcurrent, htask⟩
        exact (hfollows.running task earlier hrunning hearlier).1 rsp hentered
      · rename_i hother
        have hne : kernel.global_scheduler.current ≠ some slot := fun hsame =>
          hother (Option.mem_unique hsame hcurrent)
        exact hfollows.parked.saved slot later user rsp hne hlater hlive huser hentered
  refine ⟨hsaved, hsaved.weaken _, fun later user hrunning huser => ?_⟩
  obtain ⟨slot, hslot, hlater⟩ := Option.bind_eq_some_iff.mp hrunning
  obtain rfl : current = slot := Option.mem_unique hcurrent hslot
  change (kernel.global_scheduler.put current _).tasks current = _ at hlater
  rw [Scheduler.put_tasks, if_pos rfl] at hlater
  obtain ⟨task, htask, rfl⟩ := Option.map_eq_some_iff.mp hlater
  obtain ⟨earlier, hearlier, rfl⟩ := Option.map_eq_some_iff.mp huser
  exact hfollows.running task earlier (Option.bind_eq_some_iff.mpr ⟨current, hcurrent, htask⟩) hearlier

/-- Activation loads the registers of the selected task. -/
theorem activate_selected_ensures :
    Ensures (Kernel.Saved entered) (activate_selected : KernelM M Unit) (fun _ => Kernel.Follows entered)
      fun _ => Kernel.Follows entered := by
  constructor
  intro kernel hsaved
  have hloaded : ∀ cpu : Cpu, (∀ task user, kernel.running = some task → task.user = some user →
      cpu.user_rsp = user.syscall_user_rsp ∧ task.kernel_stack = some cpu.kernel_rsp) →
      Kernel.Follows entered { kernel with cpu } := by
    intro cpu hcpu
    refine ⟨Scheduler.Parked.weaken hsaved _, fun task user hrunning huser => ?_⟩
    obtain ⟨hrsp, hstack⟩ := hcpu task user hrunning huser
    refine ⟨fun rsp hentered => hrsp.trans ?_, hstack⟩
    obtain ⟨slot, hslot, htask⟩ := Option.bind_eq_some_iff.mp hrunning
    have hstate := (hsaved.inv.task_fits htask).running.mpr hslot
    exact hsaved.saved slot task user rsp nofun htask (by rw [hstate]; decide) huser hentered
  simp only [activate_selected, activate_task_address_space, bind_apply, get_apply]
  cases hcurrent : kernel.global_scheduler.current with
  | none => exact hloaded _ fun task user hrunning => by simp [Kernel.running, hcurrent] at hrunning
  | some slot =>
    cases htask : kernel.global_scheduler.tasks slot with
    | none => simp only [bind_apply, htask, expect_none]
    | some task =>
      have hselected : ∀ found, kernel.running = some found → task = found := fun found hfound =>
        Option.some.inj (by rwa [Kernel.running, hcurrent, Option.bind_some, htask] at hfound)
      simp only [bind_apply, htask, expect_some]
      cases huser : task.user with
      | none =>
        simp only [set_apply]
        refine hloaded _ fun found user hfound hthere => ?_
        rw [← hselected found hfound, huser] at hthere
        cases hthere
      | some user =>
        simp only [bind_apply]
        cases hstack : task.stack_top with
        | none => simp only [expect_none]
        | some stack_top =>
          simp only [expect_some]
          cases hroot : user.address_space.root with
          | none => simp only [expect_none]
          | some root =>
            simp only [expect_some, set_apply]
            refine hloaded _ fun found there hfound hthere => ?_
            obtain rfl := hselected found hfound
            obtain rfl := Option.mem_unique huser hthere
            exact ⟨rfl, by rw [Task.kernel_stack, hstack, Option.map_some]⟩

/-- The registers follow the running task through every call. -/
theorem follows_discipline (entered : TaskId → Option Nat) :
    Discipline (M := M) (Kernel.Follows entered) (Kernel.Saved entered) fun _ => True where
  saves := Kernel.Follows.saves
  rests := Kernel.Follows.saved
  stays := fun operation _ hschedules hfollows hcurrent =>
    operation.execute_follows hfollows hcurrent (by rw [hschedules.execute])
  selects := fun operation _ _ hsaved => operation.execute_saved hsaved
  activates := activate_selected_ensures
  halts := fun _ => trivial
  breaks := fun _ _ _ _ => trivial

theorem Kernel.Saved.stuck (hsaved : kernel.Saved entered) (_ : kernel.Follows entered)
    (hstuck : (Scheduler.transition_current .Blocked kernel.global_scheduler).1 = .err .NoRunnableTasks) :
    ((Operation.block_current : Operation M).execute kernel).2.Follows entered := by
  refine Kernel.Saved.idle (Operation.execute_saved .block_current hsaved) ?_
  rw [Operation.execute, discard_snd, locked_apply, Scheduler.block_current]
  obtain ⟨error, hne, heq⟩ | ⟨current, task, _, _, _, _, heq⟩ :=
    Scheduler.transition_current_cases .Blocked kernel.global_scheduler
  · rw [heq] at hstuck
    exact absurd (Outcome.err.inj hstuck) hne
  · rw [heq] at hstuck ⊢
    obtain ⟨_, _, _, _, hselect⟩ | hselect := Scheduler.select_next_cases (current + 1) _
    · rw [hselect] at hstuck
      cases hstuck
    · rw [hselect]

/-- Only the idle task hands control back. -/
theorem Scheduler.idle_to_bootstrap_idle {now : UInt64} {self after past : Scheduler} (hinv : self.Inv past)
    (hcall : idle_to_bootstrap now self = (.ok (), after)) :
    after.current = self.current ∨ after.current = none ∧
      ∃ current task, self.current = some current ∧ self.tasks current = some task ∧ task.is_idle = true := by
  obtain heq | ⟨_, heq | ⟨current, idle, hcurrent, hidle, hflag, heq⟩⟩ := idle_to_bootstrap_cases now self
  · cases heq.symm.trans hcall
    exact .inl rfl
  · cases heq.symm.trans hcall
  · cases heq.symm.trans hcall
    obtain ⟨task, htask, hturns⟩ := ((wake_expired_sleepers_moves now self).treats hinv).stayed hidle
    exact .inr ⟨rfl, current, task, hcurrent, htask, hturns.same.is_idle.symm.trans hflag⟩

variable (hfollows : kernel.Follows entered)
include hfollows

/-- Reaping concerns a task that does not run. -/
theorem reap_terminated_follows (destroy : Destroy M) (id : TaskId) :
    (reap_terminated destroy id kernel).2.Follows entered := by
  refine (Operation.reap_terminated destroy id).execute_follows hfollows (by rintro ⟨⟩) ?_
  rw [Operation.execute]
  obtain ⟨_, heq⟩ | ⟨_, _, _, _, _, ⟨_, heq⟩ | ⟨_, _, _, _, _, heq⟩⟩ := reap_terminated_effect destroy id kernel
  · rw [heq]
  · rw [heq]
    rfl
  · rw [heq]
    rfl

theorem wait_for_child_follows (destroy : Destroy M) (child : Option TaskId)
    (hpanic : (wait_for_child destroy child kernel).1 ≠ .panic) :
    (wait_for_child destroy child kernel).2.Follows entered := by
  obtain heq | ⟨current, task, hcurrent, _, ⟨id, _, heq⟩ | ⟨_, heq, hblocked⟩⟩ :=
    wait_for_child_effect destroy child kernel
  · rwa [heq]
  · rw [heq]
    exact reap_terminated_follows hfollows destroy id
  · have hafter := ((follows_discipline entered).block_in_wait (Operation.execute_saved .block_current)
      (fun slot call hsaved => hsaved.modify_stack slot (some call)) Kernel.Saved.stuck kernel current child).ends
      kernel ⟨hcurrent, rfl, hfollows⟩
    rw [heq]
    generalize block_in_wait current child kernel = result at hafter hblocked ⊢
    rcases result with ⟨_ | _ | _, after⟩
    · exact hafter
    · exact hafter
    · exact absurd (hblocked rfl) hpanic

/-- Whoever hands control back has nothing to save. -/
theorem Kernel.Follows.idle_leaves (horderly : kernel.global_scheduler.Orderly)
    (now : UInt64) (after : Scheduler) (heq : Scheduler.idle_to_bootstrap now kernel.global_scheduler = (.ok (), after))
    (hnobody : after.current = none) : Kernel.Saved entered { kernel with global_scheduler := after } := by
  obtain hkept | ⟨_, current, idle, hcurrent, htask, hflag⟩ := Scheduler.idle_to_bootstrap_idle horderly.inv heq
  · have hsaved := (Operation.idle_to_bootstrap now).execute_saved (hfollows.saved (hkept.symm.trans hnobody))
    rwa [Operation.execute, locked_apply, heq] at hsaved
  · have hsaved := (Operation.idle_to_bootstrap now).execute_saved
      (hfollows.saved_outside fun task user hrunning huser => ?_)
    · rwa [Operation.execute, locked_apply, heq] at hsaved
    -- the idle task has no address space, so it makes no calls
    have hfound : kernel.running = some idle := Option.bind_eq_some_iff.mpr ⟨current, hcurrent, htask⟩
    obtain rfl := Option.mem_unique hfound hrunning
    have hspace := horderly.idle current ((horderly.inv.task_fits htask).idle.mp hflag)
    simp [Scheduler.space_of, htask, huser] at hspace

theorem spawn_user_follows (destroy : Destroy M) (space : AddressSpace)
    (entry stack argument_count argument_vector : Nat) (kernel_stack : KernelStack)
    (fd_mappings : List FdMapping) (fd_closes : List Nat) :
    (spawn_user_with_arguments_and_fds destroy space entry stack argument_count argument_vector kernel_stack
      fd_mappings fd_closes kernel).2.Follows entered := by
  obtain ⟨slot, task, objects, hfree, hid, hready, hflag, _, _, heq⟩ | ⟨objects, _, heq⟩ | ⟨_, heq, _⟩ :=
    spawn_user_cases destroy space entry stack argument_count argument_vector kernel_stack fd_mappings fd_closes kernel
  · rw [heq]
    have hfates : ∀ other, Fate none (fun _ => False) (fun _ => True) False (kernel.global_scheduler.tasks other)
        ((kernel.global_scheduler.put slot (some task)).tasks other) := Fate.insert hfree hready trivial
    exact hfollows.fates (hfollows.parked.inv.insert hfree hid hready hflag) hfates rfl rfl
  all_goals
    rw [heq]
    exact hfollows.elsewhere rfl rfl

end Programs

end leafos.tasking.scheduler
