import LeafOS.Tasking.KernelSteps
import Mathlib.Data.List.Nodup

namespace leafos.tasking.scheduler

open leafos.memory leafos.tasking.fd Prog

variable {M : Type} {before after : Scheduler} {self past : Scheduler} {id : TaskId}

/-- The operations that change the task table. Each carries what the code around
the scheduler decides: stack allocation results, the clock, and how tearing down
an address space goes. -/
inductive Operation (M : Type) where
  | create_task (context : CpuContext)
  | create_kernel_task (entry : KernelTaskEntry) (parent : Option TaskId)
      (stack : KernelStack)
  | create_user_task (address_space : Option AddressSpace) (parent : Option TaskId)
      (stack : KernelStack) (fd_mappings : List FdMapping)
      (fd_closes : List Nat)
  | start
  | yield_current
  | block_current
  | terminate_current
  | sleep_current_until (deadline : UInt64)
  | wake (id : TaskId)
  | wake_all_blocked
  | wake_expired_sleepers (now : UInt64)
  | terminate_task (id : TaskId) (exit_code : UInt64)
  | reap_terminated (destroy : Destroy M) (id : TaskId)
  | exit_current_with_status_and_group (exit_code : Option UInt64) (terminate_group : Bool)
  | install_idle (entry : KernelTaskEntry) (stack : KernelStack)
  | remove_idle
  | idle_to_bootstrap (now : UInt64)

/-- One call, with its returned value forgotten. -/
def Operation.execute (operation : Operation M) : KernelM M Unit :=
  match operation with
  | .create_task context => discard (locked (Scheduler.create_task context))
  | .create_kernel_task entry parent stack =>
    discard (locked (Scheduler.create_kernel_task entry parent stack))
  | .create_user_task address_space parent stack fd_mappings fd_closes =>
    zoom (fun kernel => (address_space, kernel)) (fun state _ => state.2)
      (discard (scheduler.create_user_task parent stack fd_mappings fd_closes))
  | .start => discard (locked Scheduler.start)
  | .yield_current => discard (locked Scheduler.yield_current)
  | .block_current => discard (locked Scheduler.block_current)
  | .terminate_current => discard (locked Scheduler.terminate_current)
  | .sleep_current_until deadline => discard (locked (Scheduler.sleep_current_until deadline))
  | .wake id => locked (Scheduler.wake id)
  | .wake_all_blocked => locked Scheduler.wake_all_blocked
  | .wake_expired_sleepers now => locked (Scheduler.wake_expired_sleepers now)
  | .terminate_task id exit_code => locked (Scheduler.terminate_task id exit_code)
  | .reap_terminated destroy id => scheduler.reap_terminated destroy id
  | .exit_current_with_status_and_group exit_code terminate_group =>
    locked (Scheduler.exit_current_with_status_and_group exit_code terminate_group)
  | .install_idle entry stack => locked (Scheduler.install_idle entry stack)
  | .remove_idle => locked Scheduler.remove_idle
  | .idle_to_bootstrap now => locked (Scheduler.idle_to_bootstrap now)

/-- The tick counter that an operation reads. -/
def Operation.clock (operation : Operation M) : Option UInt64 :=
  match operation with
  | .wake_expired_sleepers now => some now
  | .idle_to_bootstrap now => some now
  | _ => none

/-- The states in which an operation can put a task. -/
def Operation.leaves (operation : Operation M) : TaskState → Prop :=
  match operation with
  | .yield_current => (· = .Ready)
  | .block_current => (· = .Blocked)
  | .terminate_current => (· = .Terminated)
  | .sleep_current_until _ => (· = .Sleeping)
  | .terminate_task _ _ => (· = .Terminated)
  | .exit_current_with_status_and_group _ _ => (· = .Terminated)
  | .idle_to_bootstrap _ => (· = .Ready)
  | _ => fun _ => False

/-- The descriptor tables with which an operation can create a task. -/
def Operation.tables (operation : Operation M) : FdTable → Prop :=
  match operation with
  | .create_user_task _ _ _ _ _ => fun _ => True
  | _ => (· = initial_table)

def Operation.reaps (operation : Operation M) : Prop :=
  match operation with
  | .reap_terminated _ _ => True
  | _ => False

/-- The task that an operation makes the parent of a new one. -/
def Operation.parent (operation : Operation M) : Option TaskId :=
  match operation with
  | .create_kernel_task _ parent _ => parent
  | .create_user_task _ parent _ _ _ => parent
  | _ => none

/-- The address space of a task that an operation creates. -/
def Operation.space (operation : Operation M) : Option AddressSpace :=
  match operation with
  | .create_user_task address_space _ _ _ _ => address_space
  | _ => none

/-- The operations that can take the processor away from a task or give it to one. -/
def Operation.Switches (operation : Operation M) : Prop :=
  match operation with
  | .start | .yield_current | .block_current | .terminate_current | .sleep_current_until _ => True
  | .exit_current_with_status_and_group _ _ | .idle_to_bootstrap _ => True
  | _ => False

/-- The operations that put an ordinary task into the table. -/
def Operation.Creates (operation : Operation M) : Prop :=
  match operation with
  | .create_task _ | .create_kernel_task _ _ _ | .create_user_task _ _ _ _ _ => True
  | _ => False

/-- What an operation does to the task table. -/
inductive Operation.Effect (operation : Operation M) (before : Scheduler) : Scheduler → Prop
  | stays {after : Scheduler} (hmoves : Scheduler.Moves operation.clock operation.leaves before after)
      (hcurrent : after.current = before.current) : Effect operation before after
  | switches {after : Scheduler} (hmoves : Scheduler.Moves operation.clock operation.leaves before after)
      (hswitches : operation.Switches) (hstarts : before.current.isSome ∨ operation = .start) :
      Effect operation before after
  | insert {slot : Slot} {task : Task} (hcreates : operation.Creates) (hfree : before.tasks slot = none)
      (hid : task.id = before.next_id) (hparent : task.parent = operation.parent)
      (hready : task.state = .Ready) (hflag : task.is_idle = false) (hfds : operation.tables task.fds)
      (hspace : task.user.map UserTask.address_space = operation.space) :
      Effect operation before ({ before with next_id := before.next_id + 1 }.put slot (some task))
  | install {slot : Slot} {task : Task} (hfree : before.tasks slot = none) (hnone : before.idle_index = none)
      (hid : task.id = before.next_id) (hparent : task.parent = none) (hready : task.state = .Ready)
      (hfds : operation.tables task.fds) (huser : task.user = none) :
      Effect operation before { { before with next_id := before.next_id + 1 }.put slot
        (some { task with is_idle := true }) with idle_index := some slot }
  | reap {slot : Slot} {task : Task} (hreaps : operation.reaps) (htask : before.tasks slot = some task)
      (hstate : task.state = .Terminated) : Effect operation before (before.put slot none)
  | tear {slot : Slot} {task : Task} (user : Option UserTask) (hreaps : operation.reaps)
      (htask : before.tasks slot = some task) (hstate : task.state = .Terminated) :
      Effect operation before (before.put slot (some { task with user }))
  | retire {slot : Slot} {task : Task} (hnobody : before.current = none) (hindex : before.idle_index = some slot)
      (htask : before.tasks slot = some task) (hidle : task.is_idle = true) (hready : task.state = .Ready) :
      Effect operation before { before.put slot none with idle_index := none }

/-- The ids that appeared in the table between two states. -/
def assigned (before after : Scheduler) : List TaskId :=
  (List.finRange MAX_TASKS).filterMap fun slot =>
    ((after.tasks slot).map Task.id).filter fun id => (before.tasks slot).map Task.id != some id

/-- Perform operations in order, whatever they return, up to the first panic. The
ids assigned on the way are collected. -/
def run : List (Operation M) → Kernel M → List TaskId × Kernel M
  | [], kernel => ([], kernel)
  | operation :: rest, kernel =>
    match operation.execute kernel with
    | (.panic, after) => (assigned kernel.global_scheduler after.global_scheduler, after)
    | (_, after) =>
      let (ids, final) := run rest after
      (assigned kernel.global_scheduler after.global_scheduler ++ ids, final)

/-- What the scheduler's registers promise about the task table. -/
structure Scheduler.Bookkeeping (self : Scheduler) : Prop where
  current_some : ∀ slot, self.current = some slot ↔
    (∃ task, self.tasks slot = some task ∧ task.state = .Running) ∧
      ∀ other task, self.tasks other = some task → task.state = .Running → other = slot
  current_none : self.current = none ↔
    ∀ slot task, self.tasks slot = some task → task.state ≠ .Running
  ids_distinct : ∀ slot other task sibling, self.tasks slot = some task →
    self.tasks other = some sibling → slot ≠ other → task.id ≠ sibling.id
  ids_lt : ∀ slot task, self.tasks slot = some task → task.id < self.next_id
  sleeping : ∀ slot task, self.tasks slot = some task → task.state = .Sleeping → task.wake_at.isSome
  idle_some : ∀ slot, self.idle_index = some slot ↔
    (∃ task, self.tasks slot = some task ∧ task.is_idle) ∧
      ∀ other task, self.tasks other = some task → task.is_idle → other = slot
  idle_state : ∀ slot task, self.tasks slot = some task → task.is_idle →
    task.state ≠ .Blocked ∧ task.state ≠ .Sleeping ∧ task.state ≠ .Terminated

/-- A register that names exactly the slots with a flag names the one slot that
has it. -/
theorem Scheduler.register_some {register : Option Slot} {flag : Task → Prop}
    (hempty : ∀ slot, self.tasks slot = none → register ≠ some slot)
    (hflag : ∀ slot task, self.tasks slot = some task → (flag task ↔ register = some slot)) (slot : Slot) :
    register = some slot ↔ (∃ task, self.tasks slot = some task ∧ flag task) ∧
      ∀ other task, self.tasks other = some task → flag task → other = slot := by
  constructor
  · intro hregister
    constructor
    · cases htask : self.tasks slot with
      | none => exact absurd hregister (hempty slot htask)
      | some task => exact ⟨task, rfl, (hflag slot task htask).mpr hregister⟩
    · intro other task htask hother
      have hnamed := (hflag other task htask).mp hother
      rw [hregister] at hnamed
      exact (Option.some.inj hnamed).symm
  · rintro ⟨⟨task, htask, hholds⟩, _⟩
    exact (hflag slot task htask).mp hholds

theorem Scheduler.Inv.bookkeeping (hinv : self.Inv past) :
    self.Bookkeeping where
  current_some := Scheduler.register_some (fun _ hempty => (hinv.empty_slot hempty).1)
    fun _ _ htask => (hinv.task_fits htask).running
  current_none := by
    constructor
    · intro hcurrent slot task htask hstate
      have hnamed := (hinv.task_fits htask).running.mp hstate
      rw [hcurrent] at hnamed
      cases hnamed
    · intro hstopped
      cases hcurrent : self.current with
      | none => rfl
      | some slot =>
        cases htask : self.tasks slot with
        | none => exact absurd hcurrent (hinv.empty_slot htask).1
        | some task => exact absurd ((hinv.task_fits htask).running.mpr hcurrent) (hstopped slot task htask)
  ids_distinct := fun slot other task sibling htask hsibling hne hsame =>
    hne (hinv.ids_inj slot other task sibling htask hsibling hsame)
  ids_lt := fun _ _ htask => (hinv.task_fits htask).id_lt
  sleeping := fun _ _ htask => (hinv.task_fits htask).sleeping
  idle_some := Scheduler.register_some (fun _ hempty => (hinv.empty_slot hempty).2)
    fun _ _ htask => (hinv.task_fits htask).idle
  idle_state := by
    intro slot task htask hidle
    obtain hstate | hstate := (hinv.task_fits htask).idle_state hidle <;> simp [hstate]

section Effects

variable {operation : Operation M} {kernel : Kernel M}

/-- A task that has the processor may leave it. -/
theorem Operation.Effect.leave (hmoves : Scheduler.Moves operation.clock operation.leaves before after)
    (hswitches : operation.Switches) (hnobody : before.current = none → after.current = none) :
    operation.Effect before after := by
  cases hcurrent : before.current with
  | none => exact .stays hmoves ((hnobody hcurrent).trans hcurrent.symm)
  | some current => exact .switches hmoves hswitches (.inl (by simp [hcurrent]))

open Scheduler in
theorem Operation.execute_effect (operation : Operation M) (hinv : kernel.global_scheduler.Inv past) :
    operation.Effect kernel.global_scheduler (operation.execute kernel).2.global_scheduler := by
  cases operation with
  | create_task context =>
    simp only [execute, discard_snd, locked_apply, Scheduler.create_task]
    obtain ⟨error, heq⟩ | ⟨slot, task, hslot, hid, hparent, hready, hflag, hfds, huser, heq⟩ :=
      insert_task_cases context none none none none kernel.global_scheduler
    · rw [heq]
      exact .stays .refl rfl
    · rw [heq]
      exact .insert trivial (position_isNone hslot) hid hparent hready hflag hfds (by rw [huser]; rfl)
  | create_kernel_task entry parent stack =>
    simp only [execute, discard_snd, locked_apply]
    obtain ⟨error, heq⟩ | ⟨slot, task, hslot, hid, hparent, hready, hflag, hfds, huser, heq⟩ :=
      create_kernel_task_cases entry parent stack kernel.global_scheduler
    · rw [heq]
      exact .stays .refl rfl
    · rw [heq]
      exact .insert trivial (position_isNone hslot) hid hparent hready hflag hfds (by rw [huser]; rfl)
  | create_user_task address_space parent stack fd_mappings fd_closes =>
    simp only [execute, zoom, discard_snd]
    obtain ⟨_, _, heq⟩ | ⟨_, ⟨_, _, heq⟩ |
        ⟨slot, task, _, space, hspace, huser, hslot, hid, hparent, hready, hflag, _, heq⟩⟩ :=
      create_user_task_cases parent stack fd_mappings fd_closes address_space kernel
    · rw [heq]
      exact .stays .refl rfl
    · rw [heq]
      exact .stays .refl rfl
    · rw [heq]
      exact .insert trivial (position_isNone hslot) hid hparent hready hflag trivial (by rw [huser, hspace]; rfl)
  | reap_terminated destroy id =>
    simp only [execute]
    obtain ⟨_, heq⟩ | ⟨slot, task, _, htask, hstate, ⟨_, heq⟩ | ⟨_, user, space, _, _, heq⟩⟩ :=
      reap_terminated_effect destroy id kernel
    · rw [heq]
      exact .stays .refl rfl
    · rw [heq]
      exact .reap trivial htask hstate
    · rw [heq]
      exact .tear (some { user with address_space := space }) trivial htask hstate
  | install_idle entry stack =>
    simp only [execute, locked_apply]
    obtain ⟨_, heq⟩ | ⟨_, heq⟩ | ⟨slot, task, hfree, hnone, hid, hparent, hready, hfds, huser, heq⟩ :=
      hinv.install_idle_cases entry stack
    · rw [heq]
      exact .stays .refl rfl
    · rw [heq]
      exact .stays .refl rfl
    · rw [heq]
      exact .install hfree hnone hid hparent hready hfds huser
  | remove_idle =>
    simp only [execute, locked_apply]
    obtain heq | ⟨slot, task, hnobody, hindex, htask, hidle, hready, heq⟩ := remove_idle_cases kernel.global_scheduler
    · rw [heq]
      exact .stays .refl rfl
    · rw [heq]
      exact .retire hnobody hindex htask hidle hready
  | start =>
    simp only [execute, discard_snd]
    exact .switches (start_moves _) trivial (.inr rfl)
  | yield_current =>
    simp only [execute, discard_snd]
    exact .leave (transition_current_moves .Ready (by decide) (by decide) _) trivial (transition_current_nobody _)
  | block_current =>
    simp only [execute, discard_snd]
    exact .leave (transition_current_moves .Blocked (by decide) (by decide) _) trivial (transition_current_nobody _)
  | terminate_current =>
    simp only [execute, discard_snd]
    exact .leave (transition_current_moves .Terminated (by decide) (by decide) _) trivial (transition_current_nobody _)
  | sleep_current_until deadline =>
    simp only [execute, discard_snd]
    exact .leave (sleep_current_until_moves deadline _) trivial (sleep_current_until_nobody deadline)
  | exit_current_with_status_and_group exit_code terminate_group =>
    exact .leave (exit_current_moves exit_code terminate_group _) trivial (exit_current_nobody · exit_code terminate_group)
  | idle_to_bootstrap now => exact .leave (idle_to_bootstrap_moves now _) trivial (idle_to_bootstrap_nobody now)
  | wake id => exact .stays (wake_moves id _) (wake_current id _)
  | wake_all_blocked => exact .stays (wake_all_blocked_moves _) rfl
  | wake_expired_sleepers now => exact .stays (wake_expired_sleepers_moves now _) rfl
  | terminate_task id exit_code =>
    exact .stays (terminate_task_moves id exit_code _) (terminate_task_current id exit_code _)

theorem Operation.Effect.inv (heffect : operation.Effect before after) (hinv : before.Inv past) : after.Inv past := by
  cases heffect with
  | stays hmoves _ | switches hmoves _ _ => exact hmoves.inv hinv
  | insert _ hfree hid _ hready hflag _ _ => exact hinv.insert hfree hid hready hflag
  | install hfree hnone hid hparent hready _ _ => exact hinv.install hfree hnone hid hparent hready
  | reap _ htask hstate => exact hinv.remove htask hstate
  | tear user _ htask _ => exact hinv.put htask (hinv.keeps htask)
  | retire hnobody hindex _ _ _ => exact hinv.retire hnobody hindex

/-- Every operation keeps the bookkeeping, whatever it returns. -/
theorem Operation.execute_inv (operation : Operation M) (hinv : kernel.global_scheduler.Inv past) :
    (operation.execute kernel).2.global_scheduler.Inv past := (operation.execute_effect hinv).inv hinv

/-- Most operations leave the running task in place. -/
theorem Operation.execute_current (operation : Operation M)
    (hinv : kernel.global_scheduler.Inv past) (hstays : operation.Switches →
      (operation.execute kernel).2.global_scheduler.current = kernel.global_scheduler.current) :
    (operation.execute kernel).2.global_scheduler.current = kernel.global_scheduler.current := by
  have heffect := operation.execute_effect hinv
  generalize (operation.execute kernel).2.global_scheduler = after at heffect hstays
  cases heffect with
  | stays _ hcurrent => exact hcurrent
  | switches _ hswitches _ => exact hstays hswitches
  | _ => rfl

end Effects

theorem mem_assigned :
    id ∈ assigned before after ↔ ∃ slot task, after.tasks slot = some task ∧ task.id = id ∧
      (before.tasks slot).map Task.id ≠ some id := by
  simp only [assigned, List.mem_filterMap, List.mem_finRange, true_and, Option.filter_eq_some_iff,
    Option.map_eq_some_iff, bne_iff_ne]
  constructor
  · rintro ⟨slot, ⟨task, htask, hid⟩, hnew⟩
    exact ⟨slot, task, htask, hid, hnew⟩
  · rintro ⟨slot, task, htask, hid, hnew⟩
    exact ⟨slot, ⟨task, htask, hid⟩, hnew⟩

/-- Ids that appear are fresh, and are below `next_id` afterwards. -/
theorem assigned_bounds (hinv : after.Inv before)
    (hid : id ∈ assigned before after) : before.next_id ≤ id ∧ id < after.next_id := by
  obtain ⟨slot, task, htask, rfl, hnew⟩ := mem_assigned.mp hid
  refine ⟨?_, (hinv.task_fits htask).id_lt⟩
  by_contra hlt
  obtain ⟨earlier, hearlier, hsame⟩ := hinv.old slot task htask (Nat.lt_of_not_le hlt)
  exact hnew (by rw [hearlier, Option.map_some, hsame])

theorem assigned_nodup (hinv : after.Inv before) : (assigned before after).Nodup := by
  refine List.Nodup.filterMap ?_ (List.nodup_finRange MAX_TASKS)
  intro slot other id hslot hother
  simp only [Option.mem_def, Option.filter_eq_some_iff, Option.map_eq_some_iff] at hslot hother
  obtain ⟨⟨task, htask, hid⟩, _⟩ := hslot
  obtain ⟨⟨sibling, hsibling, hid'⟩, _⟩ := hother
  exact hinv.ids_inj slot other task sibling htask hsibling (hid.trans hid'.symm)

/-- A task of the table after a step was there before or was assigned in it. -/
theorem id_old_or_assigned {slot : Slot} {task : Task} (htask : after.tasks slot = some task) :
    (∃ earlier, before.tasks slot = some earlier ∧ earlier.id = task.id) ∨
      task.id ∈ assigned before after := by
  by_cases hold : (before.tasks slot).map Task.id = some task.id
  · exact .inl (Option.map_eq_some_iff.mp hold)
  · exact .inr (mem_assigned.mpr ⟨slot, task, htask, rfl, hold⟩)

/-- What a whole run preserves: the bookkeeping, and that the ids assigned in it
are pairwise distinct, fresh, and account for every new task. -/
theorem run_spec (operations : List (Operation M)) (kernel : Kernel M) (hinv : kernel.global_scheduler.Inv past) :
    let (ids, final) := run operations kernel
    (∃ past, final.global_scheduler.Inv past) ∧ ids.Nodup ∧
      (∀ id ∈ ids, kernel.global_scheduler.next_id ≤ id) ∧
      ∀ slot task, final.global_scheduler.tasks slot = some task →
        task.id ∈ ids ∨ ∃ slot earlier, kernel.global_scheduler.tasks slot = some earlier ∧
          earlier.id = task.id := by
  induction operations generalizing kernel past with
  | nil => exact ⟨⟨past, hinv⟩, List.nodup_nil, by simp, fun slot task htask => .inr ⟨slot, task, htask, rfl⟩⟩
  | cons operation rest ih =>
    have hafter := operation.execute_inv hinv.restart
    simp only [run]
    cases hexecute : operation.execute kernel with
    | mk outcome after =>
      rw [hexecute] at hafter
      by_cases hpanic : outcome = .panic
      · subst outcome
        refine ⟨⟨_, hafter⟩, assigned_nodup hafter, fun id hid => (assigned_bounds hafter hid).1, ?_⟩
        intro slot task htask
        obtain hold | hnew := id_old_or_assigned htask
        · exact .inr ⟨slot, hold⟩
        · exact .inl hnew
      · have hrest := ih after hafter
        generalize hrun : run rest after = result at hrest
        obtain ⟨ids, final⟩ := result
        obtain ⟨hfinal, hnodup, hfresh, htable⟩ := hrest
        have hsplit : (match (outcome, after) with
            | (.panic, after) => (assigned kernel.global_scheduler after.global_scheduler, after)
            | (_, after) =>
              let (ids, final) := run rest after
              (assigned kernel.global_scheduler after.global_scheduler ++ ids, final)) =
            (assigned kernel.global_scheduler after.global_scheduler ++ ids, final) := by
          cases outcome <;> simp_all
        rw [hsplit]
        refine ⟨hfinal, ?_, ?_, ?_⟩
        · refine List.nodup_append.mpr ⟨assigned_nodup hafter, hnodup, ?_⟩
          intro id hid other hother hsame
          have hlt := (assigned_bounds hafter hid).2
          exact absurd (hfresh other hother) (Nat.not_le.mpr (hsame ▸ hlt))
        · intro id hid
          obtain hid | hid := List.mem_append.mp hid
          · exact (assigned_bounds hafter hid).1
          · exact hafter.next_id_le.trans (hfresh id hid)
        · intro slot task htask
          obtain hmem | ⟨slot, earlier, hearlier, hsame⟩ := htable slot task htask
          · exact .inl (List.mem_append_right _ hmem)
          · obtain ⟨oldest, holdest, hid⟩ | hnew := id_old_or_assigned hearlier
            · exact .inr ⟨slot, oldest, holdest, hid.trans hsame⟩
            · exact .inl (List.mem_append_left _ (hsame ▸ hnew))

/-- Whatever sequence of operations is performed on a fresh scheduler, the
registers describe the table, no id is assigned twice, and every task in the
table got its id in the run. -/
theorem run_bookkeeping (operations : List (Operation M)) (objects : Objects) (memory : M)
    (cpu : Cpu) (kernel_root : PhysFrame) :
    let (ids, final) := run operations (.fresh objects memory cpu kernel_root)
    final.global_scheduler.Bookkeeping ∧ ids.Nodup ∧
      ∀ slot task, final.global_scheduler.tasks slot = some task → task.id ∈ ids := by
  obtain ⟨⟨past, hinv⟩, hnodup, _, htable⟩ :=
    run_spec operations (.fresh objects memory cpu kernel_root) Scheduler.inv_new
  refine ⟨hinv.bookkeeping, hnodup, fun slot task htask => ?_⟩
  obtain hmem | ⟨_, _, hempty, _⟩ := htable slot task htask
  · exact hmem
  · cases hempty

end leafos.tasking.scheduler
