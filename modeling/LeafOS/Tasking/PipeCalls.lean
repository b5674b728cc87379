import LeafOS.Tasking.WakeUps

namespace leafos.tasking.scheduler

open leafos.memory leafos.tasking.fd leafos.arch.syscall Prog
open Scheduler (modify_task put_tasks transition_current)

variable {M : Type} {task : Task} {current : Slot} {objects : Objects} {after : Kernel M} (rdi : Nat)

/-- Blocking is refused without effect, or takes the running task off the processor. -/
theorem Scheduler.transition_current_blocks (self : Scheduler) :
    (∃ error, error ≠ .NoRunnableTasks ∧ transition_current .Blocked self = (.err error, self)) ∨
    ∃ current task, self.current = some current ∧ self.tasks current = some task ∧
      (self.put current (some { task with state := .Blocked, wake_at := none })).Rescheduled false
        (transition_current .Blocked self).2 ∧
      ((∃ id, (transition_current .Blocked self).1 = .ok id) ∨
        (transition_current .Blocked self).1 = .err .NoRunnableTasks) := by
  obtain hrefused | ⟨current, task, hcurrent, htask, _, _, heq⟩ := transition_current_cases .Blocked self
  · exact .inl hrefused
  · right
    refine ⟨current, task, hcurrent, htask, ?_, ?_⟩
    · rw [heq]
      have hselected : ∀ left : Scheduler, left.current = none →
          Moves none (fun _ => False) left (select_next (current + 1) left).2 :=
        fun left hnone => select_next_moves hnone (current + 1)
      exact ((Rescheduled.refl false _).current none).trans ((hselected _ rfl).rescheduled nofun)
    · rw [heq]
      obtain ⟨slot, chosen, _, _, hselect⟩ | hselect := select_next_cases (current + 1)
        { self.put current (some { task with state := .Blocked, wake_at := none }) with current := none }
      · exact .inl ⟨chosen.id, congrArg Prod.fst hselect⟩
      · exact .inr (congrArg Prod.fst hselect)

/-- The same for the kernel, where finding nobody else to run is no error. -/
theorem leave_processor_blocks (kernel : Kernel M) :
    (∃ error, leave_processor (transition_current .Blocked) kernel = (.err error, kernel)) ∨
    ∃ current task, kernel.global_scheduler.current = some current ∧
      kernel.global_scheduler.tasks current = some task ∧
      (kernel.global_scheduler.put current (some { task with state := .Blocked, wake_at := none })).Rescheduled
        false (transition_current .Blocked kernel.global_scheduler).2 ∧
      leave_processor (transition_current .Blocked) kernel = (.ok (), { kernel with
        global_scheduler := (transition_current .Blocked kernel.global_scheduler).2 }) := by
  simp only [leave_processor, bind_apply, attempt, locked_apply]
  obtain ⟨error, hne, heq⟩ | ⟨current, task, hcurrent, htask, hrest, hok⟩ :=
    kernel.global_scheduler.transition_current_blocks
  · rw [heq]
    refine .inl ⟨error, ?_⟩
    cases error <;> first | rfl | exact absurd rfl hne
  · refine .inr ⟨current, task, hcurrent, htask, hrest, ?_⟩
    generalize transition_current .Blocked kernel.global_scheduler = result at hok ⊢
    obtain ⟨outcome, next⟩ := result
    obtain ⟨id, rfl⟩ | rfl := hok <;> rfl

/-- The running task's descriptor with a number. -/
def Kernel.descriptor (kernel : Kernel M) (fd_number : Nat) : Option FileDescriptor :=
  kernel.running.bind fun task => descriptor_at task.fds fd_number

theorem Kernel.descriptor_some {kernel : Kernel M} (hrunning : kernel.running = some task) :
    kernel.descriptor = descriptor_at task.fds := by
  funext fd_number
  rw [Kernel.descriptor, hrunning, Option.bind_some]

/-- A call that is made on a pipe really has to wait for it. -/
def Waits (objects : Objects) (descriptor : Nat → Option FileDescriptor) : BlockedCall → Prop
  | .fd_read fd _ => ∀ pipe, descriptor fd = some (.PipeRead pipe) → objects.HoldsReaders pipe
  | .fd_write fd _ => ∀ pipe, descriptor fd = some (.PipeWrite pipe) → objects.HoldsWriters pipe
  | .wait_for_child _ => True

section Blocking

variable {kernel : Kernel M} {call : BlockedCall}

/-- The running task once its user stack pointer is saved. -/
theorem Kernel.saved_running (kernel : Kernel M)
    (hcurrent : kernel.global_scheduler.current = some current) (htask : (kernel.saved current).tasks current = some task) :
    ∃ earlier, kernel.running = some earlier ∧ task = { earlier with
      user := earlier.user.map fun user => { user with syscall_user_rsp := kernel.cpu.user_rsp } } := by
  rw [Kernel.saved, modify_task, put_tasks, if_pos rfl] at htask
  obtain ⟨earlier, hearlier, rfl⟩ := Option.map_eq_some_iff.mp htask
  exact ⟨earlier, by rw [Kernel.running, hcurrent, Option.bind_some, hearlier], rfl⟩

variable (hinv : kernel.NoLostWakeUp)
include hinv

/-- After a call has blocked the current task in `slot`, every other sleeper was there
before, and the new one sleeps in that call with the descriptors it had. -/
theorem Kernel.NoLostWakeUp.blocks {slot : Slot} (htask : kernel.global_scheduler.tasks slot = some task)
    (hpipes : after.objects.pipes = kernel.objects.pipes)
    (hothers : ∀ other, other ≠ slot → Option.Rel (Task.Rescheduled false)
      (kernel.global_scheduler.tasks other) (after.global_scheduler.tasks other))
    (hslot : ∀ sleeper, after.global_scheduler.tasks slot = some sleeper →
      sleeper._stack = some call ∧ sleeper.fds = task.fds)
    (hwaits : Waits kernel.objects (descriptor_at task.fds) call) : after.NoLostWakeUp := by
  have hcases : ∀ other sleeper found, after.global_scheduler.tasks other = some sleeper → sleeper.state = .Blocked →
      sleeper._stack = some found → call = found ∧ sleeper.fds = task.fds ∨
        ∃ earlier, kernel.global_scheduler.tasks other = some earlier ∧ earlier.state = .Blocked ∧
          earlier._stack = some found ∧ earlier.fds = sleeper.fds := by
    intro other sleeper found hsleeper hblocked hstack
    by_cases hsame : other = slot
    · subst hsame
      obtain ⟨hcall, hfds⟩ := hslot sleeper hsleeper
      exact .inl ⟨Option.mem_unique hcall hstack, hfds⟩
    · have hrel := hothers other hsame
      rw [hsleeper] at hrel
      generalize kernel.global_scheduler.tasks other = entry at hrel
      cases hrel with
      | some hrel =>
        obtain hstate | hfalse := hrel.blocked hblocked
        · exact .inr ⟨_, rfl, hstate, hrel.stack.symm.trans hstack, hrel.fds.symm⟩
        · cases hfalse
  intro pipe
  simp only [Objects.HoldsReaders, Objects.HoldsWriters, hpipes]
  constructor
  · rintro ⟨other, sleeper, hsleeper, hblocked, fd, length, hstack, hfd⟩
    obtain ⟨rfl, hfds⟩ | ⟨earlier, hentry, hstate, hstack, hfds⟩ := hcases other sleeper _ hsleeper hblocked hstack
    · exact hwaits pipe (hfds ▸ hfd)
    · exact (hinv pipe).1 ⟨other, earlier, hentry, hstate, fd, length, hstack, hfds ▸ hfd⟩
  · rintro ⟨other, sleeper, hsleeper, hblocked, fd, input, hstack, hfd⟩
    obtain ⟨rfl, hfds⟩ | ⟨earlier, hentry, hstate, hstack, hfds⟩ := hcases other sleeper _ hsleeper hblocked hstack
    · exact hwaits pipe (hfds ▸ hfd)
    · exact (hinv pipe).2 ⟨other, earlier, hentry, hstate, fd, input, hstack, hfds ▸ hfd⟩

/-- Marking the call of a task that has just been blocked. -/
theorem Kernel.NoLostWakeUp.blocked_in {next : Scheduler} (htask : kernel.global_scheduler.tasks current = some task)
    (hnext : (kernel.global_scheduler.put current (some { task with
      state := .Blocked, wake_at := none })).Rescheduled false next)
    (hwaits : Waits kernel.objects (descriptor_at task.fds) call) :
    ({ kernel with global_scheduler := next.modify_task current fun task =>
      { task with _stack := some call } } : Kernel M).NoLostWakeUp := by
  refine hinv.blocks htask rfl (fun other hne => ?_) (fun sleeper hsleeper => ?_) hwaits
  · have hrel := hnext.tasks other
    rw [put_tasks, if_neg hne] at hrel
    simp only [modify_task, put_tasks, if_neg hne]
    exact hrel
  · have hrel := hnext.tasks current
    rw [put_tasks, if_pos rfl] at hrel
    simp only [modify_task, put_tasks, if_true] at hsleeper
    generalize next.tasks current = entry at hrel hsleeper
    cases hrel with
    | some hrel =>
      obtain rfl := Option.some.inj hsleeper
      exact ⟨rfl, hrel.fds⟩

/-- `block_now` is safe for a caller whose read or write would really wait. -/
theorem block_now_alert (call : BlockedCall) (hwaits : Waits kernel.objects kernel.descriptor call) :
    (block_now call kernel).2.NoLostWakeUp := by
  simp only [block_now, bind_apply, get_apply]
  cases hcurrent : kernel.global_scheduler.current with
  | none => exact hinv
  | some current =>
    have hsaved := save_current_user_rsp_alert current kernel hinv
    rw [save_current_user_rsp_apply] at hsaved
    simp only [okOr_some, save_current_user_rsp_apply]
    obtain ⟨error, hleft⟩ | ⟨slot, task, hslot, htask, hnext, hleft⟩ :=
      leave_processor_blocks { kernel with global_scheduler := kernel.saved current }
    · simp only [hleft]
      exact hsaved
    · obtain rfl : current = slot := Option.mem_unique hcurrent hslot
      obtain ⟨earlier, hrunning, rfl⟩ := kernel.saved_running hcurrent htask
      simp only [hleft, modify_apply]
      rw [Kernel.descriptor_some hrunning] at hwaits
      exact activate_selected_alert _ (hsaved.blocked_in htask hnext hwaits)

theorem block_in_alert (call : BlockedCall) (hwaits : Waits kernel.objects kernel.descriptor call) :
    (block_in call kernel).2.NoLostWakeUp := by
  have hblocked := block_now_alert hinv call hwaits
  simp only [block_in, bind_apply, attempt]
  generalize block_now call kernel = result at hblocked
  rcases result with ⟨_ | _ | _, after⟩ <;> exact hblocked

end Blocking

section Transfers

variable {kernel : Kernel M} {descriptor : FileDescriptor} {after : Objects} (fd_number : Nat) (input : List UInt8)

theorem modifyPipe_same {pipe : Nat} {update : Pipe → Pipe}
    (hsame : ∀ state, objects.pipes[pipe]? = some state → update state = state) :
    (objects.modifyPipe pipe update).pipes = objects.pipes := by
  refine List.ext_getElem? fun other => ?_
  rw [getElem?_modifyPipe]
  split
  · rename_i heq
    subst heq
    cases hstate : objects.pipes[pipe]? with
    | none => rfl
    | some state => rw [Option.map_some, hsame state hstate]
  · rfl

/-- A read that fails changes no pipe, and one that would block finds an empty pipe that
somebody can still write to. -/
theorem read_error {capacity : Nat} {error : ReadError}
    (hread : fd.read descriptor capacity objects = (.error error, after)) :
    after.pipes = objects.pipes ∧
      (error = .WouldBlock → ∀ pipe, descriptor = .PipeRead pipe → objects.HoldsReaders pipe) := by
  cases descriptor with
  | Stdin =>
    simp only [fd.read] at hread
    split at hread <;> cases hread
    exact ⟨rfl, by simp⟩
  | PipeRead pipe =>
    simp only [fd.read] at hread
    cases hpipe : objects.pipes[pipe]? with
    | none =>
      simp only [hpipe] at hread
      cases hread
      exact ⟨rfl, by simp⟩
    | some state =>
      simp only [hpipe] at hread
      split at hread
      · rename_i hwait
        cases hread
        refine ⟨rfl, fun _ other hother => ?_⟩
        obtain rfl := FileDescriptor.PipeRead.inj hother
        exact ⟨state, hpipe, hwait⟩
      · cases hread
  | FileRead file =>
    simp only [fd.read] at hread
    cases hfile : objects.file_reads[file]? with
    | none =>
      simp only [hfile] at hread
      cases hread
      exact ⟨rfl, by simp⟩
    | some state =>
      simp only [hfile] at hread
      cases hread
  | Console | PipeWrite pipe | FileWrite file =>
    cases hread
    exact ⟨rfl, by simp⟩

/-- A write that fails changes no pipe, and one that would block finds a full pipe that
somebody can still read from. -/
theorem write_error {input : List UInt8} {stored : Bool}
    {error : WriteError} (hwrite : fd.write descriptor input stored objects = (.error error, after)) :
    after.pipes = objects.pipes ∧
      (error = .WouldBlock → ∀ pipe, descriptor = .PipeWrite pipe → objects.HoldsWriters pipe) := by
  cases descriptor with
  | PipeWrite pipe =>
    simp only [fd.write] at hwrite
    cases hpipe : objects.pipes[pipe]? with
    | none =>
      simp only [hpipe] at hwrite
      cases hwrite
      exact ⟨rfl, by simp⟩
    | some state =>
      simp only [hpipe] at hwrite
      split at hwrite
      · cases hwrite
        exact ⟨rfl, by simp⟩
      · rename_i hreaders
        split at hwrite
        · rename_i hfull
          cases hwrite
          obtain ⟨hcount, hinput⟩ := hfull
          have hring : (state.toByteRing.write input).2 = state.toByteRing := by
            simp only [ByteRing.write] at hcount ⊢
            rw [hcount]
            rfl
          refine ⟨modifyPipe_same fun found hfound => ?_, fun _ other hother => ?_⟩
          · obtain rfl := Option.mem_unique hpipe hfound
            rw [hring]
          · obtain rfl := FileDescriptor.PipeWrite.inj hother
            refine ⟨state, hpipe, ?_, hreaders⟩
            have hle := state.length_le
            have hpos := List.length_pos_iff.mpr hinput
            simp only [ByteRing.write] at hcount
            omega
        · cases hwrite
  | FileWrite file =>
    simp only [fd.write] at hwrite
    split at hwrite <;> cases hwrite
    exact ⟨rfl, by simp⟩
  | Console => cases hwrite
  | Stdin | PipeRead pipe | FileRead file =>
    cases hwrite
    exact ⟨rfl, by simp⟩

theorem current_record_cases (missing : SchedulerError) (kernel : Kernel M) :
    (∃ error, (error = .NotStarted ∨ error = missing) ∧ kernel.running = none ∧
      current_record missing kernel = (.err error, kernel)) ∨
    ∃ current task, kernel.global_scheduler.current = some current ∧
      kernel.global_scheduler.tasks current = some task ∧ kernel.running = some task ∧
      current_record missing kernel = (.ok (current, task), kernel) := by
  simp only [current_record, bind_apply, get_apply, Kernel.running]
  cases hcurrent : kernel.global_scheduler.current with
  | none => exact .inl ⟨.NotStarted, .inl rfl, rfl, rfl⟩
  | some current =>
    simp only [okOr_some]
    cases htask : kernel.global_scheduler.tasks current with
    | none => exact .inl ⟨missing, .inr rfl, htask, rfl⟩
    | some task => exact .inr ⟨current, task, rfl, htask, htask, rfl⟩

/-- The shared objects change, and at most the table of the running task. -/
def Kernel.Tabled (kernel after : Kernel M) : Prop :=
  ∃ objects, after = { kernel with objects } ∨ ∃ current fds, kernel.global_scheduler.current = some current ∧
    after = (put_table current fds { kernel with objects } : Outcome SchedulerError Unit × Kernel M).2

theorem create_pipe_for_current_tabled (kernel : Kernel M) : kernel.Tabled (create_pipe_for_current kernel).2 := by
  simp only [create_pipe_for_current, bind_apply, get_apply, set_apply, attempt]
  obtain ⟨_, _, _, heq⟩ | ⟨current, task, hcurrent, _, _, heq⟩ :=
    current_record_cases .UnknownTask { kernel with objects := (create_pipe kernel.objects).2 }
  · simp only [heq]
    exact ⟨_, .inl rfl⟩
  · simp only [heq]
    cases find_free_fd_pair task.fds with
    | none => exact ⟨_, .inl rfl⟩
    | some pair => exact ⟨_, .inr ⟨current, _, hcurrent, rfl⟩⟩

/-- A close that is not refused ends with a wake-up of everybody. -/
theorem close_current_fd_tabled (kernel : Kernel M) :
    (∃ error, close_current_fd fd_number kernel = (.err error, kernel)) ∨
    ∃ middle, kernel.Tabled middle ∧ close_current_fd fd_number kernel = locked Scheduler.wake_all_blocked middle := by
  simp only [close_current_fd, bind_apply]
  obtain ⟨error, _, _, heq⟩ | ⟨current, task, hcurrent, _, _, heq⟩ := current_record_cases .InvalidFd kernel
  · simp only [heq]
    exact .inl ⟨error, rfl⟩
  · simp only [heq]
    cases descriptor_at task.fds fd_number with
    | none => exact .inl ⟨.InvalidFd, rfl⟩
    | some descriptor =>
      exact .inr ⟨_, ⟨close descriptor kernel.objects, .inr ⟨current, with_descriptor task.fds fd_number none, hcurrent,
        rfl⟩⟩, rfl⟩

theorem duplicate_current_fd_tabled (source_fd target_fd : Nat) (kernel : Kernel M) :
    kernel.Tabled (duplicate_current_fd source_fd target_fd kernel).2 := by
  unfold duplicate_current_fd
  split
  · exact ⟨_, .inl rfl⟩
  simp only [bind_apply]
  obtain ⟨_, _, _, heq⟩ | ⟨current, task, hcurrent, _, _, heq⟩ := current_record_cases .InvalidFd kernel
  · simp only [heq]
    exact ⟨_, .inl rfl⟩
  · simp only [heq]
    cases descriptor_at task.fds source_fd with
    | none => exact ⟨_, .inl rfl⟩
    | some descriptor =>
      simp only [okOr_some]
      split
      · exact ⟨_, .inl rfl⟩
      · exact ⟨_, .inr ⟨current, _, hcurrent, rfl⟩⟩

section Transfer

variable {ε α : Type} (transfer : FileDescriptor → Objects → Except ε α × Objects) (convert : ε → SchedulerError)
  (kernel : Kernel M)

theorem transfer_current_fd_cases :
    (kernel.descriptor fd_number = none ∧ ∃ error, error ≠ .WouldBlock ∧
      transfer_current_fd fd_number transfer convert kernel = (.err error, kernel)) ∨
    ∃ descriptor objects, kernel.descriptor fd_number = some descriptor ∧
      ((∃ value, transfer descriptor kernel.objects = (.ok value, objects) ∧
          transfer_current_fd fd_number transfer convert kernel = (.ok value, { kernel with objects })) ∨
        ∃ error, transfer descriptor kernel.objects = (.error error, objects) ∧
          transfer_current_fd fd_number transfer convert kernel = (.err (convert error), { kernel with objects })) := by
  simp only [transfer_current_fd, bind_apply]
  obtain ⟨error, herror, hnobody, heq⟩ | ⟨_, task, _, _, hrunning, heq⟩ := current_record_cases .NotStarted kernel
  · simp only [heq, Kernel.descriptor, hnobody, Option.bind_none]
    exact .inl ⟨trivial, error, by obtain rfl | rfl := herror <;> simp, rfl⟩
  · simp only [heq, Kernel.descriptor_some hrunning]
    cases descriptor_at task.fds fd_number with
    | none => exact .inl ⟨rfl, .InvalidFd, by simp, rfl⟩
    | some descriptor =>
      simp only [okOr_some, get_apply, set_apply]
      cases htransfer : transfer descriptor kernel.objects with
      | mk result objects =>
        cases result with
        | ok value => exact .inr ⟨descriptor, objects, rfl, .inl ⟨value, htransfer, rfl⟩⟩
        | error error => exact .inr ⟨descriptor, objects, rfl, .inr ⟨error, htransfer, rfl⟩⟩

/-- A transfer works on the objects alone. -/
theorem transfer_current_fd_objects :
    ∃ objects, (transfer_current_fd fd_number transfer convert kernel).2 = { kernel with objects } := by
  obtain ⟨_, _, _, heq⟩ | ⟨_, objects, _, ⟨_, _, heq⟩ | ⟨_, _, heq⟩⟩ :=
    transfer_current_fd_cases fd_number transfer convert kernel
  · exact ⟨kernel.objects, by rw [heq]⟩
  · exact ⟨objects, by rw [heq]⟩
  · exact ⟨objects, by rw [heq]⟩

end Transfer

/-- `read_current_fd` delivers something, or fails as `fd::read` does. -/
theorem read_current_fd_cases (capacity : Nat) (kernel : Kernel M) :
    (∃ bytes objects, read_current_fd fd_number capacity kernel = (.ok bytes, { kernel with objects })) ∨
    ∃ error objects, read_current_fd fd_number capacity kernel = (.err error, { kernel with objects }) ∧
      objects.pipes = kernel.objects.pipes ∧ (error = .WouldBlock →
        ∀ pipe, kernel.descriptor fd_number = some (.PipeRead pipe) → kernel.objects.HoldsReaders pipe) := by
  obtain ⟨_, error, hne, heq⟩ | ⟨descriptor, objects, hfd, ⟨bytes, _, heq⟩ | ⟨error, hread, heq⟩⟩ :=
    transfer_current_fd_cases fd_number (fd.read · capacity) _ kernel
  · exact .inr ⟨error, kernel.objects, heq, rfl, fun hblock => absurd hblock hne⟩
  · exact .inl ⟨bytes, objects, heq⟩
  · obtain ⟨hpipes, hholds⟩ := read_error hread
    refine .inr ⟨_, objects, heq, hpipes, fun hblock pipe hpipe => ?_⟩
    cases error <;> first | exact hholds rfl pipe (Option.mem_unique hfd hpipe) | cases hblock

/-- `write_current_fd` stores something, or fails as `fd::write` does. -/
theorem write_current_fd_cases (stored : Bool) (kernel : Kernel M) :
    (∃ count objects, write_current_fd fd_number input stored kernel = (.ok count, { kernel with objects })) ∨
    ∃ error objects, write_current_fd fd_number input stored kernel = (.err error, { kernel with objects }) ∧
      objects.pipes = kernel.objects.pipes ∧ (error = .WouldBlock →
        ∀ pipe, kernel.descriptor fd_number = some (.PipeWrite pipe) → kernel.objects.HoldsWriters pipe) := by
  obtain ⟨_, error, hne, heq⟩ | ⟨descriptor, objects, hfd, ⟨count, _, heq⟩ | ⟨error, hwrite, heq⟩⟩ :=
    transfer_current_fd_cases fd_number (fd.write · input stored) _ kernel
  · exact .inr ⟨error, kernel.objects, heq, rfl, fun hblock => absurd hblock hne⟩
  · exact .inl ⟨count, objects, heq⟩
  · obtain ⟨hpipes, hholds⟩ := write_error hwrite
    refine .inr ⟨_, objects, heq, hpipes, fun hblock pipe hpipe => ?_⟩
    cases error <;> first | exact hholds rfl pipe (Option.mem_unique hfd hpipe) | cases hblock

/-- A turn of `sys_fd_read` wakes everybody, blocks for a reason, or changes no pipe. -/
theorem fd_read_turn_alert (fd length : Nat) (copied : Bool) :
    Maintains Kernel.NoLostWakeUp (fd_read_turn fd length copied : KernelM M Reply) := by
  intro kernel hinv
  simp only [fd_read_turn, bind_apply, attempt]
  obtain ⟨bytes, after, heq⟩ | ⟨error, objects, heq, hpipes, hholds⟩ := read_current_fd_cases fd length kernel
  · simp only [heq]
    exact wake_all_blocked_alert _
  · have hafter : ({ kernel with objects } : Kernel M).NoLostWakeUp := hinv.same_pipes (.refl _) hpipes
    simp only [heq]
    cases error
    case WouldBlock =>
      simp only
      split
      · exact hafter
      · refine block_in_alert hafter _ fun pipe hfd => ?_
        simpa only [Objects.HoldsReaders, hpipes] using hholds rfl pipe hfd
    all_goals exact hafter

/-- A turn of `sys_fd_write` wakes everybody, blocks for a reason, or changes no pipe. -/
theorem fd_write_turn_alert (fd : Nat) (input : List UInt8) (stored : Bool) :
    Maintains Kernel.NoLostWakeUp (fd_write_turn fd input stored : KernelM M Reply) := by
  intro kernel hinv
  simp only [fd_write_turn, bind_apply, attempt]
  obtain ⟨count, after, heq⟩ | ⟨error, objects, heq, hpipes, hholds⟩ :=
    write_current_fd_cases fd input stored kernel
  · simp only [heq]
    exact wake_all_blocked_alert _
  · have hafter : ({ kernel with objects } : Kernel M).NoLostWakeUp := hinv.same_pipes (.refl _) hpipes
    simp only [heq]
    cases error
    case WouldBlock =>
      refine block_in_alert hafter _ fun pipe hfd => ?_
      simpa only [Objects.HoldsWriters, hpipes] using hholds rfl pipe hfd
    all_goals exact hafter

theorem sys_fd_read_alert (rdi rdx : Nat) (valid copied : Bool) :
    Maintains Kernel.NoLostWakeUp (sys_fd_read rdi rdx valid copied : KernelM M Reply) := by
  unfold sys_fd_read
  split <;> [exact .pure _; split <;> [exact .pure _; split <;> [exact .pure _; exact fd_read_turn_alert _ _ _]]]

theorem sys_fd_write_alert (valid stored : Bool) :
    Maintains Kernel.NoLostWakeUp (sys_fd_write rdi input valid stored : KernelM M Reply) := by
  unfold sys_fd_write
  split <;> [exact .pure _; split <;> [exact .pure _; split <;> [exact .pure _; exact fd_write_turn_alert _ _ _]]]

end Transfers

section Descriptors

variable {kernel : Kernel M}

/-- A task that is not inside a call may change its descriptors. -/
theorem Scheduler.NoNewSleeper.put_table {self : Scheduler}
    (htask : self.tasks current = some task) (hstack : task._stack = none) (fds : FdTable) :
    self.NoNewSleeper (self.modify_task current fun task => { task with fds }) := by
  refine NoNewSleeper.put fun changed hchanged _ => ?_
  rw [htask] at hchanged
  obtain rfl := Option.some.inj hchanged
  exact hstack

/-- A close is followed by a wake-up of everybody. -/
theorem sys_close_alert : Maintains Kernel.NoLostWakeUp (sys_close rdi : KernelM M Reply) := by
  intro kernel hinv
  unfold sys_close
  split
  · exact hinv
  · simp only [bind_apply, attempt]
    obtain ⟨error, heq⟩ | ⟨middle, _, heq⟩ := close_current_fd_tabled rdi kernel
    · simp only [heq]
      cases error <;> exact hinv
    · simp only [heq]
      exact wake_all_blocked_alert _

/-- Dropping descriptors, counted by `dropped`, leaves an end to every pipe that holds
sleepers on its other side. -/
def Kernel.Spares (kernel : Kernel M) (objects : Objects) (dropped : FileDescriptor → Nat) : Prop :=
  ∀ pipe state, objects.pipes[pipe]? = some state →
    (kernel.ReaderBlocked pipe → dropped (.PipeWrite pipe) < state.writers) ∧
    (kernel.WriterBlocked pipe → dropped (.PipeRead pipe) < state.readers)

variable (hinv : kernel.NoLostWakeUp)
include hinv

theorem Kernel.NoLostWakeUp.drop {gained_readers gained_writers : Nat → Nat}
    {dropped : FileDescriptor → Nat} (htasks : kernel.global_scheduler.NoNewSleeper after.global_scheduler)
    (hgained : ∀ pipe : Nat, objects.pipes[pipe]? = kernel.objects.pipes[pipe]?.map fun state =>
      state.gain (gained_readers pipe) (gained_writers pipe))
    (hdropped : ∀ pipe : Nat, after.objects.pipes[pipe]? = objects.pipes[pipe]?.map fun state =>
      state.lose (dropped (.PipeRead pipe)) (dropped (.PipeWrite pipe))) (hspares : kernel.Spares objects dropped) :
    after.NoLostWakeUp := by
  refine hinv.carry htasks ?_ ?_
  · rintro pipe hreader ⟨state, hstate, hempty, _⟩
    have hpipe := hgained pipe
    rw [hstate, Option.map_some] at hpipe
    have hafter := hdropped pipe
    rw [hpipe, Option.map_some] at hafter
    exact ⟨_, hafter, hempty, Nat.sub_ne_zero_of_lt ((hspares pipe _ hpipe).1 hreader)⟩
  · rintro pipe hwriter ⟨state, hstate, hfull, _⟩
    have hpipe := hgained pipe
    rw [hstate, Option.map_some] at hpipe
    have hafter := hdropped pipe
    rw [hpipe, Option.map_some] at hafter
    exact ⟨_, hafter, hfull, Nat.sub_ne_zero_of_lt ((hspares pipe _ hpipe).2 hwriter)⟩

variable (hstack : ∀ task, kernel.running = some task → task._stack = none)
include hstack

/-- A new pipe, whether its ends are stored or dropped again. -/
theorem create_pipe_for_current_alert : (create_pipe_for_current kernel).2.NoLostWakeUp := by
  have hclosed : ∀ pipe, pipe < kernel.objects.pipes.length →
      (close (.PipeWrite kernel.objects.pipes.length) (close (.PipeRead kernel.objects.pipes.length)
        (create_pipe kernel.objects).2)).pipes[pipe]? = kernel.objects.pipes[pipe]? := by
    intro pipe hlt
    simp only [close, FileDescriptor.drop, getElem?_modifyPipe, if_neg (Nat.ne_of_gt hlt), create_pipe]
    exact List.getElem?_append_left hlt
  simp only [create_pipe_for_current, bind_apply, get_apply, set_apply, attempt]
  obtain ⟨error, _, _, heq⟩ | ⟨current, task, hcurrent, htask, hrunning, heq⟩ :=
    current_record_cases .UnknownTask { kernel with objects := (create_pipe kernel.objects).2 }
  · simp only [heq]
    exact hinv.keep_pipes (.refl _) hclosed
  · simp only [heq]
    cases find_free_fd_pair task.fds with
    | none => exact hinv.keep_pipes (.refl _) hclosed
    | some pair =>
      refine hinv.keep_pipes (.put_table htask (hstack task hrunning) _) fun pipe hlt => ?_
      exact List.getElem?_append_left hlt

theorem sys_pipe_alert (valid : Bool) : (sys_pipe valid kernel).2.NoLostWakeUp := by
  unfold sys_pipe
  split
  · exact hinv
  · have hcreated := create_pipe_for_current_alert hinv hstack
    simp only [bind_apply, attempt]
    generalize create_pipe_for_current kernel = result at hcreated
    rcases result with ⟨_ | _ | _, after⟩ <;> exact hcreated

/-- `sys_dup2` wakes nobody, so what it closes must not be the end somebody waits for. -/
theorem sys_dup2_alert (rdi rsi : Nat) (hspares : rdi ≠ rsi → ∀ task source, kernel.running = some task →
      descriptor_at task.fds rdi = some source →
      kernel.Spares (source.clone kernel.objects) (tally (descriptor_at task.fds rsi))) :
    (sys_dup2 rdi rsi kernel).2.NoLostWakeUp := by
  unfold sys_dup2
  split
  · exact hinv
  · rename_i hbounds
    simp only [bind_apply, attempt, duplicate_current_fd, if_neg hbounds]
    obtain ⟨error, rfl | rfl, _, heq⟩ | ⟨current, task, hcurrent, htask, hrunning, heq⟩ :=
      current_record_cases .InvalidFd kernel
    · simp only [heq]
      exact hinv
    · simp only [heq]
      exact hinv
    · simp only [heq]
      cases hsource : descriptor_at task.fds rdi with
      | none => exact hinv
      | some source =>
        simp only [okOr_some]
        by_cases hsame : rdi = rsi
        · simp only [hsame, if_true]
          exact hinv
        · simp only [if_neg hsame]
          exact hinv.drop (.put_table htask (hstack task hrunning) _) (clone_pipes kernel.objects · source)
            (close_slot_pipes _ · _) (hspares hsame task source hrunning hsource)

end Descriptors

end leafos.tasking.scheduler
