import LeafOS.Tasking.ChildTables
import LeafOS.Tasking.PipeCalls
import Mathlib.Algebra.BigOperators.Fin

namespace leafos.tasking.scheduler

open leafos.memory leafos.tasking.fd leafos.arch.syscall Prog
open Scheduler (inv_new modify_task put_tasks)

variable {M : Type}

section Kernel

/-- The calls of `child_table`: the parent's table is cloned and rearranged, and an error
drops what was built. -/
def child_calls (parent : Option TaskId) (fd_mappings : List FdMapping) (fd_closes : List Nat) (kernel : Kernel M) :
    List FdCall :=
  let state := inherited_table parent kernel
  ((parent.bind kernel.global_scheduler.task).elim [] fun task => table_clones task.fds) ++
    rearrange_calls fd_mappings fd_closes state ++
    match rearrange_descriptors fd_mappings fd_closes state with
    | (.err _, (fds, _)) => table_drops fds
    | _ => []

/-- The calls of an operation of the scheduler. -/
def Operation.calls (operation : Operation M) (kernel : Kernel M) : List FdCall :=
  match operation with
  | .create_user_task address_space parent stack fd_mappings fd_closes =>
    if kernel.Admits stack address_space then child_calls parent fd_mappings fd_closes kernel else []
  | .reap_terminated destroy id =>
    match (scheduler.reap_terminated destroy id kernel).1 with
    | .ok _ => (kernel.global_scheduler.task id).elim [] fun task => table_drops task.fds
    | _ => []
  | _ => []

/-- The steps that concern descriptors: the scheduler's operations, and the calls of the
running task. -/
inductive FdStep (M : Type) where
  | schedule (operation : Operation M)
  | create_pipe_for_current
  | close_current_fd (fd_number : Nat)
  | duplicate_current_fd (source_fd target_fd : Nat)
  | read_current_fd (fd_number capacity : Nat)
  | write_current_fd (fd_number : Nat) (input : List UInt8) (stored : Bool)

def FdStep.execute (step : FdStep M) : KernelM M Unit :=
  match step with
  | .schedule operation => operation.execute
  | .create_pipe_for_current => by_caller scheduler.create_pipe_for_current
  | .close_current_fd fd_number => by_caller (scheduler.close_current_fd fd_number)
  | .duplicate_current_fd source_fd target_fd => by_caller (scheduler.duplicate_current_fd source_fd target_fd)
  | .read_current_fd fd_number capacity => by_caller (scheduler.read_current_fd fd_number capacity)
  | .write_current_fd fd_number input stored => by_caller (scheduler.write_current_fd fd_number input stored)

/-- The calls of a step, in the order in which the code makes them. -/
def FdStep.calls (step : FdStep M) (kernel : Kernel M) : List FdCall :=
  match step with
  | .schedule operation => operation.calls kernel
  | .create_pipe_for_current => if kernel.running.any Task.is_idle then [] else
    .create_pipe :: if (kernel.running.bind fun task => find_free_fd_pair task.fds).isSome then [] else
      [.drop (.PipeRead kernel.objects.pipes.length), .drop (.PipeWrite kernel.objects.pipes.length)]
  | .close_current_fd fd_number => if kernel.running.any Task.is_idle then [] else
    drops (kernel.descriptor fd_number)
  | .duplicate_current_fd source_fd target_fd => if kernel.running.any Task.is_idle then [] else
    if MAX_FDS ≤ source_fd ∨ MAX_FDS ≤ target_fd ∨ source_fd = target_fd then [] else
      (kernel.descriptor source_fd).elim [] fun descriptor =>
        .clone descriptor :: drops (kernel.descriptor target_fd)
  | .read_current_fd fd_number capacity => if kernel.running.any Task.is_idle then [] else
    (kernel.descriptor fd_number).elim [] fun descriptor => [.read descriptor capacity]
  | .write_current_fd fd_number input stored => if kernel.running.any Task.is_idle then [] else
    (kernel.descriptor fd_number).elim [] fun descriptor => [.write descriptor input stored]

/-- Take steps in order, whatever they return, up to the first panic. -/
def run_steps : List (FdStep M) → Kernel M → Kernel M
  | [], kernel => kernel
  | step :: rest, kernel =>
    match step.execute kernel with
    | (.panic, after) => after
    | (_, after) => run_steps rest after

/-- The number of slots of a task's table that hold a descriptor. -/
def entry_ends (entry : Option Task) (descriptor : FileDescriptor) : Nat :=
  entry.elim 0 fun task => ends task.fds descriptor

/-- The same over all tasks in the table. -/
def Scheduler.held (self : Scheduler) (descriptor : FileDescriptor) : Nat :=
  ∑ slot, entry_ends (self.tasks slot) descriptor

theorem Scheduler.held_put (self : Scheduler) (slot : Slot) (entry : Option Task) (descriptor : FileDescriptor) :
    (self.put slot entry).held descriptor + entry_ends (self.tasks slot) descriptor =
      self.held descriptor + entry_ends entry descriptor := by
  unfold Scheduler.held
  rw [← Finset.add_sum_erase _ _ (Finset.mem_univ slot), ← Finset.add_sum_erase Finset.univ
    (fun slot => entry_ends (self.tasks slot) descriptor) (Finset.mem_univ slot)]
  have hothers : ∑ other ∈ Finset.univ.erase slot, entry_ends ((self.put slot entry).tasks other) descriptor =
      ∑ other ∈ Finset.univ.erase slot, entry_ends (self.tasks other) descriptor := by
    refine Finset.sum_congr rfl fun other hother => ?_
    rw [put_tasks, if_neg (Finset.ne_of_mem_erase hother)]
  have hslot : (self.put slot entry).tasks slot = entry := by rw [put_tasks, if_pos rfl]
  rw [hothers, hslot]
  omega

section Held

variable {self after : Scheduler} {slot : Slot} {task changed : Task}

theorem Scheduler.held_of_tasks (htasks : after.tasks = self.tasks) : after.held = self.held := by
  funext descriptor
  rw [Scheduler.held, Scheduler.held, htasks]

theorem Scheduler.held_insert (hfree : self.tasks slot = none) (task : Task) (descriptor : FileDescriptor) :
    (self.put slot (some task)).held descriptor = self.held descriptor + ends task.fds descriptor := by
  have hput := self.held_put slot (some task) descriptor
  rwa [hfree, entry_ends, Option.elim_none, Nat.add_zero] at hput

variable (htask : self.tasks slot = some task)
include htask

theorem Scheduler.held_remove (descriptor : FileDescriptor) :
    self.held descriptor = (self.put slot none).held descriptor + ends task.fds descriptor := by
  have hput := self.held_put slot none descriptor
  rw [htask, entry_ends, entry_ends, Option.elim_none, Option.elim_some, Nat.add_zero] at hput
  exact hput.symm

theorem Scheduler.held_change (changed : Task) (descriptor : FileDescriptor) :
    (self.put slot (some changed)).held descriptor + ends task.fds descriptor =
      self.held descriptor + ends changed.fds descriptor := by
  have hput := self.held_put slot (some changed) descriptor
  rwa [htask] at hput

theorem Scheduler.held_same (hfds : changed.fds = task.fds)
    (descriptor : FileDescriptor) : (self.put slot (some changed)).held descriptor = self.held descriptor := by
  have hput := Scheduler.held_change htask changed descriptor
  rw [hfds] at hput
  exact Nat.add_right_cancel hput

theorem Scheduler.ends_le_held (descriptor : FileDescriptor) : ends task.fds descriptor ≤ self.held descriptor := by
  rw [Scheduler.held_remove htask]
  exact Nat.le_add_left _ _

end Held

/-- The pipes count the ends in the task table, and the idle task holds none. -/
structure Kernel.Counted (kernel : Kernel M) : Prop where
  inv : kernel.global_scheduler.Inv kernel.global_scheduler
  counts : kernel.objects.Counts kernel.global_scheduler.held
  idle : ∀ slot task, kernel.global_scheduler.tasks slot = some task → task.is_idle = true →
    ∀ descriptor, descriptor.IsEnd → ends task.fds descriptor = 0

/-- The calls are exact, and the kernel that follows them still counts every end. -/
abbrev Kernel.Tallies (kernel : Kernel M) (calls : List FdCall) (after : Kernel M) : Prop :=
  Settles calls kernel.objects after.objects ∧ after.Counted

section Operations

variable {kernel : Kernel M} {descriptor : FileDescriptor}

theorem ends_initial_table_end (hend : descriptor.IsEnd) : ends initial_table descriptor = 0 := by
  cases descriptor with
  | PipeRead pipe => exact (ends_initial_table pipe).1
  | PipeWrite pipe => exact (ends_initial_table pipe).2
  | _ => cases hend

/-- A step that spares every table, apart from new and idle tasks, moves no end. -/
theorem held_of_fates {before after : Scheduler} {clock : Option UInt64} {leaves : TaskState → Prop}
    (hidle : ∀ slot task, before.tasks slot = some task → task.is_idle = true →
      ∀ descriptor, descriptor.IsEnd → ends task.fds descriptor = 0)
    (hfates : ∀ slot, Fate clock leaves (· = initial_table) False (before.tasks slot) (after.tasks slot))
    (hend : descriptor.IsEnd) : after.held descriptor = before.held descriptor := by
  refine Finset.sum_congr rfl fun slot _ => ?_
  have hfate := hfates slot
  have hspare := hidle slot
  generalize before.tasks slot = entry, after.tasks slot = later at hfate hspare
  cases hfate with
  | stays hrel =>
    cases hrel with
    | none => rfl
    | some hturns => exact congrArg (fun fds => ends fds descriptor) hturns.same.fds
  | arrives _ hfds =>
    rw [entry_ends, Option.elim_some, hfds]
    exact ends_initial_table_end hend
  | reaped hreaps _ => cases hreaps
  | retired hretired _ => exact (hspare _ rfl hretired descriptor hend).symm

variable (hcounted : kernel.Counted)
include hcounted

/-- An operation that creates no user task and reaps nobody. -/
theorem Operation.execute_spares {operation : Operation M}
    (htables : operation.tables = (· = initial_table)) (hreaps : operation.reaps = False)
    (hcalls : operation.calls kernel = []) (hobjects : (operation.execute kernel).2.objects = kernel.objects) :
    kernel.Tallies (operation.calls kernel) (operation.execute kernel).2 := by
  have hsettles : Settles (operation.calls kernel) kernel.objects (operation.execute kernel).2.objects := by
    rw [hcalls, hobjects]
    exact .nil _
  refine ⟨hsettles, ?_⟩
  have hfates := operation.execute_fate hcounted.inv
  rw [htables, hreaps] at hfates
  refine ⟨(operation.execute_inv hcounted.inv).restart, ?_, ?_⟩
  · intro descriptor hend
    rw [hobjects, hcounted.counts descriptor hend, held_of_fates hcounted.idle hfates hend]
  · intro slot task htask hidle descriptor hend
    obtain ⟨earlier, hearlier, hturns⟩ | ⟨_, _, hfds⟩ := (htask ▸ hfates slot).to_some
    · rw [hturns.same.fds]
      exact hcounted.idle slot earlier hearlier (hturns.same.is_idle ▸ hidle) descriptor hend
    · rw [hfds]
      exact ends_initial_table_end hend

/-- Building a child's table makes exact calls, and on an error gives everything back. -/
theorem child_table_counts (parent : Option TaskId) (fd_mappings : List FdMapping) (fd_closes : List Nat) :
    Settles (child_calls parent fd_mappings fd_closes kernel) kernel.objects
      (child_table parent fd_mappings fd_closes kernel).2.objects ∧
    (∀ fds, (child_table parent fd_mappings fd_closes kernel).1 = .ok fds →
      (child_table parent fd_mappings fd_closes kernel).2.objects.Counts fun descriptor =>
        kernel.global_scheduler.held descriptor + ends fds descriptor) ∧
    ((∀ fds, (child_table parent fd_mappings fd_closes kernel).1 ≠ .ok fds) →
      (child_table parent fd_mappings fd_closes kernel).2.objects.Counts kernel.global_scheduler.held) := by
  have hinherits : Settles ((parent.bind kernel.global_scheduler.task).elim [] fun task => table_clones task.fds)
      kernel.objects (inherited_table parent kernel).2 ∧ (inherited_table parent kernel).2.Counts fun descriptor =>
        kernel.global_scheduler.held descriptor + ends (inherited_table parent kernel).1 descriptor := by
    unfold inherited_table
    cases hparent : parent.bind kernel.global_scheduler.task with
    | none =>
      refine ⟨.nil _, fun descriptor hend => ?_⟩
      refine (hcounted.counts descriptor hend).trans ?_
      dsimp only
      rw [ends_initial_table_end hend, Nat.add_zero]
    | some task =>
      obtain ⟨id, _, hid⟩ := Option.bind_eq_some_iff.mp hparent
      obtain ⟨slot, _, htask⟩ := Option.bind_eq_some_iff.mp hid
      exact ⟨.table_clones task.fds kernel.objects, hcounted.counts.clone_table (Scheduler.ends_le_held htask)⟩
  obtain ⟨hsettles, hcounts⟩ := hinherits
  obtain ⟨hrest, hdone⟩ := rearrange_descriptors_records fd_mappings fd_closes _ _ hcounts
  have houtcome := rearrange_descriptors_outcome fd_mappings fd_closes (inherited_table parent kernel)
  simp only [child_calls, child_table, bind_apply, get_apply]
  generalize rearrange_descriptors fd_mappings fd_closes (inherited_table parent kernel) = result
    at hrest hdone houtcome
  rcases result with ⟨_ | error | _, fds, objects⟩
  · refine ⟨.append (.append hsettles hrest) (.nil _), fun table htable => ?_, fun hfailed => absurd rfl (hfailed fds)⟩
    cases htable
    exact hdone
  · obtain ⟨hdropped, hback⟩ := hdone.drop_table
    exact ⟨.append (.append hsettles hrest) hdropped, by rintro _ ⟨⟩, fun _ => hback⟩
  · obtain hpanic | hpanic := houtcome <;> cases hpanic

theorem create_user_task_counted (address_space : Option AddressSpace) (parent : Option TaskId)
    (stack : KernelStack) (fd_mappings : List FdMapping) (fd_closes : List Nat) :
    let operation : Operation M := .create_user_task address_space parent stack fd_mappings fd_closes
    kernel.Tallies (operation.calls kernel) (operation.execute kernel).2 := by
  intro operation
  obtain ⟨hsettles, hbuilt, hfailed⟩ := child_table_counts hcounted parent fd_mappings fd_closes
  have hinv := operation.execute_inv hcounted.inv
  have hexecute : (operation.execute kernel).2 =
      (create_user_task parent stack fd_mappings fd_closes (address_space, kernel)).2.2 := by
    simp only [operation, Operation.execute, zoom, discard_snd]
  rw [hexecute] at hinv ⊢
  obtain ⟨hrefused, _, heq⟩ | ⟨hadmits, ⟨objects, htable, heq⟩ |
      ⟨slot, task, objects, space, _, _, hslot, _, _, _, hflag, htable, heq⟩⟩ :=
    create_user_task_cases parent stack fd_mappings fd_closes address_space kernel
  · rw [heq, Operation.calls, if_neg hrefused]
    exact ⟨.nil _, hcounted⟩
  · rw [heq, Operation.calls, if_pos hadmits]
    rw [htable] at hsettles hfailed
    exact ⟨hsettles, hcounted.inv, hfailed (by simp), hcounted.idle⟩
  · have hfree := Scheduler.position_isNone hslot
    rw [heq] at hinv ⊢
    rw [Operation.calls, if_pos hadmits]
    rw [htable] at hsettles hbuilt
    refine ⟨hsettles, hinv.restart, ?_, ?_⟩
    · intro descriptor hend
      refine (hbuilt task.fds rfl descriptor hend).trans ?_
      dsimp only
      rw [← Scheduler.held_insert hfree]
      exact congrFun (Scheduler.held_of_tasks rfl) descriptor
    · intro other later hlater hidle
      rw [put_tasks] at hlater
      split at hlater
      · cases hlater
        rw [hflag] at hidle
        cases hidle
      · exact hcounted.idle other later hlater hidle

theorem reap_terminated_counted (destroy : Destroy M) (id : TaskId) :
    let operation : Operation M := .reap_terminated destroy id
    kernel.Tallies (operation.calls kernel) (operation.execute kernel).2 := by
  intro operation
  have hinv := operation.execute_inv hcounted.inv
  simp only [operation, Operation.execute, Operation.calls] at hinv ⊢
  obtain ⟨error, heq⟩ | ⟨slot, task, hslot, htask, hstate, ⟨memory, heq⟩ | ⟨outcome, user, space, memory, hfails, heq⟩⟩ :=
    reap_terminated_effect destroy id kernel
  · rw [heq]
    exact ⟨.nil _, hcounted⟩
  · have hfound : kernel.global_scheduler.task id = some task := by
      rw [Scheduler.task, hslot, Option.bind_some, htask]
    -- the ends of the reaped task are the only ones that go
    have hcounts : kernel.objects.Counts fun descriptor =>
        (kernel.global_scheduler.put slot none).held descriptor + ends task.fds descriptor := by
      intro descriptor hend
      rw [hcounted.counts descriptor hend, Scheduler.held_remove htask]
    obtain ⟨hsettles, hdone⟩ := hcounts.drop_table
    rw [heq] at hinv ⊢
    rw [hfound]
    refine ⟨hsettles, hinv.restart, hdone, fun other later hlater => ?_⟩
    rw [Kernel.reaped, put_tasks] at hlater
    split at hlater
    · cases hlater
    · exact hcounted.idle other later hlater
  · rw [heq] at hinv ⊢
    refine ⟨?_, hinv.restart, ?_, fun other later hlater hidle => ?_⟩
    · cases outcome with
      | ok _ => exact absurd rfl hfails
      | _ => exact .nil _
    · intro descriptor hend
      have hsame : { task with user := some { user with address_space := space } }.fds = task.fds := rfl
      exact (hcounted.counts descriptor hend).trans (Scheduler.held_same htask hsame descriptor).symm
    · rw [Kernel.torn, put_tasks] at hlater
      split at hlater
      · cases hlater
        exact hcounted.idle slot task htask hidle
      · exact hcounted.idle other later hlater hidle

/-- Every operation of the scheduler makes exact calls and keeps the counts. -/
theorem Operation.execute_counted (operation : Operation M) :
    kernel.Tallies (operation.calls kernel) (operation.execute kernel).2 := by
  cases operation with
  | create_user_task address_space parent stack fd_mappings fd_closes =>
    exact create_user_task_counted hcounted address_space parent stack fd_mappings fd_closes
  | reap_terminated destroy id => exact reap_terminated_counted hcounted destroy id
  | _ =>
    refine Operation.execute_spares hcounted rfl rfl rfl ?_
    simp only [Operation.execute, discard_snd]
    rfl

end Operations

section Calls

variable {kernel : Kernel M} {slot : Slot} {task : Task} {fds : FdTable} {objects : Objects} {fd_number : Nat}
  {descriptor : FileDescriptor}

theorem find_free_fd_pair_some {first second : Fin MAX_FDS}
    (hfound : find_free_fd_pair fds = some (first, second)) : fds first = none ∧ fds second = none ∧ first ≠ second := by
  unfold find_free_fd_pair at hfound
  have hnodup := (List.nodup_finRange MAX_FDS).filter fun index => (fds index).isNone
  have hfree : ∀ index ∈ (List.finRange MAX_FDS).filter fun index => (fds index).isNone, fds index = none :=
    fun index hindex => Option.isNone_iff_eq_none.mp (List.mem_filter.mp hindex).2
  generalize (List.finRange MAX_FDS).filter _ = free at hfound hnodup hfree
  rcases free with _ | ⟨one, _ | ⟨two, rest⟩⟩
  · cases hfound
  · cases hfound
  · cases hfound
    refine ⟨hfree _ List.mem_cons_self, hfree _ (List.mem_cons_of_mem _ List.mem_cons_self), ?_⟩
    rintro rfl
    exact (List.nodup_cons.mp hnodup).1 List.mem_cons_self

/-- A fresh pipe that finds no room is dropped again. -/
theorem create_and_drop {held : FileDescriptor → Nat} (hcounts : objects.Counts held) :
    let pipe := objects.pipes.length
    let after := close (.PipeWrite pipe) (close (.PipeRead pipe) (create_pipe objects).2)
    Settles [.create_pipe, .drop (.PipeRead pipe), .drop (.PipeWrite pipe)] objects after ∧ after.Counts held := by
  intro pipe after
  obtain ⟨hread, hmiddle⟩ := hcounts.create_pipe.close_slot
  obtain ⟨hwrite, hdone⟩ := hmiddle.close_slot
  exact ⟨.cons trivial (hread.append hwrite), hdone⟩

/-- Writing a slot by its number. -/
theorem ends_with_descriptor (fds : FdTable) (hbound : fd_number < MAX_FDS)
    (entry : Option FileDescriptor) (descriptor : FileDescriptor) :
    ends (with_descriptor fds fd_number entry) descriptor + tally (descriptor_at fds fd_number) descriptor =
      ends fds descriptor + tally entry descriptor := by
  have htable : with_descriptor fds fd_number entry = Function.update fds ⟨fd_number, hbound⟩ entry := by
    funext index
    simp [with_descriptor, Function.update_apply, Fin.ext_iff]
  rw [htable, descriptor_at, dif_pos hbound]
  exact ends_update fds ⟨fd_number, hbound⟩ entry descriptor

theorem descriptor_at_bound (hfd : descriptor_at fds fd_number = some descriptor) : fd_number < MAX_FDS := by
  unfold descriptor_at at hfd
  split at hfd
  · assumption
  · cases hfd

theorem tally_le_ends_at (hfd : descriptor_at fds fd_number = some descriptor) (other : FileDescriptor) :
    tally (some descriptor) other ≤ ends fds other := by
  have hbound := descriptor_at_bound hfd
  rw [← hfd, descriptor_at, dif_pos hbound]
  exact tally_le_ends fds ⟨fd_number, hbound⟩ other

/-- What a task holds is counted on top of the rest. -/
theorem counts_spare {self : Scheduler} (hcounts : objects.Counts self.held) (htask : self.tasks slot = some task)
    (hfd : descriptor_at task.fds fd_number = some descriptor) :
    objects.Counts fun other => (self.held other - tally (some descriptor) other) + tally (some descriptor) other := by
  intro other hend
  have hle := Nat.le_trans (tally_le_ends_at hfd other) (Scheduler.ends_le_held htask other)
  exact (hcounts other hend).trans (Nat.sub_add_cancel hle).symm

section Counted

variable (hcounted : kernel.Counted)
include hcounted

theorem Kernel.Counted.put_table (htask : kernel.global_scheduler.tasks slot = some task)
    (hactive : task.is_idle = false)
    (hcounts : ∀ descriptor, descriptor.IsEnd → objects.count descriptor + ends task.fds descriptor =
      kernel.global_scheduler.held descriptor + ends fds descriptor) :
    { kernel with
      objects
      global_scheduler := kernel.global_scheduler.modify_task slot fun task => { task with fds } }.Counted := by
  have hinv : (kernel.global_scheduler.modify_task slot fun task => { task with fds }).Inv kernel.global_scheduler :=
    hcounted.inv.modify_task _ fun found hfound => hcounted.inv.keeps hfound
  refine ⟨hinv.restart, fun descriptor hend => ?_, fun other later hlater hidle => ?_⟩
  · have hchange := Scheduler.held_change htask { task with fds } descriptor
    have hcount := hcounts descriptor hend
    rw [modify_task, htask, Option.map_some]
    dsimp only at hchange ⊢
    omega
  · rw [modify_task, put_tasks] at hlater
    split at hlater
    · obtain ⟨found, hfound, rfl⟩ := Option.map_eq_some_iff.mp hlater
      obtain rfl := Option.mem_unique hfound htask
      rw [hactive] at hidle
      cases hidle
    · exact hcounted.idle other later hlater hidle

/-- A change of the objects that moves no end. -/
theorem Kernel.Counted.change_objects
    (hcounts : objects.Counts kernel.global_scheduler.held) : { kernel with objects }.Counted :=
  ⟨hcounted.inv, hcounts, hcounted.idle⟩

theorem transfer_current_fd_counted {ε α : Type} {transfer : FileDescriptor → Objects → Except ε α × Objects}
    {convert : ε → SchedulerError} (call : FileDescriptor → FdCall)
    (hcount : ∀ descriptor, (transfer descriptor kernel.objects).2.count = kernel.objects.count)
    (hsettles : ∀ descriptor, Settles [call descriptor] kernel.objects (transfer descriptor kernel.objects).2) :
    kernel.Tallies ((kernel.descriptor fd_number).elim [] fun descriptor => [call descriptor])
      (transfer_current_fd fd_number transfer convert kernel).2 := by
  obtain ⟨hfd, _, _, heq⟩ | ⟨descriptor, objects, hfd, hcases⟩ :=
    transfer_current_fd_cases fd_number transfer convert kernel
  · rw [heq, hfd]
    exact ⟨.nil _, hcounted⟩
  · have hdone := hcount descriptor
    have hmade := hsettles descriptor
    rw [hfd]
    obtain ⟨_, htransfer, heq⟩ | ⟨_, htransfer, heq⟩ := hcases
    all_goals
      rw [htransfer] at hdone hmade
      rw [heq]
      exact ⟨hmade, hcounted.change_objects fun other hend => by rw [hdone, hcounted.counts other hend]⟩

variable (hactive : kernel.running.any Task.is_idle = false)
include hactive

theorem create_pipe_for_current_counted
    :
    kernel.Tallies (FdStep.create_pipe_for_current.calls kernel) (create_pipe_for_current kernel).2 := by
  have hdropped := create_and_drop hcounted.counts
  simp only [FdStep.calls, hactive, Bool.false_eq_true, if_false, create_pipe_for_current, bind_apply, get_apply,
    set_apply, attempt]
  obtain ⟨error, _, hnobody, heq⟩ | ⟨slot, task, hcurrent, htask, hrunning, heq⟩ := current_record_cases .UnknownTask
    { kernel with objects := (create_pipe kernel.objects).2 }
  · replace hnobody : kernel.running = none := hnobody
    simp only [heq, hnobody]
    exact ⟨hdropped.1, hcounted.change_objects hdropped.2⟩
  · replace hrunning : kernel.running = some task := hrunning
    simp only [heq, hrunning, Option.bind_some]
    cases hpair : find_free_fd_pair task.fds with
    | none => exact ⟨hdropped.1, hcounted.change_objects hdropped.2⟩
    | some pair =>
      obtain ⟨first, second⟩ := pair
      obtain ⟨hfirst, hsecond, hne⟩ := find_free_fd_pair_some hpair
      refine ⟨.cons trivial (.nil _), hcounted.put_table htask (by simpa [hrunning] using hactive) ?_⟩
      intro descriptor hend
      have hcreated := hcounted.counts.create_pipe descriptor hend
      have hread := ends_update task.fds first (some (.PipeRead kernel.objects.pipes.length)) descriptor
      have hwrite := ends_update (Function.update task.fds first (some (.PipeRead kernel.objects.pipes.length)))
        second (some (.PipeWrite kernel.objects.pipes.length)) descriptor
      rw [Function.update_of_ne hne.symm, hsecond] at hwrite
      rw [hfirst] at hread
      simp only [create_pipe, tally, reduceCtorEq, if_false] at hcreated hread hwrite ⊢
      omega

theorem close_current_fd_counted
    (fd_number : Nat) :
    kernel.Tallies ((FdStep.close_current_fd fd_number).calls kernel) (close_current_fd fd_number kernel).2 := by
  simp only [FdStep.calls, hactive, Bool.false_eq_true, if_false, close_current_fd, bind_apply]
  obtain ⟨error, _, hnobody, heq⟩ | ⟨slot, task, hcurrent, htask, hrunning, heq⟩ := current_record_cases .InvalidFd kernel
  · simp only [heq, Kernel.descriptor, hnobody, Option.bind_none]
    exact ⟨.nil _, hcounted⟩
  · simp only [heq, Kernel.descriptor_some hrunning]
    cases hfd : descriptor_at task.fds fd_number with
    | none => exact ⟨.nil _, hcounted⟩
    | some descriptor =>
      obtain ⟨hsettles, hclosed⟩ := (counts_spare hcounted.counts htask hfd).close_slot
      have hcounts : ∀ other, other.IsEnd → (close descriptor kernel.objects).count other + ends task.fds other =
          kernel.global_scheduler.held other + ends (with_descriptor task.fds fd_number none) other := by
        intro other hend
        have hcount := hclosed other hend
        have hends := ends_with_descriptor task.fds (descriptor_at_bound hfd) none other
        have hle := Nat.le_trans (tally_le_ends_at hfd other) (Scheduler.ends_le_held htask other)
        rw [hfd] at hends
        simp only [close_slot, tally, reduceCtorEq, if_false] at hcount hends hle
        omega
      have hmiddle := hcounted.put_table htask (by simpa [hrunning] using hactive) hcounts
      exact ⟨hsettles, ((Operation.wake_all_blocked).execute_counted hmiddle).2⟩

theorem duplicate_current_fd_counted
    (source_fd target_fd : Nat) :
    kernel.Tallies ((FdStep.duplicate_current_fd source_fd target_fd).calls kernel)
      (duplicate_current_fd source_fd target_fd kernel).2 := by
  simp only [FdStep.calls, hactive, Bool.false_eq_true, if_false, duplicate_current_fd]
  by_cases hbounds : MAX_FDS ≤ source_fd ∨ MAX_FDS ≤ target_fd
  · rw [if_pos hbounds, if_pos (hbounds.imp_right Or.inl)]
    exact ⟨.nil _, hcounted⟩
  · rw [if_neg hbounds]
    simp only [bind_apply]
    obtain ⟨error, _, hnobody, heq⟩ | ⟨slot, task, hcurrent, htask, hrunning, heq⟩ := current_record_cases .InvalidFd kernel
    · simp only [heq, Kernel.descriptor, hnobody, Option.bind_none]
      split <;> exact ⟨.nil _, hcounted⟩
    · simp only [heq, Kernel.descriptor_some hrunning]
      cases hfd : descriptor_at task.fds source_fd with
      | none => split <;> exact ⟨.nil _, hcounted⟩
      | some descriptor =>
        simp only [okOr_some]
        by_cases hsame : source_fd = target_fd
        · rw [if_pos hsame, if_pos (.inr (.inr hsame))]
          exact ⟨.nil _, hcounted⟩
        · rw [if_neg hsame, if_neg (by simpa [hsame] using hbounds)]
          have hbound : target_fd < MAX_FDS := by omega
          have hlive : 0 < kernel.global_scheduler.held descriptor := by
            have hle := tally_le_ends_at hfd descriptor
            have hheld := Scheduler.ends_le_held htask descriptor
            simp only [tally, if_true] at hle
            omega
          have hready : (descriptor.clone kernel.objects).Counts fun other =>
              (kernel.global_scheduler.held other + tally (some descriptor) other -
                tally (descriptor_at task.fds target_fd) other) + tally (descriptor_at task.fds target_fd) other := by
            intro other hend
            refine (hcounted.counts.clone hlive other hend).trans ?_
            have hends := ends_with_descriptor task.fds hbound none other
            have hheld := Scheduler.ends_le_held htask other
            simp only [tally, reduceCtorEq, if_false] at hends ⊢
            omega
          obtain ⟨hsettles, hclosed⟩ := hready.close_slot
          refine ⟨.append (.clone descriptor _) hsettles,
            hcounted.put_table htask (by simpa [hrunning] using hactive) fun other hend => ?_⟩
          have hcount := hclosed other hend
          have hends := ends_with_descriptor task.fds hbound (some descriptor) other
          have hheld := Scheduler.ends_le_held htask other
          dsimp only at hcount
          rw [hcount]
          omega

end Counted

/-- Every step makes exact calls and keeps the counts. -/
theorem FdStep.execute_counted (step : FdStep M) (hcounted : kernel.Counted) :
    kernel.Tallies (step.calls kernel) (step.execute kernel).2 := by
  have hidle : ∀ {α : Type} {call : KernelM M α} {calls : List FdCall},
      (kernel.running.any Task.is_idle = true → calls = []) →
      (kernel.running.any Task.is_idle = false → kernel.Tallies calls (call kernel).2) →
      kernel.Tallies calls (by_caller call kernel).2 := by
    intro α call calls hnone hactive
    simp only [by_caller, bind_apply, get_apply]
    cases hrunning : kernel.running.any Task.is_idle with
    | true =>
      rw [hnone hrunning]
      exact ⟨.nil _, hcounted⟩
    | false =>
      rw [if_neg (by simp), discard_snd]
      exact hactive hrunning
  cases step with
  | schedule operation => exact operation.execute_counted hcounted
  | create_pipe_for_current =>
    exact hidle (fun h => by simp [FdStep.calls, h]) (create_pipe_for_current_counted hcounted)
  | close_current_fd fd_number =>
    exact hidle (fun h => by simp [FdStep.calls, h]) fun h => close_current_fd_counted hcounted h fd_number
  | duplicate_current_fd source_fd target_fd =>
    exact hidle (fun h => by simp [FdStep.calls, h]) fun h =>
      duplicate_current_fd_counted hcounted h source_fd target_fd
  | read_current_fd fd_number capacity =>
    refine hidle (fun h => by simp [FdStep.calls, h]) fun hactive => ?_
    simp only [FdStep.calls, hactive, Bool.false_eq_true, if_false]
    exact transfer_current_fd_counted hcounted (.read · capacity) (fun descriptor => count_read descriptor capacity _)
      fun _ => .cons trivial (.nil _)
  | write_current_fd fd_number input stored =>
    refine hidle (fun h => by simp [FdStep.calls, h]) fun hactive => ?_
    simp only [FdStep.calls, hactive, Bool.false_eq_true, if_false]
    exact transfer_current_fd_counted hcounted (.write · input stored) (fun descriptor => count_write descriptor input stored _)
      fun _ => .cons trivial (.nil _)

end Calls

end Kernel

theorem run_steps_counted {kernel : Kernel M} (hcounted : kernel.Counted) (steps : List (FdStep M)) :
    (run_steps steps kernel).Counted := by
  induction steps generalizing kernel with
  | nil => exact hcounted
  | cons step rest ih =>
    have hstep := (step.execute_counted hcounted).2
    rw [run_steps]
    generalize step.execute kernel = result at hstep
    rcases result with ⟨_ | _ | _, after⟩
    · exact ih hstep
    · exact ih hstep
    · exact hstep

theorem Kernel.fresh_counted (objects : Objects) (memory : M) (cpu : Cpu) (kernel_root : PhysFrame) :
    (Kernel.fresh { objects with pipes := [] } memory cpu kernel_root).Counted := by
  refine ⟨inv_new, fun descriptor hend => ?_, fun _ _ htask => by cases htask⟩
  have hempty : Scheduler.new.held descriptor = 0 := Finset.sum_eq_zero fun _ _ => rfl
  rw [Kernel.fresh, hempty]
  cases descriptor <;> rfl

/-- Pipe endpoint counts are exact reference counts. After every sequence of steps, every
pipe counts the slots that hold one of its ends, over the tables of all tasks; and whatever
step comes next, none of its drops finds the count at zero, so that the subtraction never
saturates. -/
theorem pipe_counts_are_exact (steps : List (FdStep M)) (objects : Objects) (memory : M) (cpu : Cpu)
    (kernel_root : PhysFrame) :
    let kernel := run_steps steps (.fresh { objects with pipes := [] } memory cpu kernel_root)
    (∀ pipe state, kernel.objects.pipes[pipe]? = some state →
      state.readers = kernel.global_scheduler.held (.PipeRead pipe) ∧
      state.writers = kernel.global_scheduler.held (.PipeWrite pipe)) ∧
    ∀ step : FdStep M, Settles (step.calls kernel) kernel.objects (step.execute kernel).2.objects := by
  intro kernel
  have hcounted : kernel.Counted := run_steps_counted (Kernel.fresh_counted objects memory cpu kernel_root) steps
  refine ⟨fun pipe state hstate => ?_, fun step => (step.execute_counted hcounted).1⟩
  have hreaders := hcounted.counts (.PipeRead pipe) trivial
  have hwriters := hcounted.counts (.PipeWrite pipe) trivial
  simp only [Objects.count, hstate, Option.map_some, Option.getD_some] at hreaders hwriters
  exact ⟨hreaders, hwriters⟩

end leafos.tasking.scheduler
