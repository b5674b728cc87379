import LeafOS.Tasking.Launch
import LeafOS.Tasking.Preservation

namespace leafos.tasking.scheduler

open leafos.memory leafos.tasking.fd Prog

variable {M : Type} (parent : Option TaskId)

theorem locked_apply {α : Type} (method : SchedulerM α) (kernel : Kernel M) :
    locked method kernel = ((method kernel.global_scheduler).1,
      { kernel with global_scheduler := (method kernel.global_scheduler).2 }) := rfl

section Descriptors

variable (fd_mappings : List FdMapping) (fd_closes : List Nat) (state : FdTable × Objects)

theorem map_descriptors_outcome :
    (map_descriptors fd_mappings state).1 = .err .InvalidFd ∨
      (map_descriptors fd_mappings state).1 = .ok () ∧ ∀ mapping ∈ fd_mappings, mapping.source < MAX_FDS := by
  induction fd_mappings generalizing state with
  | nil => exact .inr ⟨rfl, fun mapping hmapping => absurd hmapping List.not_mem_nil⟩
  | cons mapping rest ih =>
    unfold map_descriptors
    split
    · rename_i bounds
      simp only [bind_apply, get_apply]
      cases state.1 ⟨mapping.source, bounds.1⟩ with
      | none => exact .inl rfl
      | some descriptor => exact (ih _).imp_right fun hrest => ⟨hrest.1, List.forall_mem_cons.mpr ⟨bounds.1, hrest.2⟩⟩
    · exact .inl rfl

/-- The sources have been looked up before, so the second loop stays inside the table. -/
theorem close_sources_outcome {fd_mappings : List FdMapping}
    (hbounds : ∀ mapping ∈ fd_mappings, mapping.source < MAX_FDS) (state : FdTable × Objects) :
    (close_sources fd_mappings state).1 = .ok () := by
  induction fd_mappings generalizing state with
  | nil => rfl
  | cons mapping rest ih =>
    obtain ⟨hbound, hrest⟩ := List.forall_mem_cons.mp hbounds
    unfold close_sources
    split
    · exact ih hrest _
    · exact ih hrest _

theorem close_requested_outcome :
    (close_requested fd_closes state).1 = .err .InvalidFd ∨ (close_requested fd_closes state).1 = .ok () := by
  induction fd_closes generalizing state with
  | nil => exact .inr rfl
  | cons fd_number rest ih =>
    unfold close_requested
    split
    · exact ih _
    · exact .inl rfl

/-- Rearranging a table can only fail for a descriptor. -/
theorem rearrange_descriptors_outcome :
    (rearrange_descriptors fd_mappings fd_closes state).1 = .err .InvalidFd ∨
      (rearrange_descriptors fd_mappings fd_closes state).1 = .ok () := by
  have hmap := map_descriptors_outcome fd_mappings state
  simp only [rearrange_descriptors, bind_apply]
  generalize map_descriptors fd_mappings state = result at hmap
  obtain ⟨outcome, middle⟩ := result
  obtain rfl | ⟨rfl, hbounds⟩ := hmap
  · exact .inl rfl
  · have hsources := close_sources_outcome hbounds middle
    dsimp only
    generalize close_sources fd_mappings middle = result at hsources
    obtain ⟨outcome, last⟩ := result
    obtain rfl : outcome = .ok () := hsources
    exact close_requested_outcome fd_closes last

end Descriptors

/-- Building the child's table touches the objects only. -/
theorem child_table_cases (fd_mappings : List FdMapping) (fd_closes : List Nat) (kernel : Kernel M) :
    ∃ objects, child_table parent fd_mappings fd_closes kernel = (.err .InvalidFd, { kernel with objects }) ∨
      ∃ fds, child_table parent fd_mappings fd_closes kernel = (.ok fds, { kernel with objects }) := by
  have houtcome := rearrange_descriptors_outcome fd_mappings fd_closes (inherited_table parent kernel)
  simp only [child_table, bind_apply, get_apply]
  generalize rearrange_descriptors fd_mappings fd_closes (inherited_table parent kernel) = result at houtcome
  obtain ⟨outcome, fds, objects⟩ := result
  obtain rfl | rfl := houtcome
  · exact ⟨drop_table fds objects, .inl rfl⟩
  · exact ⟨objects, .inr ⟨fds, rfl⟩⟩

/-- Nothing but the descriptors can keep `create_user_task` from creating the task. -/
abbrev Kernel.Admits (kernel : Kernel M) (stack : KernelStack) (address_space : Option AddressSpace) : Prop :=
  (kernel.global_scheduler.position Option.isNone).isSome ∧ (checked_add_u64 kernel.global_scheduler.next_id 1).isSome ∧
    stack.isOk ∧ address_space.isSome

/-- `create_user_task` fails with the address space where it was, or for a descriptor, or
fills the first free slot with a fresh ready task. -/
theorem create_user_task_cases (stack : KernelStack) (fd_mappings : List FdMapping) (fd_closes : List Nat)
    (address_space : Option AddressSpace) (kernel : Kernel M) :
    (¬ kernel.Admits stack address_space ∧
      ∃ error, create_user_task parent stack fd_mappings fd_closes (address_space, kernel) =
        (.err error, (address_space, kernel))) ∨
    kernel.Admits stack address_space ∧
    ((∃ objects, child_table parent fd_mappings fd_closes kernel = (.err .InvalidFd, { kernel with objects }) ∧
      create_user_task parent stack fd_mappings fd_closes (address_space, kernel) =
        (.err .InvalidFd, (none, { kernel with objects }))) ∨
      ∃ slot task objects space, address_space = some space ∧
      task.user = some { address_space := space, syscall_user_rsp := 0 } ∧
      kernel.global_scheduler.position Option.isNone = some slot ∧
      task.id = kernel.global_scheduler.next_id ∧ task.parent = parent ∧ task.state = .Ready ∧
      task.is_idle = false ∧
      child_table parent fd_mappings fd_closes kernel = (.ok task.fds, { kernel with objects }) ∧
      create_user_task parent stack fd_mappings fd_closes (address_space, kernel) =
        (.ok kernel.global_scheduler.next_id, (none, { kernel with
          objects
          global_scheduler := { kernel.global_scheduler with
            next_id := kernel.global_scheduler.next_id + 1 }.put slot (some task) }))) := by
  simp only [create_user_task, bind_apply, get_apply]
  cases hslot : kernel.global_scheduler.position Option.isNone with
  | none => exact .inl ⟨by simp [Kernel.Admits, hslot], .Full, rfl⟩
  | some slot =>
    simp only [okOr_some]
    cases hnext : checked_add_u64 kernel.global_scheduler.next_id 1 with
    | none => exact .inl ⟨by simp [Kernel.Admits, hnext], .TaskIdExhausted, rfl⟩
    | some next_id =>
      have hsucc := Scheduler.checked_add_u64_some hnext
      subst hsucc
      simp only [okOr_some]
      cases stack with
      | error error => exact .inl ⟨by simp [Kernel.Admits, Except.isOk, Except.toBool], error, rfl⟩
      | ok stack =>
        cases address_space with
        | none => exact .inl ⟨by simp [Kernel.Admits], .InvalidContext, rfl⟩
        | some address_space =>
          refine .inr ⟨⟨by rw [hslot]; rfl, by rw [hnext]; rfl, rfl, rfl⟩, ?_⟩
          obtain ⟨objects, htable | ⟨fds, htable⟩⟩ := child_table_cases parent fd_mappings fd_closes kernel
          · simp only [bind_apply, okOr_some, modify_apply, zoom, htable]
            exact .inl ⟨objects, rfl, rfl⟩
          · simp only [bind_apply, okOr_some, modify_apply, zoom, htable]
            exact .inr ⟨slot, _, objects, address_space, rfl, rfl, rfl, rfl, rfl, rfl, rfl, rfl, rfl⟩

section Spawning

variable (destroy : Destroy M) (space : AddressSpace) (entry stack argument_count argument_vector : Nat)
  (kernel_stack : KernelStack) (fd_mappings : List FdMapping) (fd_closes : List Nat)
  (kernel : Kernel M)

/-- A spawn ends without a task and with the address space destroyed, unless that fails too. -/
def Kernel.Discards (kernel : Kernel M) (destroy : Destroy M) (space : AddressSpace)
    (outcome : Outcome SchedulerError TaskId) (after : Kernel M) : Prop :=
  (∀ id, outcome ≠ .ok id) ∧ after = { kernel with memory := (destroy kernel.cpu.cr3 (space, kernel.memory)).2.2 } ∧
    ∀ error, outcome = .err error →
      error = .AddressSpaceCleanup ∨ (destroy kernel.cpu.cr3 (space, kernel.memory)).1 = .ok ()

/-- A spawn ends as `create_user_task` does when that takes the address space, and else destroys
the address space. -/
theorem spawn_user_apply :
    let result := spawn_user_with_arguments_and_fds destroy space entry stack argument_count argument_vector
      kernel_stack fd_mappings fd_closes kernel
    (kernel.global_scheduler.keeps_idle_slot = false ∧ (∃ context, arch.user.UserContext.for_address_space_with_arguments
        space entry stack argument_count argument_vector = .ok context) ∧ ∃ outcome after,
      create_user_task kernel.global_scheduler.current_task kernel_stack fd_mappings fd_closes (some space, kernel) =
        (outcome, (none, after)) ∧ result = (outcome, after)) ∨ kernel.Discards destroy space result.1 result.2 := by
  have hdestroyed : ∀ error : SchedulerError, let result := (destroy_unspawned_address_space destroy >>= fun _ =>
      throw error : Prog (Option AddressSpace × Kernel M) SchedulerError TaskId) (some space, kernel)
      kernel.Discards destroy space result.1 result.2.2 := by
    intro error
    simp only [Kernel.Discards, destroy_unspawned_address_space, bind_apply, get_apply]
    rcases destroy kernel.cpu.cr3 (space, kernel.memory) with ⟨_ | _ | _, left, memory⟩
    · exact ⟨nofun, rfl, fun _ _ => .inr rfl⟩
    · exact ⟨nofun, rfl, fun error herror => .inl (Outcome.err.inj herror).symm⟩
    · exact ⟨nofun, rfl, nofun⟩
  simp only [spawn_user_with_arguments_and_fds, zoom]
  cases arch.user.UserContext.for_address_space_with_arguments space entry stack argument_count argument_vector with
  | error error => exact .inr (hdestroyed _)
  | ok context =>
    simp only [bind_apply, get_apply, attempt]
    cases kernel.global_scheduler.keeps_idle_slot with
    | true => exact .inr (hdestroyed .Full)
    | false =>
      simp only [Bool.false_eq_true, if_false]
      obtain ⟨_, error, heq⟩ | ⟨_, ⟨objects, _, heq⟩ | ⟨slot, task, objects, _, _, _, _, _, _, _, _, _, heq⟩⟩ :=
        create_user_task_cases kernel.global_scheduler.current_task kernel_stack fd_mappings fd_closes (some space) kernel
      · rw [heq]
        exact .inr (hdestroyed error)
      all_goals
        rw [heq]
        exact .inl ⟨trivial, ⟨context, rfl⟩, _, _, rfl, rfl⟩

/-- A spawn fills a free slot with a fresh ready task, or fails for a descriptor, or fails with
the address space destroyed. -/
theorem spawn_user_cases :
    let result := spawn_user_with_arguments_and_fds destroy space entry stack argument_count argument_vector
      kernel_stack fd_mappings fd_closes kernel
    (∃ slot task objects, kernel.global_scheduler.tasks slot = none ∧
      task.id = kernel.global_scheduler.next_id ∧ task.state = .Ready ∧ task.is_idle = false ∧
      task.user = some { address_space := space, syscall_user_rsp := 0 } ∧
      objects = (child_table kernel.global_scheduler.current_task fd_mappings fd_closes kernel).2.objects ∧
      result = (.ok kernel.global_scheduler.next_id, { kernel with
        objects
        global_scheduler := { kernel.global_scheduler with
          next_id := kernel.global_scheduler.next_id + 1 }.put slot (some task) })) ∨
    (∃ objects, child_table kernel.global_scheduler.current_task fd_mappings fd_closes kernel =
      (.err .InvalidFd, { kernel with objects }) ∧ result = (.err .InvalidFd, { kernel with objects })) ∨
    kernel.Discards destroy space result.1 result.2 := by
  obtain ⟨_, _, outcome, after, hcreate, heq⟩ | hdestroyed := spawn_user_apply destroy space entry stack argument_count
    argument_vector kernel_stack fd_mappings fd_closes kernel
  · obtain ⟨_, error, hcall⟩ | ⟨_, ⟨objects, htable, hcall⟩ |
        ⟨slot, task, objects, found, hfound, huser, hslot, hid, _, hstate, hflag, htable, hcall⟩⟩ :=
      create_user_task_cases kernel.global_scheduler.current_task kernel_stack fd_mappings fd_closes (some space) kernel
    · cases hcreate.symm.trans hcall
    · cases hcreate.symm.trans hcall
      exact .inr (.inl ⟨objects, htable, heq⟩)
    · cases hcreate.symm.trans hcall
      cases hfound
      exact .inl ⟨slot, task, objects, Scheduler.position_isNone hslot, hid, hstate, hflag, huser, by rw [htable], heq⟩
  · exact .inr (.inr hdestroyed)

end Spawning

/-- The kernel once a task has left its slot. Its descriptors are dropped. -/
def Kernel.reaped (kernel : Kernel M) (slot : Slot) (task : Task) (memory : M) : Kernel M :=
  { kernel with
    memory
    global_scheduler := kernel.global_scheduler.put slot none
    objects := drop_table task.fds kernel.objects }

/-- The kernel after a `destroy` that did not succeed: the task keeps what is left. -/
def Kernel.torn (kernel : Kernel M) (slot : Slot) (task : Task) (user : UserTask) (address_space : AddressSpace)
    (memory : M) : Kernel M :=
  { kernel with
    memory
    global_scheduler := kernel.global_scheduler.put slot
      (some { task with user := some { user with address_space } }) }

/-- Reaping a terminated task that is not current. -/
theorem reap_terminated_apply {kernel : Kernel M} {id : TaskId} {slot : Slot} {task : Task}
    (hslot : kernel.global_scheduler.position_of id = some slot)
    (htask : kernel.global_scheduler.tasks slot = some task) (hstate : task.state = .Terminated)
    (hcurrent : kernel.global_scheduler.current ≠ some slot) (destroy : Destroy M) :
    reap_terminated destroy id kernel =
      match task.user with
      | none => (.ok (), kernel.reaped slot task kernel.memory)
      | some user =>
        match destroy kernel.cpu.cr3 (user.address_space, kernel.memory) with
        | (.ok _, (_, memory)) => (.ok (), kernel.reaped slot task memory)
        | (.err _, (address_space, memory)) =>
          (.err .AddressSpaceCleanup, kernel.torn slot task user address_space memory)
        | (.panic, (address_space, memory)) => (.panic, kernel.torn slot task user address_space memory) := by
  simp only [reap_terminated, bind_apply, get_apply, hslot, htask, okOr_some]
  rw [if_neg (by simp [hcurrent, hstate])]
  cases task.user with
  | none => rfl
  | some user =>
    simp only [bind_apply, mapErr, zoom]
    rcases destroy kernel.cpu.cr3 (user.address_space, kernel.memory) with
      ⟨_ | error | _, address_space, memory⟩
    · simp [Kernel.reaped, Scheduler.put]
    · rfl
    · rfl

/-- Reaping is refused without effect in every other case. -/
theorem reap_terminated_cases (destroy : Destroy M) (id : TaskId) (kernel : Kernel M) :
    (∃ error, reap_terminated destroy id kernel = (.err error, kernel)) ∨
    ∃ slot task, kernel.global_scheduler.position_of id = some slot ∧
      kernel.global_scheduler.tasks slot = some task ∧ task.state = .Terminated ∧
      kernel.global_scheduler.current ≠ some slot := by
  cases hslot : kernel.global_scheduler.position_of id with
  | none =>
    refine .inl ⟨.UnknownTask, ?_⟩
    simp [reap_terminated, hslot]
  | some slot =>
    obtain ⟨task, htask, _⟩ := Scheduler.position_of_some hslot
    by_cases hrefused : kernel.global_scheduler.current = some slot ∨ task.state ≠ .Terminated
    · refine .inl ⟨.InvalidState, ?_⟩
      simp only [reap_terminated, bind_apply, get_apply, hslot, htask, okOr_some]
      rw [if_pos hrefused]
      rfl
    · simp only [not_or, not_not] at hrefused
      exact .inr ⟨slot, task, rfl, htask, hrefused.2, hrefused.1⟩

/-- Reaping is refused without effect, frees the slot of a terminated task, or leaves the
task with what is left of it. -/
theorem reap_terminated_effect (destroy : Destroy M) (id : TaskId) (kernel : Kernel M) :
    (∃ error, reap_terminated destroy id kernel = (.err error, kernel)) ∨
    ∃ slot task, kernel.global_scheduler.position_of id = some slot ∧
      kernel.global_scheduler.tasks slot = some task ∧ task.state = .Terminated ∧
      ((∃ memory, reap_terminated destroy id kernel = (.ok (), kernel.reaped slot task memory)) ∨
        ∃ outcome user space memory, outcome ≠ .ok () ∧
          reap_terminated destroy id kernel = (outcome, kernel.torn slot task user space memory)) := by
  obtain hrefused | ⟨slot, task, hslot, htask, hstate, hcurrent⟩ := reap_terminated_cases destroy id kernel
  · exact .inl hrefused
  · refine .inr ⟨slot, task, hslot, htask, hstate, ?_⟩
    rw [reap_terminated_apply hslot htask hstate hcurrent]
    cases task.user with
    | none => exact .inl ⟨_, rfl⟩
    | some user =>
      dsimp only
      rcases destroy kernel.cpu.cr3 (user.address_space, kernel.memory) with ⟨_ | error | _, space, memory⟩
      · exact .inl ⟨memory, rfl⟩
      all_goals exact .inr ⟨_, user, space, memory, by rintro ⟨⟩, rfl⟩

end leafos.tasking.scheduler
