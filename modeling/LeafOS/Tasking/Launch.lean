import LeafOS.Tasking.Kernel

namespace leafos.tasking.scheduler

open leafos.memory leafos.arch.user leafos.tasking.fd Prog

variable {M : Type}

/-- Destroy the address space that the caller still holds, if it holds one. What a
failed `destroy` leaves of it is dropped. -/
def destroy_unspawned_address_space (destroy : Destroy M) :
    Prog (Option AddressSpace × Kernel M) SchedulerError Unit := do
  let (address_space, kernel) ← get
  match address_space with
  | none => return ()
  | some address_space =>
    match destroy kernel.cpu.cr3 (address_space, kernel.memory) with
    | (.ok _, (_, memory)) => set (none, { kernel with memory })
    | (.err _, (_, memory)) => do
      set (none, { kernel with memory })
      throw .AddressSpaceCleanup
    | (.panic, (_, memory)) => do
      set (none, { kernel with memory })
      panic

/-- `scheduler.tasks.iter().filter(|slot| slot.is_none()).count()`. -/
def Scheduler.free_slots (self : Scheduler) : Nat :=
  (List.finRange MAX_TASKS).countP fun slot => (self.tasks slot).isNone

/-- One slot stays available for the idle task until it is installed. -/
def Scheduler.keeps_idle_slot (self : Scheduler) : Bool :=
  self.idle_index.isNone && self.free_slots ≤ 1

/-- `kernel_stack` is the outcome of `create_task_stack`. -/
def spawn_user_with_arguments_and_fds (destroy : Destroy M) (address_space : AddressSpace)
    (entry stack argument_count argument_vector : Nat)
    (kernel_stack : KernelStack) (fd_mappings : List FdMapping)
    (fd_closes : List Nat) : KernelM M TaskId :=
  zoom (fun kernel => (some address_space, kernel)) (fun state _ => state.2) do
    match UserContext.for_address_space_with_arguments address_space entry stack argument_count
        argument_vector with
    | .error error => do
      destroy_unspawned_address_space destroy
      throw (.InvalidUserContext error)
    | .ok _ => do
      let (_, kernel) ← get
      let parent := kernel.global_scheduler.current_task
      let result ← attempt (if kernel.global_scheduler.keeps_idle_slot then throw .Full
        else create_user_task parent kernel_stack fd_mappings fd_closes)
      match result with
      | .ok id => return id
      | .error error => do
        destroy_unspawned_address_space destroy
        throw error

/-- `spawn_into` on the global scheduler. -/
def spawn (entry : KernelTaskEntry) (stack : KernelStack) :
    KernelM M TaskId := do
  let kernel ← get
  if kernel.global_scheduler.keeps_idle_slot then
    throw .Full
  else
    locked (Scheduler.create_kernel_task entry kernel.global_scheduler.current_task stack)

/-- `run_tasks` up to the switch to the selected task. -/
def run_tasks (idle_entry : KernelTaskEntry) (stack : KernelStack) :
    KernelM M Unit := do
  locked (Scheduler.install_idle idle_entry stack)
  let _ ← locked Scheduler.start
  activate_selected

/-- `run_tasks` from the switch back to the bootstrap context on. -/
def leave_run_tasks : KernelM M Unit := locked Scheduler.remove_idle

/-- One turn of the loop of `idle_task_entry`: control goes back to the bootstrap
context, or to any task that has become runnable. -/
def idle_task_entry (now : UInt64) : KernelM M Unit := do
  locked (Scheduler.idle_to_bootstrap now)
  let kernel ← get
  match kernel.global_scheduler.current with
  | none => activate_task_address_space none
  | some _ => do
    let _ ← attempt yield_now
    return ()

end leafos.tasking.scheduler
