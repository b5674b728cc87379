import LeafOS.Tasking.Scheduler

namespace leafos.tasking.scheduler

open leafos.memory leafos.tasking.fd Prog

/-- The per-processor state that task switches rewrite: the active page-table
root, the saved user stack pointer and the stack used on syscall entry. -/
structure Cpu where
  cr3 : PhysFrame
  user_rsp : Nat
  kernel_rsp : Nat
deriving Repr, DecidableEq

/-- What the tasking code works on: the global scheduler, the objects behind
descriptors, the memory manager and the processor. -/
structure Kernel (M : Type) where
  global_scheduler : Scheduler
  objects : Objects
  memory : M
  cpu : Cpu
  kernel_root : PhysFrame

abbrev KernelM (M : Type) : Type → Type := Prog (Kernel M) SchedulerError

/-- `AddressSpace::destroy`, given the active page-table root. -/
abbrev Destroy (M : Type) : Type := PhysFrame → Prog (AddressSpace × M) AddressSpaceError Unit

variable {M : Type}

/-- The kernel before anything was spawned. -/
def Kernel.fresh (objects : Objects) (memory : M) (cpu : Cpu) (kernel_root : PhysFrame) : Kernel M :=
  { global_scheduler := Scheduler.new, objects, memory, cpu, kernel_root }

/-- Run a method of the global scheduler under its lock. -/
def locked {α : Type} (method : SchedulerM α) : KernelM M α :=
  zoom Kernel.global_scheduler (fun global_scheduler kernel => { kernel with global_scheduler }) method

section Descriptors

/-- The first loop of `create_user_task` over the child's private table. -/
def map_descriptors : List FdMapping → Prog (FdTable × Objects) SchedulerError Unit
  | [] => return ()
  | mapping :: rest => do
    if bounds : mapping.source < MAX_FDS ∧ mapping.target < MAX_FDS then
      let source : Fin MAX_FDS := ⟨mapping.source, bounds.1⟩
      let target : Fin MAX_FDS := ⟨mapping.target, bounds.2⟩
      let (fds, objects) ← get
      let descriptor ← okOr (fds source) .InvalidFd
      let objects := close_slot (fds target) (descriptor.clone objects)
      set (Function.update fds target (some descriptor), objects)
      map_descriptors rest
    else
      throw .InvalidFd

/-- `fds[index].take()` followed by `close`. -/
def take_and_close (index : Fin MAX_FDS) : Prog (FdTable × Objects) SchedulerError Unit :=
  modify fun (fds, objects) => (Function.update fds index none, close_slot (fds index) objects)

/-- The second loop: a moved descriptor leaves its source slot. -/
def close_sources : List FdMapping → Prog (FdTable × Objects) SchedulerError Unit
  | [] => return ()
  | mapping :: rest => do
    if mapping.source ≠ mapping.target then
      if bound : mapping.source < MAX_FDS then
        take_and_close ⟨mapping.source, bound⟩
      else
        panic
    close_sources rest

/-- The third loop: the requested closes. -/
def close_requested : List Nat → Prog (FdTable × Objects) SchedulerError Unit
  | [] => return ()
  | fd_number :: rest => do
    if bound : fd_number < MAX_FDS then
      take_and_close ⟨fd_number, bound⟩
      close_requested rest
    else
      throw .InvalidFd

def rearrange_descriptors (fd_mappings : List FdMapping) (fd_closes : List Nat) :
    Prog (FdTable × Objects) SchedulerError Unit := do
  map_descriptors fd_mappings
  close_sources fd_mappings
  close_requested fd_closes

/-- The table that a child starts from: a clone of the parent's, or the initial one. -/
def inherited_table (parent : Option TaskId) (kernel : Kernel M) : FdTable × Objects :=
  match parent.bind kernel.global_scheduler.task with
  | some task => (task.fds, clone_table task.fds kernel.objects)
  | none => (initial_table, kernel.objects)

/-- The child's table: the inherited one, rearranged. An error drops the private
table again. -/
def child_table (parent : Option TaskId) (fd_mappings : List FdMapping) (fd_closes : List Nat) :
    KernelM M FdTable := do
  let kernel ← get
  match rearrange_descriptors fd_mappings fd_closes (inherited_table parent kernel) with
  | (.ok _, (fds, objects)) => do
    set { kernel with objects }
    return fds
  | (.err error, (fds, objects)) => do
    set { kernel with objects := drop_table fds objects }
    throw error
  | (.panic, _) => panic

end Descriptors

/-- `create_user_task`. The caller's `Option<AddressSpace>` is part of the state:
the address space is taken out once nothing but the descriptors can fail. -/
def create_user_task (parent : Option TaskId) (stack : KernelStack)
    (fd_mappings : List FdMapping) (fd_closes : List Nat) :
    Prog (Option AddressSpace × Kernel M) SchedulerError TaskId := do
  let (address_space, kernel) ← get
  let _ ← okOr (kernel.global_scheduler.position Option.isNone) .Full
  let next_id ← okOr (checked_add_u64 kernel.global_scheduler.next_id 1) .TaskIdExhausted
  match stack with
  | .error error => throw error
  | .ok (context, stack_top) => do
    let address_space ← okOr address_space .InvalidContext
    modify fun (_, kernel) => (none, kernel)
    let fds ← zoom Prod.snd (fun kernel state => (state.1, kernel))
      (child_table parent fd_mappings fd_closes)
    let slot ← expect (kernel.global_scheduler.position Option.isNone)
    modify fun (left, kernel) => (left, { kernel with
      global_scheduler := { kernel.global_scheduler with next_id }.put slot (some {
        id := kernel.global_scheduler.next_id
        parent
        state := .Ready
        exit_code := none
        context
        entry := none
        user := some { address_space, syscall_user_rsp := 0 }
        _stack := none
        stack_top := some stack_top
        wake_at := none
        is_idle := false
        fds }) })
    return kernel.global_scheduler.next_id

/-- Free the slot of a terminated task that is not current. Its descriptors are
dropped with it; a failed `destroy` leaves the task in place with what is left
of its address space. -/
def reap_terminated (destroy : Destroy M) (id : TaskId) : KernelM M Unit := do
  let kernel ← get
  let index ← okOr (kernel.global_scheduler.position_of id) .UnknownTask
  let task ← okOr (kernel.global_scheduler.tasks index) .InvalidState
  if kernel.global_scheduler.current = some index ∨ task.state ≠ .Terminated then
    throw .InvalidState
  else
    match task.user with
    | some user =>
      mapErr (fun _ => .AddressSpaceCleanup) (zoom
        (fun kernel => (user.address_space, kernel.memory))
        (fun (address_space, memory) kernel => { kernel with
          memory
          global_scheduler := kernel.global_scheduler.put index
            (some { task with user := some { user with address_space } }) })
        (destroy kernel.cpu.cr3))
    | none => pure ()
    modify fun kernel => { kernel with
      global_scheduler := kernel.global_scheduler.put index none
      objects := drop_table task.fds kernel.objects }

def task_state (id : TaskId) : KernelM M TaskState := do
  let kernel ← get
  let task ← okOr (kernel.global_scheduler.task id) .UnknownTask
  return task.state

def task_exit_code (id : TaskId) : KernelM M (Option UInt64) := do
  let kernel ← get
  let task ← okOr (kernel.global_scheduler.task id) .UnknownTask
  return task.exit_code

def save_current_user_rsp (current : Slot) : KernelM M Unit :=
  modify fun kernel => { kernel with
    global_scheduler := kernel.global_scheduler.modify_task current fun task =>
      { task with user := task.user.map fun user =>
        { user with syscall_user_rsp := kernel.cpu.user_rsp } } }

def activate_task_address_space (index : Option Slot) : KernelM M Unit := do
  let kernel ← get
  match index with
  | none => set { kernel with cpu.cr3 := kernel.kernel_root }
  | some index =>
    let task ← expect (kernel.global_scheduler.tasks index)
    match task.user with
    | some user =>
      let stack_top ← expect task.stack_top
      let root ← expect user.address_space.root
      set { kernel with cpu := {
        cr3 := root
        user_rsp := user.syscall_user_rsp
        kernel_rsp := stack_top / 16 * 16 } }
    | none => set { kernel with cpu.cr3 := kernel.kernel_root }

/-- Activate whatever the scheduler selected, or the bootstrap context. -/
def activate_selected : KernelM M Unit := do
  let kernel ← get
  activate_task_address_space kernel.global_scheduler.current

def yield_now : KernelM M Unit := do
  let kernel ← get
  let current ← okOr kernel.global_scheduler.current .NotStarted
  save_current_user_rsp current
  let _ ← locked (Scheduler.transition_current .Ready)
  activate_selected

def preempt_from_timer (now : UInt64) : KernelM M Unit := do
  let kernel ← get
  match kernel.global_scheduler.current with
  | none => return ()
  | some current =>
    locked (Scheduler.wake_expired_sleepers now)
    match ← attempt (locked (Scheduler.transition_current .Ready)) with
    | .ok _ => pure ()
    | .error .NoRunnableTasks => pure ()
    | .error _ => panic
    let kernel ← get
    match kernel.global_scheduler.current with
    | none => return ()
    | some next => if next = current then return () else activate_selected

/-- Take the current task off the processor with a method of the scheduler; finding no
other task to run is no error. -/
def leave_processor (method : SchedulerM TaskId) : KernelM M Unit := do
  match ← attempt (locked method) with
  | .ok _ => return ()
  | .error .NoRunnableTasks => return ()
  | .error error => throw error

/-- Block the current task inside the given call. -/
def block_now (call : BlockedCall) : KernelM M Unit := do
  let kernel ← get
  let current ← okOr kernel.global_scheduler.current .NotStarted
  save_current_user_rsp current
  leave_processor (Scheduler.transition_current .Blocked)
  modify fun kernel => { kernel with
    global_scheduler := kernel.global_scheduler.modify_task current fun task => { task with _stack := some call } }
  activate_selected

def sleep_ticks (now duration : UInt64) : KernelM M Unit := do
  if duration = 0 then
    return ()
  else
    let kernel ← get
    let current ← okOr kernel.global_scheduler.current .NotStarted
    save_current_user_rsp current
    leave_processor (Scheduler.sleep_current_until (now + duration))
    activate_selected

def exit_current_with_status_and_group (exit_code : Option UInt64) (terminate_group : Bool) :
    KernelM M Unit := do
  let kernel ← get
  let current ← expect kernel.global_scheduler.current
  save_current_user_rsp current
  locked (Scheduler.exit_current_with_status_and_group exit_code terminate_group)
  activate_selected

/-- The first check of `wait_for_child`: a child that is named must be one. -/
def check_child (parent : TaskId) (child : Option TaskId) : KernelM M Unit := do
  let kernel ← get
  match child with
  | none => return ()
  | some child_id =>
    let child_task ← okOr (kernel.global_scheduler.task child_id) .UnknownTask
    if child_task.parent ≠ some parent then throw .NotChild else return ()

/-- The caller of `wait_for_child` blocks until a child wakes it. -/
def block_in_wait (current : Slot) (child : Option TaskId) : KernelM M Unit := do
  save_current_user_rsp current
  let _ ← locked (Scheduler.transition_current .Blocked)
  modify fun kernel => { kernel with
    global_scheduler := kernel.global_scheduler.modify_task current fun task =>
      { task with _stack := some (.wait_for_child child) } }
  activate_selected

/-- One turn of the loop of `wait_for_child`: a result, or `none` when the caller
blocked and will take another turn once it is selected again. -/
def wait_for_child (destroy : Destroy M) (child : Option TaskId) :
    KernelM M (Option (TaskId × Option UInt64)) := do
  let kernel ← get
  let current ← okOr kernel.global_scheduler.current .NotStarted
  let task ← okOr (kernel.global_scheduler.tasks current) .UnknownTask
  let parent := task.id
  check_child parent child
  match ← attempt (locked (Scheduler.terminated_child parent child)) with
  | .ok child_id =>
    let child_task ← okOr (kernel.global_scheduler.task child_id) .UnknownTask
    reap_terminated destroy child_id
    return some (child_id, child_task.exit_code)
  | .error .ChildRunning =>
    block_in_wait current child
    return none
  | .error error => throw error

def find_free_fd_pair (fds : FdTable) : Option (Fin MAX_FDS × Fin MAX_FDS) :=
  match (List.finRange MAX_FDS).filter fun index => (fds index).isNone with
  | first :: second :: _ => some (first, second)
  | _ => none

/-- The running task's slot and record, as the descriptor calls look them up. -/
def current_record (missing : SchedulerError) : KernelM M (Slot × Task) := do
  let kernel ← get
  let current ← okOr kernel.global_scheduler.current .NotStarted
  let task ← okOr (kernel.global_scheduler.tasks current) missing
  return (current, task)

/-- Replace the descriptor table of the task in a slot. -/
def put_table (slot : Slot) (fds : FdTable) : KernelM M Unit :=
  modify fun kernel => { kernel with
    global_scheduler := kernel.global_scheduler.modify_task slot fun task => { task with fds } }

def change_objects (update : Objects → Objects) : KernelM M Unit :=
  modify fun kernel => { kernel with objects := update kernel.objects }

/-- `create_pipe_for_current`. On an error the two new ends are dropped. -/
def create_pipe_for_current : KernelM M (Nat × Nat) := do
  let kernel ← get
  let ((read_end, write_end), objects) := create_pipe kernel.objects
  set { kernel with objects }
  match ← attempt (current_record .UnknownTask) with
  | .error error =>
    change_objects fun objects => close write_end (close read_end objects)
    throw error
  | .ok (current, task) =>
    match find_free_fd_pair task.fds with
    | none =>
      change_objects fun objects => close write_end (close read_end objects)
      throw .Full
    | some (read_fd, write_fd) =>
      put_table current (Function.update (Function.update task.fds read_fd (some read_end))
        write_fd (some write_end))
      return (read_fd, write_fd)

/-- `fds.get(fd_number)`. -/
def descriptor_at (fds : FdTable) (fd_number : Nat) : Option FileDescriptor :=
  if bound : fd_number < MAX_FDS then fds ⟨fd_number, bound⟩ else none

/-- The table with one slot, named by number, replaced. -/
def with_descriptor (fds : FdTable) (fd_number : Nat) (slot : Option FileDescriptor) : FdTable :=
  fun index => if index.val = fd_number then slot else fds index

def close_current_fd (fd_number : Nat) : KernelM M Unit := do
  let (current, task) ← current_record .InvalidFd
  let descriptor ← okOr (descriptor_at task.fds fd_number) .InvalidFd
  put_table current (with_descriptor task.fds fd_number none)
  change_objects (close descriptor)
  locked Scheduler.wake_all_blocked

def find_free_fd (fds : FdTable) : Option (Fin MAX_FDS) :=
  (List.finRange MAX_FDS).find? fun index => (fds index).isNone

/-- What `create_file_read_for_current` and `create_file_write_for_current` share. -/
def create_file_for_current (create : Objects → Option (FileDescriptor × Objects)) : KernelM M Nat := do
  let (_, task) ← current_record .UnknownTask
  let file_fd ← okOr (find_free_fd task.fds) .Full
  let kernel ← get
  let (descriptor, objects) ← okOr (create kernel.objects) .Io
  set { kernel with objects }
  let (current, task) ← current_record .UnknownTask
  if (task.fds file_fd).isSome then
    change_objects (close descriptor)
    throw .Full
  else
    put_table current (Function.update task.fds file_fd (some descriptor))
    return file_fd

def create_file_write_for_current (path : List UInt8) (written : Bool) : KernelM M Nat :=
  create_file_for_current (create_file_write path written)

def create_file_read_for_current (contents : Option (List UInt8)) : KernelM M Nat :=
  create_file_for_current (create_file_read contents)

def duplicate_current_fd (source_fd target_fd : Nat) : KernelM M Unit := do
  if MAX_FDS ≤ source_fd ∨ MAX_FDS ≤ target_fd then
    throw .InvalidFd
  else
    let (current, task) ← current_record .InvalidFd
    let descriptor ← okOr (descriptor_at task.fds source_fd) .InvalidFd
    if source_fd = target_fd then
      return ()
    else
      change_objects descriptor.clone
      change_objects (close_slot (descriptor_at task.fds target_fd))
      put_table current (with_descriptor task.fds target_fd (some descriptor))

/-- A transfer on a descriptor of the current task, with its error converted. -/
def transfer_current_fd {ε α : Type} (fd_number : Nat) (transfer : FileDescriptor → Objects → Except ε α × Objects)
    (convert : ε → SchedulerError) : KernelM M α := do
  let (_, task) ← current_record .NotStarted
  let descriptor ← okOr (descriptor_at task.fds fd_number) .InvalidFd
  let kernel ← get
  let (result, objects) := transfer descriptor kernel.objects
  set { kernel with objects }
  match result with
  | .ok value => return value
  | .error error => throw (convert error)

def read_current_fd (fd_number capacity : Nat) : KernelM M (List UInt8) :=
  transfer_current_fd fd_number (fd.read · capacity) fun
    | .Invalid => .InvalidFd
    | .WouldBlock => .WouldBlock
    | .Io => .Io

def write_current_fd (fd_number : Nat) (input : List UInt8) (stored : Bool) : KernelM M Nat :=
  transfer_current_fd fd_number (fd.write · input stored) fun
    | .Invalid => .InvalidFd
    | .WouldBlock => .WouldBlock
    | .BrokenPipe => .BrokenPipe
    | .Io => .Io

end leafos.tasking.scheduler
