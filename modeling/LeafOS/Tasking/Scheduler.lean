import LeafOS.Tasking.Task

namespace leafos.tasking.scheduler

open leafos.memory leafos.tasking.fd Prog

/-- Methods of `Scheduler`. -/
abbrev SchedulerM : Type → Type := Prog Scheduler SchedulerError

namespace Scheduler

def check_task_capacity : SchedulerM Slot := do
  let self ← get
  okOr (self.position Option.isNone) .Full

def insert_task (context : CpuContext) (parent : Option TaskId) (entry : Option KernelTaskEntry)
    (user : Option UserTask) (stack_top : Option Nat) : SchedulerM TaskId := do
  let slot ← check_task_capacity
  let self ← get
  let id := self.next_id
  let next_id ← okOr (checked_add_u64 self.next_id 1) .TaskIdExhausted
  modify fun self => { self with next_id }
  modify fun self => self.put slot (some {
    id, parent
    state := .Ready
    exit_code := none
    context, entry, user
    _stack := none
    stack_top
    wake_at := none
    is_idle := false
    fds := initial_table })
  return id

def create_task (context : CpuContext) : SchedulerM TaskId :=
  insert_task context none none none none

/-- `stack` is the outcome of `create_task_stack`: the initial context and the
aligned top of the new kernel stack, or an error. -/
def create_kernel_task (entry : KernelTaskEntry) (parent : Option TaskId)
    (stack : KernelStack) : SchedulerM TaskId := do
  let _ ← check_task_capacity
  let self ← get
  let _ ← okOr (checked_add_u64 self.next_id 1) .TaskIdExhausted
  match stack with
  | .error error => throw error
  | .ok (context, stack_top) => insert_task context parent (some entry) none (some stack_top)

/-- The slots visited by one pass of `select_next`, in order. -/
def scan (start : Slot) : List Slot :=
  (List.finRange MAX_TASKS).map fun offset => start + offset

/-- The test of one pass: ordinary tasks first, the idle task as a fallback. -/
def selectable (pass : Nat) (task : Option Task) : Bool :=
  task.any fun task =>
    task.state == .Ready && ((pass == 0 && !task.is_idle) || (pass == 1 && task.is_idle))

def select_next (start : Slot) : SchedulerM TaskId := do
  modify fun self => { self with current := none }
  let self ← get
  let found := ((scan start).find? fun slot => selectable 0 (self.tasks slot)).or
    ((scan start).find? fun slot => selectable 1 (self.tasks slot))
  let index ← okOr found .NoRunnableTasks
  let task ← okOr (self.tasks index) .NoRunnableTasks
  modify fun self => self.put index (some { task with state := .Running })
  modify fun self => { self with current := some index }
  return task.id

def start : SchedulerM TaskId := do
  let self ← get
  if self.current.isSome then
    throw .AlreadyStarted
  else
    select_next 0

def task_mut (index : Slot) : SchedulerM Task := do
  let self ← get
  okOr (self.tasks index) .UnknownTask

def transition_current (next_state : TaskState) : SchedulerM TaskId := do
  let self ← get
  let current ← okOr self.current .NotStarted
  let task ← task_mut current
  if task.state ≠ .Running then
    throw .InvalidState
  else if task.is_idle ∧ next_state ≠ .Ready then
    throw .InvalidState
  else
    let wake_at := if next_state ≠ .Sleeping then none else task.wake_at
    modify fun self => self.put current (some { task with state := next_state, wake_at })
    modify fun self => { self with current := none }
    select_next (current + 1)

/-- Mark the running task ready and select the next ready task. -/
def yield_current : SchedulerM TaskId := transition_current .Ready

/-- Block the running task and select another ready task. With `NoRunnableTasks`
the task stays blocked and nothing is current. -/
def block_current : SchedulerM TaskId := transition_current .Blocked

/-- Terminate the running task and select another ready task. -/
def terminate_current : SchedulerM TaskId := transition_current .Terminated

def sleep_current_until (deadline : UInt64) : SchedulerM TaskId := do
  let self ← get
  let current ← okOr self.current .NotStarted
  let task ← task_mut current
  if task.state ≠ .Running ∨ task.is_idle then
    throw .InvalidState
  else
    modify fun self => self.put current (some { task with state := .Sleeping, wake_at := some deadline })
    modify fun self => { self with current := none }
    select_next (current + 1)

/-- The half-range test on the wrapping tick counter. -/
def expired (now : UInt64) (wake_at : Option UInt64) : Bool :=
  wake_at.any fun deadline => now - deadline < 2 ^ 63

def wake_expired_sleepers (now : UInt64) : SchedulerM Unit :=
  modify fun self => self.map_tasks fun _ task =>
    if task.state = .Sleeping ∧ expired now task.wake_at then
      { task with state := .Ready, wake_at := none }
    else
      task

def has_live_non_idle_tasks (self : Scheduler) : Bool :=
  (self.position fun task => task.any fun task =>
    !task.is_idle && task.state != .Terminated).isSome

def wake (id : TaskId) : SchedulerM Unit := do
  let self ← get
  let index ← okOr (self.position_of id) .UnknownTask
  let task ← okOr (self.tasks index) .UnknownTask
  if task.state ≠ .Blocked then
    throw .InvalidState
  else
    modify fun self => self.put index (some { task with state := .Ready })

/-- Make the parent of the task in a slot ready, if it is blocked. -/
def wake_parent (child_index : Slot) : SchedulerM Unit :=
  modify fun self =>
    match (self.tasks child_index).bind Task.parent with
    | none => self
    | some parent =>
      match self.position_of parent with
      | none => self
      | some index => self.modify_task index fun task =>
        if task.state = .Blocked then { task with state := .Ready } else task

def terminate_task (id : TaskId) (exit_code : UInt64) : SchedulerM Unit := do
  let self ← get
  let index ← okOr (self.position_of id) .UnknownTask
  if self.current = some index then
    throw .InvalidState
  else
    let task ← okOr (self.tasks index) .UnknownTask
    if task.is_idle ∨ task.state = .Terminated then
      throw .InvalidState
    else
      modify fun self => self.put index
        (some { task with exit_code := some exit_code, state := .Terminated })
      wake_parent index

def wake_all_blocked : SchedulerM Unit :=
  modify fun self => self.map_tasks fun _ task =>
    if task.state = .Blocked then { task with state := .Ready } else task

def current_task (self : Scheduler) : Option TaskId :=
  (self.current.bind self.tasks).map Task.id

/-- The children of a task, in slot order, restricted to one id if it is given. -/
def matching (parent : TaskId) (child : Option TaskId) (task : Option Task) : Bool :=
  task.any fun task => task.parent == some parent && child.all fun id => task.id == id

def terminated_child (parent : TaskId) (child : Option TaskId) : SchedulerM TaskId := do
  let self ← get
  let found := self.position fun task =>
    matching parent child task && task.any fun task => task.state == .Terminated
  match found.bind self.tasks with
  | some task => return task.id
  | none =>
    if (self.position (matching parent child)).isSome then
      throw .ChildRunning
    else
      throw (if child.isSome then .UnknownTask else .NoChild)

/-- The bookkeeping of the group branch of `exit_current_with_status_and_group`:
every live sibling of the task in `current` is terminated in place. -/
def terminate_siblings (current : Slot) (exit_code : Option UInt64) : SchedulerM Unit :=
  modify fun self =>
    match (self.tasks current).bind Task.parent with
    | none => self
    | some parent => self.map_tasks fun index task =>
      if index ≠ current ∧ task.parent = some parent ∧ task.state ≠ .Terminated then
        { task with exit_code, state := .Terminated }
      else
        task

/-- The end of `exit_current_with_status_and_group`: the task in `current` records its
exit code, wakes its parent and gives up the processor. -/
def finish_exit (current : Slot) (exit_code : Option UInt64) : SchedulerM Unit := do
  let self ← get
  let task ← expect (self.tasks current)
  modify fun self => self.put current (some { task with exit_code })
  wake_parent current
  match ← attempt (transition_current .Terminated) with
  | .ok _ => return ()
  | .error .NoRunnableTasks => return ()
  | .error _ => panic

/-- The scheduler part of `exit_current_with_status_and_group`. -/
def exit_current_with_status_and_group (exit_code : Option UInt64) (terminate_group : Bool) :
    SchedulerM Unit := do
  let self ← get
  let current ← expect self.current
  if terminate_group then
    terminate_siblings current exit_code
  finish_exit current exit_code

/-- The installation of the idle task at the start of `run_tasks`. -/
def install_idle (entry : KernelTaskEntry) (stack : KernelStack) :
    SchedulerM Unit := do
  let self ← get
  if self.idle_index.isNone then
    let id ← create_kernel_task entry none stack
    let self ← get
    let index ← okOr (self.position_of id) .UnknownTask
    let task ← okOr (self.tasks index) .UnknownTask
    modify fun self => self.put index (some { task with is_idle := true })
    modify fun self => { self with idle_index := some index }

/-- The removal of the idle task when `run_tasks` is resumed. -/
def remove_idle : SchedulerM Unit :=
  modify fun self =>
    match self.idle_index with
    | some index =>
      if self.current.isNone ∧
          (self.tasks index).any fun task => task.is_idle && task.state == .Ready then
        { self.put index none with idle_index := none }
      else
        self
    | none => self

/-- The branch of `idle_task_entry` that hands control back to the bootstrap
context once no other task is alive. -/
def idle_to_bootstrap (now : UInt64) : SchedulerM Unit := do
  wake_expired_sleepers now
  let self ← get
  if !self.has_live_non_idle_tasks then
    let current ← expect self.current
    let idle ← expect (self.tasks current)
    assert idle.is_idle
    modify fun self => self.put current (some { idle with state := .Ready })
    modify fun self => { self with current := none }

end Scheduler

end leafos.tasking.scheduler
