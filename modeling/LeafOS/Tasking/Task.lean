import LeafOS.Arch.User
import LeafOS.Support.Prog
import LeafOS.Tasking.Fd

namespace leafos.tasking.scheduler

open leafos.memory leafos.tasking.fd

def MAX_TASKS : Nat := 16

instance : NeZero MAX_TASKS := ⟨by decide⟩

abbrev TaskId : Type := Nat
abbrev Slot : Type := Fin MAX_TASKS
abbrev KernelTaskEntry : Type := Nat

inductive TaskState where
  | Ready
  | Running
  | Blocked
  | Sleeping
  | Terminated
deriving Repr, DecidableEq

structure FdMapping where
  source : Nat
  target : Nat
deriving Repr, DecidableEq

structure CpuContext where
  stack_pointer : Nat
  rbx : Nat
  rbp : Nat
  r12 : Nat
  r13 : Nat
  r14 : Nat
  r15 : Nat
  rflags : Nat
deriving Repr, DecidableEq

def CpuContext.empty : CpuContext := ⟨0, 0, 0, 0, 0, 0, 0, 0⟩

structure UserTask where
  address_space : AddressSpace
  syscall_user_rsp : Nat
deriving Repr, DecidableEq

/-- The call in which a task gave up the processor and which it re-enters when
it is selected again. In the kernel this is the content of its saved stack. -/
inductive BlockedCall where
  | fd_read (fd length : Nat)
  | fd_write (fd : Nat) (input : List UInt8)
  | wait_for_child (child : Option TaskId)
deriving Repr, DecidableEq

structure Task where
  id : TaskId
  parent : Option TaskId
  state : TaskState
  exit_code : Option UInt64
  context : CpuContext
  entry : Option KernelTaskEntry
  user : Option UserTask
  _stack : Option BlockedCall
  stack_top : Option Nat
  wake_at : Option UInt64
  is_idle : Bool
  fds : FdTable

inductive SchedulerError where
  | Full
  | AlreadyStarted
  | NotStarted
  | NoRunnableTasks
  | UnknownTask
  | InvalidState
  | InvalidContext
  | InvalidUserContext (error : arch.user.UserContextError)
  | AddressSpaceCleanup
  | TaskIdExhausted
  | InvalidFd
  | WouldBlock
  | BrokenPipe
  | Io
  | NoChild
  | ChildRunning
  | NotChild
deriving Repr, DecidableEq

/-- The outcome of preparing a kernel stack: the context on it and its top. -/
abbrev KernelStack : Type := Except SchedulerError (CpuContext × Nat)

structure Scheduler where
  tasks : Slot → Option Task
  current : Option Slot
  next_id : Nat
  idle_index : Option Slot

def Scheduler.new : Scheduler where
  tasks := fun _ => none
  current := none
  next_id := 1
  idle_index := none

/-- The first slot, in index order, whose content satisfies the test. -/
def Scheduler.position (self : Scheduler) (test : Option Task → Bool) : Option Slot :=
  (List.finRange MAX_TASKS).find? fun slot => test (self.tasks slot)

def Scheduler.position_of (self : Scheduler) (id : TaskId) : Option Slot :=
  self.position fun task => task.any fun task => task.id == id

/-- The first task, in slot order, with the given id. -/
def Scheduler.task (self : Scheduler) (id : TaskId) : Option Task :=
  (self.position_of id).bind self.tasks

/-- Replace the content of one slot. -/
def Scheduler.put (self : Scheduler) (slot : Slot) (task : Option Task) : Scheduler :=
  { self with tasks := Function.update self.tasks slot task }

/-- Apply a change to the task in one slot, if there is one. -/
def Scheduler.modify_task (self : Scheduler) (slot : Slot) (update : Task → Task) : Scheduler :=
  self.put slot ((self.tasks slot).map update)

/-- Apply a change to every task of the table. -/
def Scheduler.map_tasks (self : Scheduler) (update : Slot → Task → Task) : Scheduler :=
  { self with tasks := fun slot => (self.tasks slot).map (update slot) }

/-- `checked_add` on `u64`. -/
def checked_add_u64 (left right : Nat) : Option Nat :=
  if left + right < 2 ^ 64 then some (left + right) else none

end leafos.tasking.scheduler
