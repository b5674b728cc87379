import LeafOS.Arch.Syscall

namespace leafos.tasking.scheduler

open leafos.memory leafos.tasking.fd leafos.arch.syscall Prog

variable {M : Type}

/-- What can happen next on the processor, at the granularity of system calls. Each
event carries what code outside the tasking modules decides. -/
inductive Event (M : Type) where
  | fd_read (rdi rdx : Nat) (valid copied : Bool)
  | fd_write (rdi : Nat) (input : List UInt8) (valid stored : Bool)
  | pipe (valid : Bool)
  | close (rdi : Nat)
  | dup2 (rdi rsi : Nat)
  | wait (destroy : Destroy M) (rdi : Nat) (valid copied : Bool)
  | yield
  | sleep (now ticks : UInt64)
  | exit (exit_code : Option UInt64) (terminate_group : Bool)
  | re_enter (destroy : Destroy M) (stored copied : Bool)
  | spawn_user (destroy : Destroy M) (address_space : AddressSpace)
      (entry stack argument_count argument_vector : Nat)
      (kernel_stack : KernelStack) (fd_mappings : List FdMapping)
      (fd_closes : List Nat)
  | spawn (entry : KernelTaskEntry) (stack : KernelStack)
  | terminate_task (id : TaskId) (exit_code : UInt64)
  | reap_terminated (destroy : Destroy M) (id : TaskId)
  | wake_task (id : TaskId)
  | wake_all_blocked_tasks
  | preempt_from_timer (now : UInt64)
  | run_tasks (idle_entry : KernelTaskEntry) (stack : KernelStack)
  | leave_run_tasks
  | idle_task_entry (now : UInt64)

/-- The task that has the processor. -/
def Kernel.running (kernel : Kernel M) : Option Task :=
  kernel.global_scheduler.current.bind kernel.global_scheduler.tasks

/-- A system call of the task that has the processor. The idle task makes none. -/
def by_caller {α : Type} (call : KernelM M α) : KernelM M Unit := do
  let kernel ← get
  if kernel.running.any Task.is_idle then return () else discard call

/-- The selected task returns from the switch inside a call. -/
def return_from_switch : KernelM M Unit :=
  modify fun kernel =>
    match kernel.global_scheduler.current with
    | none => kernel
    | some current => { kernel with
      global_scheduler := kernel.global_scheduler.modify_task current fun task => { task with _stack := none } }

/-- The next turn of the call in which the current task gave up the processor. -/
def next_turn (call : BlockedCall) (destroy : Destroy M) (stored copied : Bool) : KernelM M Reply := do
  return_from_switch
  match call with
  | .fd_read fd length => fd_read_turn fd length copied
  | .fd_write fd input => fd_write_turn fd input stored
  | .wait_for_child child => wait_turn destroy child copied

/-- An event that does not continue an earlier call. -/
def Event.begin (event : Event M) : KernelM M Unit :=
  match event with
  | .fd_read rdi rdx valid copied => by_caller (sys_fd_read rdi rdx valid copied)
  | .fd_write rdi input valid stored => by_caller (sys_fd_write rdi input valid stored)
  | .pipe valid => by_caller (sys_pipe valid)
  | .close rdi => by_caller (sys_close rdi)
  | .dup2 rdi rsi => by_caller (sys_dup2 rdi rsi)
  | .wait destroy rdi valid copied => by_caller (sys_wait destroy rdi valid copied)
  | .yield => by_caller sys_yield
  | .sleep now ticks => by_caller (sys_sleep now ticks)
  | .exit exit_code terminate_group => by_caller (exit_current_with_status_and_group exit_code terminate_group)
  | .re_enter _ _ _ => return ()
  | .spawn_user destroy address_space entry stack argument_count argument_vector kernel_stack fd_mappings
      fd_closes =>
    discard (spawn_user_with_arguments_and_fds destroy address_space entry stack argument_count
      argument_vector kernel_stack fd_mappings fd_closes)
  | .spawn entry stack => discard (scheduler.spawn entry stack)
  | .terminate_task id exit_code => locked (Scheduler.terminate_task id exit_code)
  | .reap_terminated destroy id => scheduler.reap_terminated destroy id
  | .wake_task id => locked (Scheduler.wake id)
  | .wake_all_blocked_tasks => arch.syscall.wake_all_blocked_tasks
  | .preempt_from_timer now => scheduler.preempt_from_timer now
  | .run_tasks idle_entry stack => scheduler.run_tasks idle_entry stack
  | .leave_run_tasks => scheduler.leave_run_tasks
  | .idle_task_entry now => scheduler.idle_task_entry now

/-- A task that is selected inside a call continues it before anything else can happen,
since system calls run with interrupts off. -/
def Event.perform (event : Event M) : KernelM M Unit := do
  let kernel ← get
  match kernel.running.bind Task._stack, event with
  | none, event => event.begin
  | some call, .re_enter destroy stored copied => discard (next_turn call destroy stored copied)
  | some _, _ => return ()

/-- Let events happen in order, whatever they return, up to the first panic. -/
def interleave : List (Event M) → Kernel M → Kernel M
  | [], kernel => kernel
  | event :: rest, kernel =>
    match event.perform kernel with
    | (.panic, after) => after
    | (_, after) => interleave rest after

end leafos.tasking.scheduler
