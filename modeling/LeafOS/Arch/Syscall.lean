import LeafOS.Tasking.Launch

namespace leafos.arch.syscall

open leafos.tasking.fd leafos.tasking.scheduler Prog

def MAX_SYSCALL_BUFFER : Nat := 4096
def MAX_SYSCALL_SLEEP_TICKS : UInt64 := 360000

def SYS_ERR_E2BIG : UInt64 := -7
def SYS_ERR_EIO : UInt64 := -5
def SYS_ERR_EPIPE : UInt64 := -32
def SYS_ERR_EAGAIN : UInt64 := -11
def SYS_ERR_EFAULT : UInt64 := -14
def SYS_ERR_EINVAL : UInt64 := -22
def SYS_ERR_ENOENT : UInt64 := -2

variable {M : Type}

/-- What a turn of a system call ends in: a value for `RAX`, or nothing when the
caller blocked and will take another turn once it is selected again. -/
abbrev Reply : Type := Option UInt64

def wake_all_blocked_tasks : KernelM M Unit := locked Scheduler.wake_all_blocked

/-- `block_now` inside a system call. -/
def block_in (call : BlockedCall) : KernelM M Reply := do
  match ← attempt (block_now call) with
  | .ok _ => return none
  | .error _ => return some SYS_ERR_EIO

/-- One turn of the loop of `sys_fd_read`. `copied` says whether `copy_to_current_user`
accepted the bytes. -/
def fd_read_turn (fd length : Nat) (copied : Bool) : KernelM M Reply := do
  match ← attempt (read_current_fd fd length) with
  | .ok bytes => do
    wake_all_blocked_tasks
    return some (if copied then .ofNat bytes.length else SYS_ERR_EFAULT)
  | .error .InvalidFd => return some SYS_ERR_EINVAL
  | .error .WouldBlock => if fd = STDIN then return some SYS_ERR_EAGAIN else block_in (.fd_read fd length)
  | .error .BrokenPipe => return some SYS_ERR_EPIPE
  | .error _ => return some SYS_ERR_EIO

/-- `valid` is the outcome of `validate_current_user_range`. -/
def sys_fd_read (rdi rdx : Nat) (valid copied : Bool) : KernelM M Reply :=
  if MAX_FDS ≤ rdi ∨ MAX_SYSCALL_BUFFER < rdx then return some SYS_ERR_EINVAL
  else if rdx = 0 then return some 0
  else if !valid then return some SYS_ERR_EFAULT
  else fd_read_turn rdi rdx copied

/-- One turn of the loop of `sys_fd_write`. -/
def fd_write_turn (fd : Nat) (input : List UInt8) (stored : Bool) : KernelM M Reply := do
  match ← attempt (write_current_fd fd input stored) with
  | .ok count => do
    wake_all_blocked_tasks
    return some (.ofNat count)
  | .error .InvalidFd => return some SYS_ERR_EINVAL
  | .error .WouldBlock => block_in (.fd_write fd input)
  | .error .BrokenPipe => return some SYS_ERR_EPIPE
  | .error _ => return some SYS_ERR_EIO

/-- The caller passes a buffer that holds `input`; `valid` is the outcome of
`copy_from_current_user`. -/
def sys_fd_write (rdi : Nat) (input : List UInt8) (valid stored : Bool) : KernelM M Reply :=
  if MAX_FDS ≤ rdi ∨ MAX_SYSCALL_BUFFER < input.length then return some SYS_ERR_EINVAL
  else if input.length = 0 then return some 0
  else if !valid then return some SYS_ERR_EFAULT
  else fd_write_turn rdi input stored

/-- `valid` is the outcome of the two range checks. -/
def sys_pipe (valid : Bool) : KernelM M Reply :=
  if !valid then return some SYS_ERR_EFAULT
  else do
    match ← attempt create_pipe_for_current with
    | .ok (read_fd, write_fd) => return some (UInt64.ofNat read_fd ||| UInt64.ofNat write_fd <<< 32)
    | .error _ => return some SYS_ERR_EIO

def sys_close (rdi : Nat) : KernelM M Reply :=
  if MAX_FDS ≤ rdi then return some SYS_ERR_EINVAL
  else do
    match ← attempt (close_current_fd rdi) with
    | .ok _ => do
      wake_all_blocked_tasks
      return some 0
    | .error .InvalidFd => return some SYS_ERR_EINVAL
    | .error _ => return some SYS_ERR_EIO

def sys_dup2 (rdi rsi : Nat) : KernelM M Reply :=
  if MAX_FDS ≤ rdi ∨ MAX_FDS ≤ rsi then return some SYS_ERR_EINVAL
  else do
    match ← attempt (duplicate_current_fd rdi rsi) with
    | .ok _ => return some (.ofNat rsi)
    | .error .InvalidFd => return some SYS_ERR_EINVAL
    | .error _ => return some SYS_ERR_EIO

def sys_yield : KernelM M Reply := do
  match ← attempt yield_now with
  | .ok _ => return some 0
  | .error .NoRunnableTasks => return some 0
  | .error _ => return some SYS_ERR_EIO

/-- `now` is the tick counter. -/
def sys_sleep (now ticks : UInt64) : KernelM M Reply :=
  if MAX_SYSCALL_SLEEP_TICKS < ticks then return some SYS_ERR_E2BIG
  else do
    match ← attempt (sleep_ticks now ticks) with
    | .ok _ => return some 0
    | .error _ => return some SYS_ERR_EIO

/-- One turn of the loop that `sys_wait` enters. `copied` says whether the status could
be copied out. -/
def wait_turn (destroy : Destroy M) (child : Option TaskId) (copied : Bool) : KernelM M Reply := do
  match ← attempt (wait_for_child destroy child) with
  | .ok none => return none
  | .ok (some (task, _)) => return some (if copied then .ofNat task else SYS_ERR_EFAULT)
  | .error .NoChild => return some SYS_ERR_ENOENT
  | .error .UnknownTask => return some SYS_ERR_ENOENT
  | .error .NotChild => return some SYS_ERR_EINVAL
  | .error .ChildRunning => return some SYS_ERR_EIO
  | .error _ => return some SYS_ERR_EIO

def sys_wait (destroy : Destroy M) (rdi : Nat) (valid copied : Bool) : KernelM M Reply :=
  if !valid then return some SYS_ERR_EFAULT
  else wait_turn destroy (if rdi = 0 then none else some rdi) copied

end leafos.arch.syscall
