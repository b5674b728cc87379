import LeafOS.Fs.Initrd
import LeafOS.Fs.Ext2
import LeafOS.Shell.Words
import LeafOS.Tasking.Launch

namespace leafos.shell

open leafos.fs leafos.user_program leafos.tasking.fd leafos.tasking.scheduler Prog

structure RunningApp where
  task : TaskId
  path : List UInt8
deriving Repr, DecidableEq

abbrev RunningApps : Type := Fin MAX_TASKS → Option RunningApp

/-- What the shell's functions work on: the kernel, and the applications that the shell keeps track of. -/
structure Shell (M : Type) where
  kernel : Kernel M
  running_apps : RunningApps

/-- `ProgramError`, as launching a program returns it. -/
inductive LaunchError where
  | InvalidExtension
  | FileNotFound
  | FileSystem (error : FsError)
  | Ext2 (error : ext2.Ext2Error)
  | Image (error : ProgramError)
  | Scheduler (error : SchedulerError)
deriving Repr, DecidableEq

/-- The line that a command ends with. -/
inductive Report where
  | tracking_full
  | usage
  | refused (error : InvocationError)
  | input_not_opened
  | output_not_opened
  | started (path : List UInt8) (task : TaskId)
  | not_started (error : LaunchError)
  | no_separator
  | pipeline_usage
  | missing_side
  | needs_two_slots
  | pipe_not_created (error : SchedulerError)
  /-- The line does not show what has become of the right side. -/
  | left_not_started (right : Option TaskId)
  | right_not_started (left : TaskId)
  | pipeline_started (left right : TaskId)
deriving Repr, DecidableEq

/-- A command of the shell. A `return` in the middle of its body is an error that carries
the line printed before it. -/
abbrev ShellM (M : Type) : Type → Type := Prog (Shell M) Report

/-- What is decided outside the shell while a program is started: how loading goes, whether there
is memory for a kernel stack, and how the program is torn down if it cannot be spawned. -/
structure Start (M : Type) where
  load : (use_ext2 : Bool) → (path : List UInt8) → (arguments : List (List UInt8)) → Prog M LaunchError LoadedProgram
  kernel_stack : KernelStack
  destroy : Destroy M

/-- What is decided outside the shell while a command runs: what `read_file_vec` finds, whether
`write_file` succeeds, and how the programs of both sides are started. -/
structure Outside (M : Type) where
  read_file : List UInt8 → Option (List UInt8)
  write_file : List UInt8 → Bool
  left : Start M
  right : Start M

variable {M : Type}

/-- Call the kernel and look at the `Result`. -/
def call {α : Type} (method : KernelM M α) : ShellM M (Except SchedulerError α) :=
  zoom Shell.kernel (fun kernel shell => { shell with kernel }) (attempt method)

/-- Open what a redirection names. Only whether that worked is looked at. -/
def open_redirection (current_dir : List UInt8) (create : List UInt8 → KernelM M Nat) (path : Option (List UInt8)) :
    ShellM M (Option Nat) := do
  match path.bind (resolve_text current_dir) with
  | none => return none
  | some path => return (← call (create path)).toOption

def open_input (outside : Outside M) (current_dir : List UInt8) (input_path : Option (List UInt8)) :
    ShellM M (Option Nat) :=
  open_redirection current_dir (fun path => create_file_read_for_current (outside.read_file path)) input_path

def open_output (outside : Outside M) (current_dir : List UInt8) (output_path : Option (List UInt8)) :
    ShellM M (Option Nat) :=
  open_redirection current_dir (fun path => create_file_write_for_current path (outside.write_file path)) output_path

/-- `let _ = close_current_fd(fd)` for each of the descriptors. -/
def close_fds : List Nat → ShellM M Unit
  | [] => return ()
  | fd :: rest => do
    let _ ← call (close_current_fd fd)
    close_fds rest

/-- `if condition { gop_println!(..); return; }`, with the descriptors that are closed on the way out. -/
def give_up_if (condition : Bool) (fds : List Nat) (report : Report) : ShellM M Unit :=
  if condition then do
    close_fds fds
    throw report
  else
    pure ()

/-- Load a program and spawn it. -/
def start_program (start : Start M) (use_ext2 : Bool) (program : Invocation) (fd_mappings : List FdMapping)
    (fd_closes : List Nat) : ShellM M (Except LaunchError TaskId) := do
  let loaded ← zoom (fun shell : Shell M => shell.kernel.memory)
    (fun memory shell => { shell with kernel := { shell.kernel with memory } })
    (attempt (start.load use_ext2 program.path program.arguments))
  match loaded with
  | .error error => return .error error
  | .ok image =>
    let spawned ← call (spawn_user_with_arguments_and_fds start.destroy image.address_space image.entry image.stack
      image.argument_count image.argument_vector start.kernel_stack fd_mappings fd_closes)
    return spawned.mapError .Scheduler

/-- The first free slot from a given one on. -/
def RunningApps.free_slot (self : RunningApps) (start : Nat) : Option (Fin MAX_TASKS) :=
  (List.finRange MAX_TASKS).find? fun slot => start ≤ slot.val && (self slot).isNone

/-- `running_apps[slot] = Some(RunningApp { .. })`. -/
def record (slot : Fin MAX_TASKS) (app : RunningApp) : ShellM M Unit :=
  modify fun shell => { shell with running_apps := Function.update shell.running_apps slot (some app) }

def launch_app (outside : Outside M) (command_arguments current_dir : List UInt8) (use_ext2 : Bool) :
    ShellM M Report := do
  let shell ← get
  let slot ← okOr (shell.running_apps.free_slot 0) .tracking_full
  let redirections := split_redirections command_arguments
  give_up_if (!redirections.valid) [] .usage
  match parse_invocation current_dir redirections.command with
  | .error error => throw (.refused error)
  | .ok program =>
    let input_fd ← open_input outside current_dir redirections.input_path
    give_up_if (redirections.input_path.isSome && input_fd.isNone) [] .input_not_opened
    let output_fd ← open_output outside current_dir redirections.output_path
    give_up_if (redirections.output_path.isSome && output_fd.isNone) input_fd.toList .output_not_opened
    -- Both lists are empty for a command without redirections, as `launch_with_arguments` has them.
    let mappings : List FdMapping :=
      (input_fd.map fun source => ⟨source, STDIN⟩).toList ++ (output_fd.map fun source => ⟨source, STDOUT⟩).toList
    let closes := input_fd.toList ++ output_fd.toList
    let launched ← start_program outside.left use_ext2 program mappings closes
    close_fds closes
    match launched with
    | .ok task =>
      record slot { task, path := program.path }
      return .started program.path task
    | .error error => return .not_started error

/-- The closure `spawn` of `launch_pipeline`: why a side could not be started is not kept. -/
def start_side (start : Start M) (current_dir command : List UInt8) (use_ext2 : Bool) (fd_mappings : List FdMapping)
    (fd_closes : List Nat) : ShellM M (Option RunningApp) := do
  match parse_invocation current_dir command with
  | .error _ => return none
  | .ok program =>
    match ← start_program start use_ext2 program fd_mappings fd_closes with
    | .error _ => return none
    | .ok task => return some { task, path := program.path }

/-- The two sides of a pipeline, each with where its program is. -/
structure Sides where
  left : Redirections
  left_use_ext2 : Bool
  right : Redirections
  right_use_ext2 : Bool
deriving Repr, DecidableEq

/-- The start of `launch_pipeline`, for a line with a separator. -/
def split_pipeline (line : List UInt8) (current_dir_is_ext2 : Bool) : Sides :=
  let (left, left_use_ext2) := pipeline_command (trim_spaces (line.takeWhile (· != PIPE_OPERATOR))) current_dir_is_ext2
  let (right, right_use_ext2) :=
    pipeline_command (trim_spaces ((line.dropWhile (· != PIPE_OPERATOR)).drop 1)) current_dir_is_ext2
  { left := split_redirections left, left_use_ext2, right := split_redirections right, right_use_ext2 }

/-- A pipeline that is ready to be started: a slot for each side, the ends of the pipe, and the files. -/
structure Pipeline where
  sides : Sides
  first_slot : Fin MAX_TASKS
  second_slot : Fin MAX_TASKS
  read_fd : Nat
  write_fd : Nat
  input_fd : Option Nat
  output_fd : Option Nat

/-- The descriptors of the shell that a pipeline needs. -/
def Pipeline.fds (self : Pipeline) : List Nat :=
  [self.read_fd, self.write_fd] ++ self.output_fd.toList ++ self.input_fd.toList

/-- `launch_pipeline` up to the first call of `spawn`. -/
def open_pipeline (outside : Outside M) (line current_dir : List UInt8) (current_dir_is_ext2 : Bool) :
    ShellM M Pipeline := do
  give_up_if (!line.contains PIPE_OPERATOR) [] .no_separator
  let sides := split_pipeline line current_dir_is_ext2
  give_up_if (sides.left.output_path.isSome || sides.right.input_path.isSome || !sides.left.valid ||
    !sides.right.valid) [] .pipeline_usage
  give_up_if (sides.left.command.isEmpty || sides.right.command.isEmpty) [] .missing_side
  let shell ← get
  let first_slot ← okOr (shell.running_apps.free_slot 0) .tracking_full
  let second_slot ← okOr (shell.running_apps.free_slot (first_slot.val + 1)) .needs_two_slots
  match ← call create_pipe_for_current with
  | .error error => throw (.pipe_not_created error)
  | .ok (read_fd, write_fd) =>
    let input_fd ← open_input outside current_dir sides.left.input_path
    give_up_if (sides.left.input_path.isSome && input_fd.isNone) [read_fd, write_fd] .input_not_opened
    let output_fd ← open_output outside current_dir sides.right.output_path
    give_up_if (sides.right.output_path.isSome && output_fd.isNone) [read_fd, write_fd] .output_not_opened
    return { sides, first_slot, second_slot, read_fd, write_fd, input_fd, output_fd }

/-- Both calls of `spawn`. -/
def Pipeline.start (outside : Outside M) (current_dir : List UInt8) :
    Pipeline → ShellM M (Option RunningApp × Option RunningApp)
  | { sides, read_fd, write_fd, input_fd, output_fd, .. } => do
    let first_mappings : List FdMapping := (input_fd.map fun source => ⟨source, STDIN⟩).toList ++ [⟨write_fd, STDOUT⟩]
    let first_closes := [read_fd, input_fd.getD write_fd]
    let first ← start_side outside.left current_dir sides.left.command sides.left_use_ext2 first_mappings first_closes
    let second_mappings : List FdMapping :=
      [⟨read_fd, STDIN⟩] ++ (output_fd.map fun source => ⟨source, STDOUT⟩).toList
    let second_closes := [write_fd] ++ output_fd.toList
    let second ← start_side outside.right current_dir sides.right.command sides.right_use_ext2 second_mappings
      second_closes
    return (first, second)

def launch_pipeline (outside : Outside M) (line current_dir : List UInt8) (current_dir_is_ext2 : Bool) :
    ShellM M Report := do
  let pipeline ← open_pipeline outside line current_dir current_dir_is_ext2
  let (first, second) ← pipeline.start outside current_dir
  close_fds pipeline.fds
  match first, second with
  | none, second => return .left_not_started (second.map RunningApp.task)
  | some first, none => return .right_not_started first.task
  | some first, some second =>
    record pipeline.first_slot first
    record pipeline.second_slot second
    return .pipeline_started first.task second.task

/-- A line that `report_finished_apps` prints. -/
inductive Notice where
  | exited (app : RunningApp) (exit_code : UInt64)
  | terminated (app : RunningApp)
  | status_not_read (task : TaskId) (error : SchedulerError)
  | not_released (task : TaskId) (error : SchedulerError)
  | not_monitored (task : TaskId) (error : SchedulerError)
deriving Repr, DecidableEq

/-- `*slot = None`. -/
def forget (slot : Fin MAX_TASKS) : ShellM M Unit :=
  modify fun shell => { shell with running_apps := Function.update shell.running_apps slot none }

/-- How a terminated application ended, given the result of `task_exit_code`. -/
def exit_notice (app : RunningApp) (status : Except SchedulerError (Option UInt64)) : Notice :=
  match status with
  | .ok (some exit_code) => .exited app exit_code
  | .ok none => .terminated app
  | .error error => .status_not_read app.task error

/-- What `report_finished_apps` does with a terminated application: it says how the task ended
and releases it. -/
def report_finished_app (destroy : Destroy M) (app : RunningApp) : ShellM M (List Notice) := do
  let _ ← expect (from_utf8 app.path)
  let ended := exit_notice app (← call (task_exit_code app.task))
  match ← call (reap_terminated destroy app.task) with
  | .ok _ => return [ended]
  | .error error => return [ended, .not_released app.task error]

/-- One turn of the loop of `report_finished_apps`. -/
def report_slot (destroy : Destroy M) (slot : Fin MAX_TASKS) : ShellM M (List Notice) := do
  let shell ← get
  match shell.running_apps slot with
  | none => return []
  | some app =>
    match ← call (task_state app.task) with
    | .ok .Terminated =>
      let notices ← report_finished_app destroy app
      forget slot
      return notices
    | .ok _ => return []
    | .error error =>
      forget slot
      return [.not_monitored app.task error]

/-- The loop of `report_finished_apps` over the given slots. -/
def report_slots (destroy : Destroy M) : List (Fin MAX_TASKS) → ShellM M (List Notice)
  | [] => return []
  | slot :: rest => do
    let notices ← report_slot destroy slot
    return notices ++ (← report_slots destroy rest)

def report_finished_apps (destroy : Destroy M) : ShellM M (List Notice) :=
  report_slots destroy (List.finRange MAX_TASKS)

/-- The loop of `interrupt_running_apps` over the given slots. -/
def interrupt_slots : List (Fin MAX_TASKS) → ShellM M Bool
  | [] => return false
  | slot :: rest => do
    let shell ← get
    match shell.running_apps slot with
    | none => interrupt_slots rest
    | some app =>
      let terminated ← call (locked (Scheduler.terminate_task app.task 130))
      return terminated.toOption.isSome || (← interrupt_slots rest)

def interrupt_running_apps : ShellM M Bool := interrupt_slots (List.finRange MAX_TASKS)

/-- `Command::Kill` with the number of a task. -/
def kill (task_id : TaskId) : ShellM M (Except SchedulerError Unit) :=
  call (locked (Scheduler.terminate_task task_id 143))

end leafos.shell
