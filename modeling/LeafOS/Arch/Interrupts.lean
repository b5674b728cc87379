import LeafOS.Drivers.Keyboard
import LeafOS.Shell.KeyQueue
import LeafOS.Tasking.LostWakeUps

namespace leafos.arch.interrupts

open leafos.drivers.keyboard leafos.tasking.scheduler leafos.shell

variable {M : Type}

/-- `sync::Mutex`. It is held while a guard of it is alive. -/
structure Mutex (α : Type) where
  value : α
  held : Bool

/-- What the keyboard interrupt handler works on. -/
structure System (M : Type) where
  keyboard : Mutex Keyboard
  kernel : Kernel M
  shell : KeyQueue

/-- How an activation of the handler ends: it returns, which drops its guard, it leaves by
a call that does not return, or it spins on a lock that nobody will release. -/
inductive Activation where
  | returns
  | diverges
  | spins
deriving DecidableEq

/-- `scheduler::current_task_is_user`. -/
def current_task_is_user (kernel : Kernel M) : Bool := kernel.running.any fun task => task.user.isSome

/-- The bytes that the handler passes on. -/
def accepted (byte : UInt8) : Bool :=
  byte ∈ [0x0A, 0x09, 0x08, 0x03, 0x11, 0x13, 0x1B] || (0x20 ≤ byte && byte ≤ 0x7E)

def special_key (code : KeyCode) : Option UInt8 :=
  match code with
  | .ArrowLeft => some 0x80
  | .ArrowRight => some 0x81
  | .ArrowUp => some 0x82
  | .ArrowDown => some 0x83
  | .Home => some 0x84
  | .End => some 0x85
  | .Delete => some 0x86
  | .PageUp => some 0x87
  | .PageDown => some 0x88
  | _ => none

/-- `drivers::input::enqueue`. -/
def input_enqueue (byte : UInt8) (system : System M) : System M :=
  { system with kernel.objects.input := drivers.input.enqueue system.kernel.objects.input byte }

/-- `shell::enqueue_key`. -/
def shell_enqueue_key (byte : UInt8) (system : System M) : System M :=
  { system with shell := enqueue_key system.shell byte }

/-- Run a call of the kernel inside the handler. -/
def within {α : Type} (call : KernelM M α) (system : System M) : System M :=
  { system with kernel := (call system.kernel).2 }

/-- What the handler does with a key, while it holds the keyboard's lock. -/
def handle_event (user_task_running : Bool) (event : KeyEvent) (system : System M) : Activation × System M :=
  if event.state = .Pressed then
    match event.ascii with
    | some byte =>
      if accepted byte then
        if user_task_running && byte == 0x03 then
          -- `exit_current_group_with_code(130)` has type `!`
          (.diverges, within (exit_current_with_status_and_group (some 130) true) system)
        else if user_task_running then
          (.returns, within arch.syscall.wake_all_blocked_tasks (input_enqueue byte system))
        else
          (.returns, shell_enqueue_key byte system)
      else
        (.returns, system)
    | none =>
      match special_key event.code with
      | some key =>
        (.returns, if user_task_running then input_enqueue key system else shell_enqueue_key key system)
      | none => (.returns, system)
  else
    (.returns, system)

/-- The state once the handler's guard is dropped. -/
def System.unlock (system : System M) : System M := { system with keyboard.held := false }

def keyboard_interrupt_handler (scancode : UInt8) (system : System M) : Activation × System M :=
  let user_task_running := current_task_is_user system.kernel
  if system.keyboard.held then
    (.spins, system)
  else
    let (event, keyboard) := system.keyboard.value.process_scancode scancode
    let system := { system with keyboard := ⟨keyboard, true⟩ }
    match event with
    | none => (.returns, system.unlock)
    | some event =>
      match handle_event user_task_running event system with
      | (.returns, system) => (.returns, system.unlock)
      | (activation, system) => (activation, system)

/-- An interrupt arrives with a scancode, at whatever the kernel has come to. -/
structure Interrupt (M : Type) where
  scancode : UInt8
  kernel : Kernel M

/-- The state in which the handler is entered. -/
def System.enter (system : System M) (interrupt : Interrupt M) : System M :=
  { system with kernel := interrupt.kernel }

/-- At boot nobody holds the keyboard's lock. -/
def System.boot (kernel : Kernel M) (shell : KeyQueue) : System M where
  keyboard := ⟨.new, false⟩
  kernel
  shell

def run_interrupts (interrupts : List (Interrupt M)) (system : System M) : System M :=
  interrupts.foldl (fun system interrupt =>
    (keyboard_interrupt_handler interrupt.scancode (system.enter interrupt)).2) system

/-- The decoder's state after a history of scancodes. -/
def decoder (scancodes : List UInt8) : Keyboard :=
  scancodes.foldl (fun keyboard scancode => (keyboard.process_scancode scancode).2) .new

/-- The interrupt is the one that kills the running program: its key decodes to the
interrupt byte while a user task runs. -/
def Interrupt.Kills (interrupt : Interrupt M) (scancodes : List UInt8) : Prop :=
  current_task_is_user interrupt.kernel = true ∧
    Keyboard.interrupts ((decoder scancodes).process_scancode interrupt.scancode).1 = true

/-- A key that does not interrupt is dealt with and the handler goes on. -/
theorem handle_event_spec (user_task_running : Bool) (event : KeyEvent) (system : System M) :
    (handle_event user_task_running event system).2.keyboard = system.keyboard ∧
      (handle_event user_task_running event system).1 =
        if user_task_running && Keyboard.interrupts (some event) then .diverges else .returns := by
  obtain ⟨code, state, ascii⟩ := event
  cases state with
  | Released => simp [handle_event, Keyboard.interrupts]
  | Pressed =>
    cases ascii with
    | none =>
      simp only [handle_event, if_true, Keyboard.interrupts]
      cases special_key code with
      | none => simp
      | some key => cases user_task_running <;> simp [input_enqueue, shell_enqueue_key]
    | some byte =>
      simp only [handle_event, if_true, Keyboard.interrupts, Option.any_some, beq_self_eq_true, Bool.true_and]
      by_cases hinterrupt : byte = 0x03
      · subst hinterrupt
        have haccepted : accepted 0x03 = true := by decide
        cases user_task_running <;> simp [haccepted, within, shell_enqueue_key]
      · have hother : (byte == 0x03) = false := by simpa using hinterrupt
        cases accepted byte <;> cases user_task_running <;>
          simp [hother, within, input_enqueue, shell_enqueue_key]

/-- An activation that finds the lock free takes one step of the decoder, and keeps the
lock only if it kills the running program. -/
theorem keyboard_interrupt_handler_keyboard (scancode : UInt8) {system : System M}
    (hfree : system.keyboard.held = false) :
    (keyboard_interrupt_handler scancode system).2.keyboard =
      ⟨(system.keyboard.value.process_scancode scancode).2, current_task_is_user system.kernel &&
        Keyboard.interrupts (system.keyboard.value.process_scancode scancode).1⟩ := by
  simp only [keyboard_interrupt_handler, hfree, Bool.false_eq_true, if_false]
  generalize system.keyboard.value.process_scancode scancode = decoded
  obtain ⟨event, keyboard⟩ := decoded
  cases event with
  | none => simp [System.unlock, Keyboard.interrupts]
  | some event =>
    have hspec := handle_event_spec (current_task_is_user system.kernel) event
      { system with keyboard := ⟨keyboard, true⟩ }
    dsimp only
    generalize handle_event (current_task_is_user system.kernel) event _ = result at hspec
    obtain ⟨activation, after⟩ := result
    obtain ⟨hkeyboard, hactivation⟩ := hspec
    dsimp only at hkeyboard hactivation
    subst hactivation
    cases current_task_is_user system.kernel && Keyboard.interrupts (some event) <;>
      simp [System.unlock, hkeyboard]

theorem run_interrupts_concat (interrupts : List (Interrupt M)) (interrupt : Interrupt M) (system : System M) :
    run_interrupts (interrupts ++ [interrupt]) system = (keyboard_interrupt_handler interrupt.scancode
      ((run_interrupts interrupts system).enter interrupt)).2 := by
  simp [run_interrupts]

theorem decoder_concat (scancodes : List UInt8) (scancode : UInt8) :
    decoder (scancodes ++ [scancode]) = ((decoder scancodes).process_scancode scancode).2 := by
  simp [decoder]

/-- As long as no interrupt kills a program, the handler finds the lock free and the decoder
at the end of the scancodes so far. -/
theorem run_interrupts_keyboard (kernel : Kernel M) (shell : KeyQueue) (interrupts : List (Interrupt M))
    (hspared : ∀ earlier interrupt later, interrupts = earlier ++ interrupt :: later →
      ¬ interrupt.Kills (earlier.map Interrupt.scancode)) :
    (run_interrupts interrupts (.boot kernel shell)).keyboard =
      ⟨decoder (interrupts.map Interrupt.scancode), false⟩ := by
  induction interrupts using List.reverseRecOn with
  | nil => rfl
  | append_singleton interrupts interrupt ih =>
    have hbefore := ih fun earlier other later heq =>
      hspared earlier other (later ++ [interrupt]) (by rw [heq, List.append_assoc, List.cons_append])
    have hthis := hspared interrupts interrupt [] rfl
    have hfree : ((run_interrupts interrupts (.boot kernel shell)).enter interrupt).keyboard.held = false :=
      congrArg Mutex.held hbefore
    have hvalue : ((run_interrupts interrupts (.boot kernel shell)).enter interrupt).keyboard.value =
        decoder (interrupts.map Interrupt.scancode) := congrArg Mutex.value hbefore
    rw [run_interrupts_concat, keyboard_interrupt_handler_keyboard _ hfree, hvalue, List.map_append,
      List.map_singleton, decoder_concat]
    simpa [Interrupt.Kills, System.enter] using hthis

/-- The keyboard interrupt handler finds its lock free at every entry, for every history of
interrupts of which none kills the running program. -/
theorem keyboard_lock_is_free (kernel : Kernel M) (shell : KeyQueue) (interrupts : List (Interrupt M))
    (hspared : ∀ earlier interrupt later, interrupts = earlier ++ interrupt :: later →
      ¬ interrupt.Kills (earlier.map Interrupt.scancode)) {earlier : List (Interrupt M)}
    (hentry : earlier <+: interrupts) : (run_interrupts earlier (.boot kernel shell)).keyboard.held = false := by
  obtain ⟨rest, rfl⟩ := hentry
  rw [run_interrupts_keyboard kernel shell earlier fun first interrupt later heq =>
    hspared first interrupt (later ++ rest) (by rw [heq, List.append_assoc, List.cons_append])]

def typing_kernel : Kernel Unit := interleave [sample_spawn, .run_tasks 0 (.ok (.empty, 0))] sample_kernel

def empty_queue : KeyQueue := ⟨fun _ => 0, 0, 0⟩

/-- A program reads what is typed: the C key goes down and up, without the control key. -/
theorem keyboard_lock_is_free_sample :
    current_task_is_user typing_kernel = true ∧
      (run_interrupts [⟨0x2E, typing_kernel⟩, ⟨0xAE, typing_kernel⟩]
        (.boot typing_kernel empty_queue)).keyboard.held = false := by
  refine ⟨by decide +kernel, keyboard_lock_is_free typing_kernel empty_queue _ ?_ (List.prefix_refl _)⟩
  rintro earlier interrupt later heq ⟨_, hinterrupts⟩
  rcases earlier with _ | ⟨first, _ | ⟨second, rest⟩⟩
  · cases heq
    revert hinterrupts
    decide +kernel
  · cases heq
    revert hinterrupts
    decide +kernel
  · simp at heq

/-- Ctrl+C while a program runs. The handler leaves through the program's exit with the
keyboard's lock held, and spins on it at the next key, whatever it is. -/
theorem ctrl_c_keeps_keyboard_locked :
    let system := run_interrupts [⟨0x1D, typing_kernel⟩, ⟨0x2E, typing_kernel⟩] (.boot typing_kernel empty_queue)
    system.keyboard.held = true ∧
      ∀ interrupt, (keyboard_interrupt_handler interrupt.scancode (system.enter interrupt)).1 = .spins := by
  intro system
  have hheld : system.keyboard.held = true := by decide +kernel
  refine ⟨hheld, fun interrupt => ?_⟩
  have hentered : (system.enter interrupt).keyboard.held = true := hheld
  simp only [keyboard_interrupt_handler, hentered, if_true]

end leafos.arch.interrupts
