import LeafOS.Drivers.Keyboard

namespace leafos.drivers.keyboard

/-- A key that goes down or up, or the pause key. The codes are those whose release is not a prefix byte. -/
inductive Stroke where
  | key (extended released : Bool) (code : Fin 0x60)
  | pause

/-- The bytes of a stroke. Those of the pause key contain the codes of control and num lock. -/
def Stroke.scancodes : Stroke → List UInt8
  | .key extended released code =>
    (if extended then [0xE0] else []) ++ [UInt8.ofNat (if released then code + 0x80 else code)]
  | .pause => [0xE1, 0x1D, 0x45, 0xE1, 0x9D, 0xC5]

namespace Keyboard

/-- What a stroke means. The key sees the modifiers as it leaves them; the pause key does nothing. -/
def strike (self : Keyboard) : Stroke → Option KeyEvent × Keyboard
  | .key extended released code =>
    let code := (if extended then extended_key else normal_key) (UInt8.ofNat code)
    let keyboard := self.modify code released
    (some { code, state := if released then .Released else .Pressed,
            ascii := if released then none else keyboard.to_ascii code }, keyboard)
  | .pause => (none, self)

/-- The events of a sequence of inputs, and the driver's state after them. -/
def reports {α : Type} (step : Keyboard → α → Option KeyEvent × Keyboard) (self : Keyboard) :
    List α → List KeyEvent × Keyboard
  | [] => ([], self)
  | input :: rest =>
    let later := reports step (step self input).2 rest
    ((step self input).1.toList ++ later.1, later.2)

/-- The keys that the driver keeps a flag for, with their flags. -/
def flags (self : Keyboard) : List (KeyCode × Bool) :=
  [(.LeftShift, self.left_shift), (.RightShift, self.right_shift), (.LeftCtrl, self.left_ctrl),
    (.RightCtrl, self.right_ctrl), (.LeftAlt, self.left_alt), (.RightAlt, self.right_alt)]

/-- Whether a key is down after some events: its last event says so. -/
def held (events : List KeyEvent) (key : KeyCode × Bool) : KeyCode × Bool :=
  (key.1, events.foldl (fun down event => if event.code = key.1 then event.state = .Pressed else down) key.2)

/-- Between two strokes. -/
def Idle (self : Keyboard) : Prop := self.extended = false ∧ self.pause_remaining = 0

variable {self : Keyboard}

theorem Idle.strike (hidle : self.Idle) (stroke : Stroke) : (self.strike stroke).2.Idle := by
  cases stroke with
  | pause => exact hidle
  | key extended released code =>
    simp only [Keyboard.strike, modify]
    split <;> first | exact hidle | (split <;> exact hidle)

theorem flags_strike (self : Keyboard) (stroke : Stroke) :
    (self.strike stroke).2.flags = self.flags.map (held (self.strike stroke).1.toList) := by
  cases stroke with
  | pause => rfl
  | key extended released code =>
    simp only [Keyboard.strike, modify, flags, held, List.map_cons, List.map_nil, Option.toList_some, List.foldl_cons,
      List.foldl_nil]
    split <;> cases released <;> simp_all

theorem flags_reports (self : Keyboard) (strokes : List Stroke) :
    (reports Keyboard.strike self strokes).2.flags = self.flags.map (held (reports Keyboard.strike self strokes).1) := by
  induction strokes generalizing self with
  | nil => rfl
  | cons stroke rest ih =>
    have happend (first later : List KeyEvent) : held (first ++ later) = held later ∘ held first :=
      funext fun key => by rw [held, List.foldl_append]; rfl
    simp only [reports, ih, flags_strike, List.map_map, happend]

theorem code_byte : ∀ (code : Fin 0x60) (released : Bool),
    let scancode := UInt8.ofNat (if released then code.val + 0x80 else code)
    scancode ≠ 0xE1 ∧ scancode ≠ 0xE0 ∧ (scancode &&& 0x80 != 0) = released ∧ scancode &&& 0x7F = UInt8.ofNat code := by
  decide

theorem Idle.process_stroke (hidle : self.Idle) (stroke : Stroke) (rest : List UInt8) :
    reports process_scancode self (stroke.scancodes ++ rest) =
      let later := reports process_scancode (self.strike stroke).2 rest
      ((self.strike stroke).1.toList ++ later.1, later.2) := by
  obtain ⟨extended, pause_remaining⟩ := self
  obtain ⟨rfl, rfl⟩ := hidle
  cases stroke with
  | pause => simp [Stroke.scancodes, Keyboard.strike, reports, process_scancode]
  | key extended released code =>
    obtain ⟨hpause, hprefix, hreleased, hcode⟩ := code_byte code released
    cases extended <;>
      simp [Stroke.scancodes, Keyboard.strike, reports, process_scancode, hpause, hprefix, hreleased, hcode]

/-- Typing is decoded. Whichever keys go down and up, in any order, the driver takes their bytes
apart as they were put together: it reports each stroke once and in order, with the modifiers
that the strokes before have left, and takes nothing from the bytes of the pause key. Of these modifiers
exactly those are set whose key is held down. -/
theorem typing_is_decoded (strokes : List Stroke) :
    reports process_scancode .new (strokes.flatMap Stroke.scancodes) = reports Keyboard.strike .new strokes ∧
    (reports process_scancode .new (strokes.flatMap Stroke.scancodes)).2.Idle ∧
    (reports Keyboard.strike .new strokes).2.flags =
      Keyboard.new.flags.map (held (reports Keyboard.strike .new strokes).1) := by
  suffices hall : ∀ self : Keyboard, self.Idle →
      reports process_scancode self (strokes.flatMap Stroke.scancodes) = reports Keyboard.strike self strokes ∧
      (reports process_scancode self (strokes.flatMap Stroke.scancodes)).2.Idle by
    obtain ⟨hsame, hlast⟩ := hall .new ⟨rfl, rfl⟩
    exact ⟨hsame, hlast, flags_reports .new strokes⟩
  induction strokes with
  | nil => exact fun self hidle => ⟨rfl, hidle⟩
  | cons stroke rest ih =>
    intro self hidle
    obtain ⟨hrest, hlast⟩ := ih _ (hidle.strike stroke)
    rw [List.flatMap_cons, hidle.process_stroke]
    exact ⟨by simp only [hrest, reports], hlast⟩

end Keyboard

end leafos.drivers.keyboard
