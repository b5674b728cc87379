import Mathlib.Algebra.GroupWithZero.Nat
import Mathlib.Data.UInt

namespace leafos.drivers.keyboard

inductive KeyState where
  | Pressed
  | Released
deriving DecidableEq

inductive KeyCode where
  | Char (c : Char)
  | Enter
  | Escape
  | Backspace
  | Tab
  | Space
  | LeftShift
  | RightShift
  | LeftCtrl
  | RightCtrl
  | LeftAlt
  | RightAlt
  | CapsLock
  | NumLock
  | ScrollLock
  | F (number : UInt8)
  | ArrowUp
  | ArrowDown
  | ArrowLeft
  | ArrowRight
  | Home
  | End
  | PageUp
  | PageDown
  | Insert
  | Delete
  | Unknown (code : UInt8)
deriving DecidableEq

structure KeyEvent where
  code : KeyCode
  state : KeyState
  ascii : Option UInt8
deriving DecidableEq

structure Keyboard where
  extended : Bool
  pause_remaining : UInt8
  left_shift : Bool
  right_shift : Bool
  left_ctrl : Bool
  right_ctrl : Bool
  left_alt : Bool
  right_alt : Bool
  caps_lock : Bool
  num_lock : Bool
  scroll_lock : Bool
deriving DecidableEq

namespace Keyboard

def new : Keyboard where
  extended := false
  pause_remaining := 0
  left_shift := false
  right_shift := false
  left_ctrl := false
  right_ctrl := false
  left_alt := false
  right_alt := false
  caps_lock := false
  num_lock := false
  scroll_lock := false

def normal_key (code : UInt8) : KeyCode :=
  match code.toNat with
  | 0x01 => .Escape
  | 0x02 => .Char '1'
  | 0x03 => .Char '2'
  | 0x04 => .Char '3'
  | 0x05 => .Char '4'
  | 0x06 => .Char '5'
  | 0x07 => .Char '6'
  | 0x08 => .Char '7'
  | 0x09 => .Char '8'
  | 0x0A => .Char '9'
  | 0x0B => .Char '0'
  | 0x0C => .Char '-'
  | 0x0D => .Char '='
  | 0x0E => .Backspace
  | 0x0F => .Tab
  | 0x10 => .Char 'q'
  | 0x11 => .Char 'w'
  | 0x12 => .Char 'e'
  | 0x13 => .Char 'r'
  | 0x14 => .Char 't'
  | 0x15 => .Char 'y'
  | 0x16 => .Char 'u'
  | 0x17 => .Char 'i'
  | 0x18 => .Char 'o'
  | 0x19 => .Char 'p'
  | 0x1A => .Char '['
  | 0x1B => .Char ']'
  | 0x1C => .Enter
  | 0x1D => .LeftCtrl
  | 0x1E => .Char 'a'
  | 0x1F => .Char 's'
  | 0x20 => .Char 'd'
  | 0x21 => .Char 'f'
  | 0x22 => .Char 'g'
  | 0x23 => .Char 'h'
  | 0x24 => .Char 'j'
  | 0x25 => .Char 'k'
  | 0x26 => .Char 'l'
  | 0x27 => .Char ';'
  | 0x28 => .Char '\x27'
  | 0x29 => .Char '\x60'
  | 0x2A => .LeftShift
  | 0x2B => .Char '\x5c'
  | 0x2C => .Char 'z'
  | 0x2D => .Char 'x'
  | 0x2E => .Char 'c'
  | 0x2F => .Char 'v'
  | 0x30 => .Char 'b'
  | 0x31 => .Char 'n'
  | 0x32 => .Char 'm'
  | 0x33 => .Char ','
  | 0x34 => .Char '.'
  | 0x35 => .Char '/'
  | 0x36 => .RightShift
  | 0x37 => .Char '*'
  | 0x38 => .LeftAlt
  | 0x39 => .Space
  | 0x3A => .CapsLock
  | 0x45 => .NumLock
  | 0x46 => .ScrollLock
  | 0x47 => .Char '7'
  | 0x48 => .Char '8'
  | 0x49 => .Char '9'
  | 0x4A => .Char '-'
  | 0x4B => .Char '4'
  | 0x4C => .Char '5'
  | 0x4D => .Char '6'
  | 0x4E => .Char '+'
  | 0x4F => .Char '1'
  | 0x50 => .Char '2'
  | 0x51 => .Char '3'
  | 0x52 => .Char '0'
  | 0x53 => .Char '.'
  | 0x57 => .F 11
  | 0x58 => .F 12
  | _ => if 0x3B ≤ code ∧ code ≤ 0x44 then .F (code - 0x3A) else .Unknown code

def extended_key (code : UInt8) : KeyCode :=
  match code.toNat with
  | 0x1C => .Enter
  | 0x1D => .RightCtrl
  | 0x35 => .Char '/'
  | 0x38 => .RightAlt
  | 0x47 => .Home
  | 0x48 => .ArrowUp
  | 0x49 => .PageUp
  | 0x4B => .ArrowLeft
  | 0x4D => .ArrowRight
  | 0x4F => .End
  | 0x50 => .ArrowDown
  | 0x51 => .PageDown
  | 0x52 => .Insert
  | 0x53 => .Delete
  | _ => .Unknown (code ||| 0x80)

/-- `c as u8`. -/
def as_u8 (c : Char) : UInt8 := UInt8.ofNat c.toNat

/-- The character on a key that has another one for shift. -/
def shifted_char (c : Char) : Char :=
  match c with
  | '1' => '!'
  | '2' => '@'
  | '3' => '#'
  | '4' => '$'
  | '5' => '%'
  | '6' => '^'
  | '7' => '&'
  | '8' => '*'
  | '9' => '('
  | '0' => ')'
  | '-' => '_'
  | '=' => '+'
  | '[' => '\x7b'
  | ']' => '\x7d'
  | '\x5c' => '|'
  | ';' => ':'
  | '\x27' => '\x22'
  | '\x60' => '~'
  | ',' => '<'
  | '.' => '>'
  | '/' => '?'
  | other => other

/-- `byte.to_ascii_uppercase() - b'A' + 1` for the byte of a letter. -/
def control_byte (c : Char) : UInt8 := as_u8 c.toUpper - as_u8 'A' + 1

def to_ascii (self : Keyboard) (key : KeyCode) : Option UInt8 :=
  let shifted := self.left_shift || self.right_shift
  let ctrl := self.left_ctrl || self.right_ctrl
  match key with
  | .Char c =>
    if c.isAlpha then
      if self.right_alt && c == 'w' then
        some (as_u8 '|')
      else
        let c := if shifted ^^ self.caps_lock then c.toUpper else c
        some (if ctrl then control_byte c else as_u8 c)
    else
      let c := if shifted then shifted_char c else c
      some (if ctrl && c.isAlpha then control_byte c else as_u8 c)
  | .Space => some (as_u8 ' ')
  | .Enter => some (as_u8 '\n')
  | .Tab => some (as_u8 '\t')
  | .Backspace => some 0x08
  | .Escape => some 0x1B
  | _ => none

/-- What a key does to the modifiers. -/
def modify (self : Keyboard) (key : KeyCode) (released : Bool) : Keyboard :=
  match key with
  | .LeftShift => { self with left_shift := !released }
  | .RightShift => { self with right_shift := !released }
  | .LeftCtrl => { self with left_ctrl := !released }
  | .RightCtrl => { self with right_ctrl := !released }
  | .LeftAlt => { self with left_alt := !released }
  | .RightAlt => { self with right_alt := !released }
  | .CapsLock => if !released then { self with caps_lock := !self.caps_lock } else self
  | .NumLock => if !released then { self with num_lock := !self.num_lock } else self
  | .ScrollLock => if !released then { self with scroll_lock := !self.scroll_lock } else self
  | _ => self

def process_scancode (self : Keyboard) (scancode : UInt8) : Option KeyEvent × Keyboard :=
  if 0 < self.pause_remaining then
    (none, { self with pause_remaining := self.pause_remaining - 1 })
  else if scancode = 0xE1 then
    (none, { self with extended := false, pause_remaining := 5 })
  else if scancode = 0xE0 then
    (none, { self with extended := true })
  else
    let released := scancode &&& 0x80 != 0
    let code := scancode &&& 0x7F
    let key := if self.extended then extended_key code else normal_key code
    let keyboard := { self with extended := false }.modify key released
    (some {
      code := key
      state := if released then .Released else .Pressed
      ascii := if released then none else keyboard.to_ascii key }, keyboard)

/-- The key presses that stand for the interrupt byte. -/
def interrupts (event : Option KeyEvent) : Bool :=
  event.any fun event => event.state == .Pressed && event.ascii == some 0x03

end Keyboard

end leafos.drivers.keyboard
