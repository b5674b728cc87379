import LeafOS.Support.Ring

namespace leafos.drivers.input

def INPUT_CAPACITY : Nat := 256

instance : NeZero INPUT_CAPACITY := ⟨by decide⟩

abbrev InputBuffer : Type := ByteRing INPUT_CAPACITY

/-- A full queue drops new bytes rather than overwriting unread input. -/
def InputBuffer.push (self : InputBuffer) (byte : UInt8) : InputBuffer := ByteRing.push self byte

/-- Enqueue one translated byte from the keyboard interrupt path. -/
def enqueue (self : InputBuffer) (byte : UInt8) : InputBuffer := InputBuffer.push self byte

/-- Read bytes already available; this function never blocks waiting for input. -/
def read_available (self : InputBuffer) (capacity : Nat) : List UInt8 × InputBuffer :=
  ByteRing.read self capacity

end leafos.drivers.input
