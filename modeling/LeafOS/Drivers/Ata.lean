import LeafOS.Support.Buffer

namespace leafos.drivers.ata

open Prog

def MAX_LBA28 : Nat := 0x0fffffff

inductive AtaError where
  | InvalidRequest
  | NoDevice
  | Timeout
  | Device
deriving Repr, DecidableEq

/-- What the drive reports when a request that was sent to it fails. -/
abbrev DriveError : Type := { error : AtaError // error ≠ .InvalidRequest }

structure Request where
  lba : Nat
  count : Nat
  buffer_len : Nat
deriving Repr, DecidableEq

/-- What goes wrong, by the number of the operation: reads that fail, writes that fail
and leave some bytes in their target, and heap reservations that are refused. -/
structure Faults where
  read : Nat → Option DriveError
  write : Nat → Option (DriveError × ByteMap)
  reserve : Nat → Bool

/-- Nothing goes wrong. -/
def Faults.none : Faults := ⟨fun _ => .none, fun _ => .none, fun _ => false⟩

/-- The disk, what goes wrong with it, the number of operations tried so far, and every
request made, the latest first. -/
structure Drive where
  bytes : ByteMap
  faults : Faults
  operations : Nat
  requests : List Request

def validate_request (request : Request) : Except AtaError Unit :=
  if request.count = 0 ∨ request.buffer_len ≠ request.count * 512 ∨ MAX_LBA28 < request.lba ∨
      2 ^ 32 ≤ request.lba + (request.count - 1) ∨ MAX_LBA28 < request.lba + (request.count - 1) then
    .error .InvalidRequest
  else
    .ok ()

/-- The disk with the sectors of a request overwritten. -/
def Drive.overwrite (drive : Drive) (lba count : Nat) (input : ByteMap) : Drive :=
  { drive with bytes := fun address =>
      if lba * 512 ≤ address ∧ address < (lba + count) * 512 then input (address - lba * 512)
      else drive.bytes address }

/-- Take the number of the next operation. -/
def next_operation {ε : Type} : Prog Drive ε Nat := fun drive =>
  (.ok drive.operations, { drive with operations := drive.operations + 1 })

/-- Note a request and check it. -/
def submit (request : Request) : Prog Drive AtaError Unit := do
  modify fun drive => { drive with requests := request :: drive.requests }
  match validate_request request with
  | .ok _ => return ()
  | .error error => throw error

/-- `read_sectors` into a buffer of the length that the request names. -/
def read_sectors (request : Request) : Prog Drive AtaError ByteMap := do
  submit request
  let operation ← next_operation
  let drive ← get
  match drive.faults.read operation with
  | some error => throw error.1
  | none => return fun index => drive.bytes (request.lba * 512 + index)

def write_sectors (lba count : Nat) (input : Buffer) : Prog Drive AtaError Unit := do
  submit ⟨lba, count, input.length⟩
  let operation ← next_operation
  let drive ← get
  match drive.faults.write operation with
  | some (error, left) => do
    set (drive.overwrite lba count left)
    throw error.1
  | none => set (drive.overwrite lba count input.bytes)

end leafos.drivers.ata
