import StatePool.Script.Interpreter
import StatePool.Script.Naming

/-!
Machines: an interpreter at work, together with the world that host functions act on.

The functions that are running share a stack.  Each has its window of registers on it, and the
functions that wait for another one to return are kept in a list, the latest first; so are the
protected calls, which end the flight of an error.
-/

namespace StatePool.Script

inductive Raise where
  | value (v : Value)
  | host (message : String)
  | memory
  /-- The machine stops: it was to do what it cannot do. -/
  | halt

namespace Raise

/-- What follows the text of an error that a script did not catch. -/
def trace : String := "\nstack traceback:"

/-- The error as the host is told of it; a text ends at its first zero. -/
def report : Raise → ScriptError
  | .value (.failure _ message) => .callback message
  | .value v =>
      let text := v.errorText.toList.takeWhile (· ≠ 0)
      .runtime ((Bytes.ofList text).lossy ++ trace)
  | .host message => .callback message
  | .memory => .outOfMemory
  | .halt => .other "not supported"

end Raise

structure Frame where
  closure : Closure
  pc : Nat
  /-- Where its registers start on the stack. -/
  base : Nat
  /-- Where its results go. -/
  slot : Nat
  wanted : Count
  /-- How many extra arguments lie below its registers. -/
  extra : Nat := 0

instance : Inhabited Closure := ⟨⟨0, .empty, ⟨#[], 0⟩, 0, #[]⟩⟩

instance : Inhabited Frame := ⟨⟨default, 0, 0, 0, none, 0⟩⟩

inductive Caller where
  | script (frame : Frame)
  /-- A protected call; its results go to a slot, or out of the function that made it if that called
  it last of all. -/
  | guard (slot : Nat) (wanted : Count) (isLast : Bool)

structure Machine where
  interp : Interpreter
  world : World
  /-- What was done to the world, latest first. -/
  effects : List HostEffect := []
  stack : Array Value := #[]
  /-- The first slot of the stack behind values whose number is left to the run. -/
  top : Nat := 0
  frame : Frame := default
  callers : List Caller := []
  guards : Nat := 0
  /-- For how many slots there is memory. -/
  room : Nat := 40
  /-- The cells that share a slot with a register, the highest slot first. -/
  shared : List (Nat × Nat) := []

namespace Machine

def undergo (machine : Machine) (effect : HostEffect) : Machine :=
  { machine with world := machine.world.undergo effect, effects := effect :: machine.effects }

/-! ### The stack -/

def peek (machine : Machine) (slot : Nat) : Value := machine.stack.getD slot .nil

/-- Makes a stack reach up to a slot. -/
def extend (stack : Array Value) (size : Nat) : Array Value :=
  if stack.size < size then stack ++ Array.replicate (size - stack.size) Value.nil else stack

def put (machine : Machine) (slot : Nat) (value : Value) : Machine :=
  { machine with stack := (extend machine.stack (slot + 1)).setIfInBounds slot value }

def read (machine : Machine) (register : Nat) : Value :=
  machine.peek (machine.frame.base + register)

def write (machine : Machine) (register : Nat) (value : Value) : Machine :=
  machine.put (machine.frame.base + register) value

def source (machine : Machine) : Source → Value
  | .register r => machine.read r
  | .constant c => .ofConstant c

def putAll (machine : Machine) : Nat → List Value → Machine
  | _, [] => machine
  | slot, value :: values => (machine.put slot value).putAll (slot + 1) values

/-- The values from one slot up to another. -/
def slice (machine : Machine) (first stop : Nat) : List Value :=
  (machine.stack.extract first stop).toList

/-- Values in a number that is asked for: nils are added and extra ones are dropped. -/
def fit (values : List Value) : Nat → List Value
  | 0 => []
  | count + 1 => values.headD .nil :: fit values.tail count

/-- Hands results over; where their number is left to the run, the top tells it. -/
def accept (machine : Machine) (slot : Nat) (wanted : Count) (values : List Value) : Machine :=
  match wanted with
  | some count => machine.putAll slot (fit values count)
  | none => { machine.putAll slot values with top := slot + values.length }

def go (machine : Machine) (pc : Nat) : Machine :=
  { machine with frame := { machine.frame with pc } }

def advance (machine : Machine) : Machine := machine.go (machine.frame.pc + 1)

/-! ### Captured variables -/

def readCell (machine : Machine) (cell : Nat) : Value :=
  match machine.interp.cells[cell]? with
  | some (.slot n) => machine.peek n
  | some (.value v) => v
  | none => .nil

def writeCell (machine : Machine) (cell : Nat) (value : Value) : Machine :=
  match machine.interp.cells[cell]? with
  | some (.slot n) => machine.put n value
  | some (.value _) =>
      { machine with interp.cells := machine.interp.cells.setIfInBounds cell (.value value) }
  | none => machine

def newCell (machine : Machine) (cell : Cell) : Nat × Machine :=
  (machine.interp.cells.size, { machine with interp.cells := machine.interp.cells.push cell })

def insertShared (slot cell : Nat) : List (Nat × Nat) → List (Nat × Nat)
  | [] => [(slot, cell)]
  | entry :: shared =>
      if entry.1 < slot then (slot, cell) :: entry :: shared
      else entry :: insertShared slot cell shared

def share (machine : Machine) (slot : Nat) : Nat × Machine :=
  match machine.shared.lookup slot with
  | some cell => (cell, machine)
  | none =>
      let (cell, machine) := machine.newCell (.slot slot)
      (cell, { machine with shared := insertShared slot cell machine.shared })

def storeCells (cells : Array Cell) (values : List (Nat × Value)) : Array Cell :=
  values.foldl (fun cells entry => cells.setIfInBounds entry.1 (.value entry.2)) cells

def partFrom (machine : Machine) (slot : Nat) : Machine :=
  match machine.shared with
  | [] => machine
  | (top, _) :: _ =>
      if top < slot then machine
      else
        let (parted, shared) := machine.shared.span fun entry => slot ≤ entry.1
        let values := parted.map fun entry => (entry.2, machine.peek entry.1)
        { machine with shared, interp.cells := storeCells machine.interp.cells values }

/-! ### Objects and memory -/

def newObject (machine : Machine) : Nat × Machine :=
  let object := machine.interp.objects + 1
  (object, { machine with interp.objects := object })

/-- What a slot of the stack takes, in bytes. -/
def slotWeight : Nat := 16

/-- What a waiting function takes beside its registers. -/
def callerWeight : Nat := 64

/-- Whether the memory limit leaves room for some bytes more, while the stack is in use up to a slot
and has memory for a number of them. -/
def hasRoom (machine : Machine) (used room bytes : Nat) : Bool :=
  if machine.interp.limit = 0 then true
  else
    let stack := slotWeight * room + callerWeight * machine.callers.length
    !machine.interp.exceeds (fun () => machine.slice 0 used) (stack + bytes)

/-- A text made of bytes; a long one is a new object. -/
def newText (machine : Machine) (bytes : Bytes) : Value × Machine :=
  if Text.maxShort < bytes.size then
    let (object, machine) := machine.newObject
    (.text ⟨bytes, object⟩, machine)
  else (.text ⟨bytes, 0⟩, machine)

/-! ### Places and names -/

/-- Where a function stands, as messages begin. -/
def place (frame : Frame) : Bytes :=
  frame.closure.place ++
    .ofString (":" ++ toString (frame.closure.code.line frame.pc) ++ ": ")

def nameText (machine : Machine) (register : Nat) : String :=
  match machine.frame.closure.code.valueName? register machine.frame.pc with
  | some name => name.text
  | none => ""

end Machine

abbrev Run (α : Type) := Machine → Work Machine (Except Raise α)

end StatePool.Script
