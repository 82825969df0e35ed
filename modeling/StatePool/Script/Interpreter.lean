import StatePool.Script.Library
import StatePool.Watchdog

/-!
Interpreters: what one run leaves to the next, and how much memory it takes.
-/

namespace StatePool.Script

/-- Where the value of a captured variable is kept. -/
inductive Cell where
  /-- In a register of a function that still runs. -/
  | slot (n : Nat)
  | value (v : Value)

instance : Inhabited Cell := ⟨.value .nil⟩

/-- An interpreter: what it was built with, and what scripts have left behind in it. -/
structure Interpreter where
  options : StateOptions
  globals : List (Bytes × Value) := []
  cells : Array Cell := #[]
  objects : Nat := 0
  /-- Instructions since the watchdog last looked. -/
  instructions : Nat := 0
  /-- The watch that is hooked in; it is asked after every thousandth instruction. -/
  hook : Option Watch := none

instance : Inhabited Interpreter := ⟨{ options := {} }⟩

namespace Interpreter

/-- A watch takes the place of whatever was hooked in, and counts from the start. -/
def hookIn (interp : Interpreter) (watch : Watch) : Interpreter :=
  { interp with instructions := 0, hook := some watch }

def unhook (interp : Interpreter) : Interpreter :=
  { interp with hook := none }

def getGlobal (interp : Interpreter) (name : Bytes) : Value :=
  (interp.globals.lookup name).getD (Library.lookup interp.options.libs name.lossy)

def replaceGlobal (name : Bytes) (value : Value) :
    List (Bytes × Value) → List (Bytes × Value)
  | [] => [(name, value)]
  | entry :: globals =>
      if entry.1 == name then (name, value) :: globals
      else entry :: replaceGlobal name value globals

def setGlobal (interp : Interpreter) (name : Bytes) (value : Value) : Interpreter :=
  { interp with globals := replaceGlobal name value interp.globals }

@[simp] theorem hook_setGlobal (interp : Interpreter) (name : Bytes) (value : Value) :
    (interp.setGlobal name value).hook = interp.hook := rfl

def lookUp (interp : Interpreter) (name : String) : Value :=
  interp.getGlobal (.ofString name)

def define (interp : Interpreter) (name : String) (value : Value) : Interpreter :=
  interp.setGlobal (.ofString name) value

/-! ### Memory -/

/-- What an interpreter takes before any script ran, in bytes. -/
def ownWeight : Nat := Nat.pow 2 15

def limit (interp : Interpreter) : Nat := interp.options.memoryLimit.toNat

/-- Whether the memory limit leaves no room for any script. -/
def isStarved (interp : Interpreter) : Bool :=
  0 < interp.limit && interp.limit < ownWeight

structure Walk where
  cells : List Nat := []
  texts : List Nat := []
  weight : Nat := 0

/-- The cells among some that were not met before. -/
def Walk.unmet (walk : Walk) (cells : List Nat) : List Nat :=
  cells.eraseDups.filter fun cell => !walk.cells.contains cell

def cellValue? (interp : Interpreter) (cell : Nat) : Option Value :=
  match interp.cells[cell]? with
  | some (.value v) => some v
  | _ => none

/-- Walks on through values: a long text counts once, and a function leads to the variables that it
captured.  Every cell is met once, so the number of values and cells bounds the walk. -/
def walkFrom (interp : Interpreter) : Nat → Walk → List Value → Walk
  | 0, walk, _ | _, walk, [] => walk
  | bound + 1, walk, value :: values =>
      match value with
      | .text s =>
          if s.isLong && !(s.object != 0 && walk.texts.contains s.object) then
            let walk :=
              { walk with texts := s.object :: walk.texts, weight := walk.weight + s.bytes.size }
            walkFrom interp bound walk values
          else walkFrom interp bound walk values
      | .closure c =>
          let unmet := walk.unmet c.cells.toList
          let found := unmet.filterMap interp.cellValue?
          walkFrom interp bound { walk with cells := unmet ++ walk.cells } (found ++ values)
      | _ => walkFrom interp bound walk values

/-- The bytes of all texts that are global or can be reached from some values. -/
def weightOf (interp : Interpreter) (values : List Value) : Nat :=
  let values := values ++ interp.globals.map Prod.snd
  (interp.walkFrom (values.length + interp.cells.size + 1) {} values).weight

/-- Whether some bytes more exceed the memory limit, if there is one. -/
def exceeds (interp : Interpreter) (reachable : Unit → List Value) (bytes : Nat) : Bool :=
  0 < interp.limit && interp.limit < ownWeight + interp.weightOf (reachable ()) + bytes

end Interpreter

end StatePool.Script
