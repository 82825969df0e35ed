import StatePool.Script.Execution

/-!
Scripts as the host deals with them: compiled, called, and their results taken as values of a type.
-/

namespace StatePool.Script

/-- Where the text of a script comes from. -/
inductive Origin where
  | named (name : String)
  | file (path : String)
  deriving DecidableEq, Repr

namespace Origin

/-- The longest place that messages show, in bytes. -/
def maxPlace : Nat := 59

def ellipsis : Bytes := .ofString "..."

/-- The place where messages show a chunk: of a long name the first bytes, and of a long path the
last ones. -/
def place : Origin → Bytes
  | .named name => (Bytes.ofString name).take maxPlace
  | .file path =>
      let path := Bytes.ofString path
      if path.size ≤ maxPlace then path
      else ellipsis ++ path.takeLast (maxPlace - ellipsis.size)

/-- The name that a chunk has inside the interpreter: a mark tells names and paths apart. -/
def internalName : Origin → String
  | .named name => "=" ++ name
  | .file path => "@" ++ path

end Origin

structure Program where
  place : Bytes
  chunk : Chunk

namespace Program

/-- The name of a chunk may not hold a zero byte. -/
def nameFault? (origin : Origin) : Option ScriptError :=
  let bytes := (Bytes.ofString origin.internalName).toList
  (bytes.findIdx? (· == 0)).map fun position =>
    .runtime ("invalid name: nul byte found in provided data at position: " ++ toString position)

def compile (interp : Interpreter) (origin : Origin) (text : String) :
    Except ScriptError Program :=
  match nameFault? origin with
  | some e => .error e
  | none =>
      if interp.isStarved then .error .outOfMemory
      else
        match Chunk.compile text.toList with
        | .ok chunk => .ok ⟨origin.place, chunk⟩
        | .error .tooDeep => .error (.runtime "C stack overflow")
        | .error (.unparsable line) =>
            let place := origin.place ++ .ofString (":" ++ toString line ++ ":")
            .error (.unparsable place.lossy)

/-- Compiles a text as an expression if it is one, and otherwise as statements. -/
def compileExpression (interp : Interpreter) (origin : Origin) (text : String) :
    Except ScriptError Program :=
  match compile interp origin ("return " ++ text) with
  | .ok program => .ok program
  | .error _ => compile interp origin text

/-- How often the watchdog may look during a run; far more often than any run needs that ends by
itself. -/
def maxLooks : Nat := Nat.pow 2 40

/-- The slots below a function that the host calls. -/
def ownSlots : List Value := [.nil, .nil]

/-- Calls a program on arguments, on a stack of its own. -/
def call (program : Program) (arguments : List Value) : Run (List Value) := fun machine =>
  let (cell, machine) := machine.newCell (.value (.library Library.globals))
  let (id, machine) := machine.newObject
  let closure : Closure :=
    { id, place := program.place, chunk := program.chunk, number := program.chunk.main,
      cells := #[cell] }
  let slot := ownSlots.length
  let machine := machine.putAll 0 (ownSlots ++ .closure closure :: arguments)
  match machine.callValue .guard slot none false arguments.length with
  | .running machine => machine.run maxLooks
  | .finished machine result => .finish machine result

end Program

/-! ### Results -/

/-- A type that the host takes results as.  Missing values are nil and extra ones are dropped. -/
inductive Wanted where
  | all
  | int
  | bool
  | text
  | optionalInt
  | textAndInt
  | nothing
  deriving DecidableEq, Repr

inductive Taken where
  | many (values : List Value)
  | one (value : Value)

namespace Wanted

def takeInt (value : Value) : Except ScriptError Value :=
  match value.truncated? with
  | some n => .ok (.int n)
  | none => .error (.conversion value.hostType "i64")

def takeText (value : Value) : Except ScriptError Value :=
  match value.bytes? with
  | none => .error (.conversion value.hostType "String")
  | some s =>
      match s.text? with
      | .ok _ => .ok (.text { bytes := s })
      | .error _ => .error (.conversion value.hostType "String")

def takeOptionalInt : Value → Except ScriptError Value
  | .nil => .ok .nil
  | value => takeInt value

def take (values : List Value) : Wanted → Except ScriptError Taken
  | .all => .ok (.many values)
  | .int => (takeInt (values.headD .nil)).map .one
  | .bool => .ok (.one (.bool (values.headD .nil).isTruthy))
  | .text => (takeText (values.headD .nil)).map .one
  | .optionalInt => (takeOptionalInt (values.headD .nil)).map .one
  | .textAndInt =>
      match takeText (values.headD .nil) with
      | .error e => .error e
      | .ok s => (takeInt (values.tail.headD .nil)).map fun n => .many [s, n]
  | .nothing => .ok (.one .nil)

end Wanted

end StatePool.Script
