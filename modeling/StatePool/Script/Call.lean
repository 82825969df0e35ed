import StatePool.Script.Machine

/-!
Calls, returns, and the flight of errors.

A function finds its arguments on the stack above its own slot, and its results go to that slot.  An
error flies past waiting functions to the latest protected call, whose results it becomes; without
one it ends the run.
-/

namespace StatePool.Script

inductive Step where
  | running (machine : Machine)
  | finished (machine : Machine) (result : Except Raise (List Value))

namespace Machine

/-! ### Returns -/

/-- Hands results to whoever waits for them.  A function that called another one last of all returns
what that returned. -/
def complete (machine : Machine) (values : List Value) (slot : Nat) (wanted : Count)
    (isLast : Bool) : List Caller → Step
  | [] => .finished machine (.ok values)
  | .guard slot wanted isLast :: callers =>
      complete { machine with guards := machine.guards - 1 } (.bool true :: values) slot wanted
        isLast callers
  | .script frame :: callers =>
      if isLast then complete machine values frame.slot frame.wanted false callers
      else .running ({ machine with frame, callers }.accept slot wanted values).advance

/-- Hands results of a call to the running function, or beyond it if the call was the last that it
does. -/
def hand (machine : Machine) (values : List Value) (slot : Nat) (wanted : Count) (isLast : Bool) :
    Step :=
  if isLast then
    complete machine values machine.frame.slot machine.frame.wanted false machine.callers
  else .running (machine.accept slot wanted values).advance

/-! ### Errors -/

def caught (machine : Machine) : Raise → Option (Value × Machine)
  | .value v => some (v, machine)
  | .host message =>
      let (object, machine) := machine.newObject
      some (.failure object message, machine)
  | .memory => some (.ofString "not enough memory", machine)
  | .halt => none

/-- Lets an error fly to the latest protected call. -/
def unwind (machine : Machine) (raise : Raise) : List Caller → Step
  | [] => .finished (machine.partFrom 0) (.error raise)
  | .script _ :: callers => unwind machine raise callers
  | .guard slot wanted isLast :: callers =>
      match machine.caught raise with
      | none => unwind machine raise callers
      | some (value, machine) =>
          complete { machine.partFrom slot with guards := machine.guards - 1 }
            [.bool false, value] slot wanted isLast callers

def raise (machine : Machine) (raise : Raise) : Step :=
  machine.unwind raise machine.callers

def raiseText (machine : Machine) (text : Bytes) : Step :=
  machine.raise (.value (.text { bytes := text }))

def complain (machine : Machine) (message : String) : Step :=
  machine.raiseText (place machine.frame ++ .ofString message)

def complainAbout (machine : Machine) (action : String) (value : Value) (register : Nat) : Step :=
  machine.complain
    ("attempt to " ++ action ++ " a " ++ value.typeName ++ " value" ++ machine.nameText register)

/-! ### Limits -/

/-- The most slots that a stack can have. -/
def maxSlots : Nat := 1000000

/-- The most calls of the host's own that can be nested. -/
def maxNested : Nat := 200

inductive Obstacle where
  | text (message : String)
  | memory

/-- Makes room for more slots of the stack than those in use; room grows by doubling. -/
def claimSlots (machine : Machine) (used more : Nat) : Except Obstacle Machine :=
  let size := used + more
  if size ≤ machine.room then .ok machine
  else if maxSlots < size then .error (.text "stack overflow")
  else
    let room := min maxSlots (max size (2 * machine.room))
    if machine.hasRoom used room 0 then .ok { machine with room } else .error .memory

/-- The slots that a function which is not a script's own needs. -/
def builtinSlots : Nat := 20

/-! ### Calls -/

/-- Who makes a call: an instruction of the running function, or a protected call, which has neither
a place nor names. -/
inductive Site where
  | script
  | guard

def Site.text (site : Site) (machine : Machine) : Bytes :=
  match site with
  | .script => place machine.frame
  | .guard => .empty

def raiseAt (machine : Machine) (site : Site) (message : String) : Step :=
  machine.raiseText (site.text machine ++ .ofString message)

def obstruct (machine : Machine) (site : Site) : Obstacle → Step
  | .text message => machine.raiseAt site message
  | .memory => machine.raise .memory

/-- Moves the window of a function above its arguments, and copies its parameters there. -/
def spread (machine : Machine) (given : Nat) : Step :=
  let frame := machine.frame
  let code := frame.closure.code
  let first := frame.base
  match machine.claimSlots (first + given) (code.window + 1) with
  | .error obstacle => machine.obstruct .script obstacle
  | .ok machine =>
      let parameters := machine.slice first (first + code.parameters)
      let machine := machine.put (first + given) (machine.peek (first - 1))
      let machine := machine.putAll (first + given + 1) parameters
      let machine := machine.putAll first (List.replicate code.parameters .nil)
      .running
        { machine with
          frame :=
            { frame with pc := 1, base := first + given + 1, extra := given - code.parameters } }

/-- Starts a function on arguments that lie above its slot. -/
def start (machine : Machine) (site : Site) (closure : Closure) (slot given : Nat)
    (wanted : Count) (callers : List Caller) : Step :=
  let code := closure.code
  match machine.claimSlots (slot + 1 + given) code.window with
  | .error obstacle => machine.obstruct site obstacle
  | .ok machine =>
      let missing := code.parameters - given
      let machine := machine.putAll (slot + 1 + given) (List.replicate missing .nil)
      let frame : Frame := { closure, pc := 0, base := slot + 1, slot, wanted }
      let machine := { machine with frame, callers }
      if code.variadic then machine.spread (given + missing) else .running machine

/-- The name of a function for messages about its arguments: that by which it was called, or else
that under which everybody finds it. -/
def calleeName (machine : Machine) (site : Site) (callee : Value) : String :=
  let called :=
    match site with
    | .script => (machine.frame.closure.code.calleeName? machine.frame.pc).map ValueName.name
    | .guard => none
  let found :=
    match callee with
    | .builtin builtin => Library.nameOf? builtin
    | _ => none
  (called <|> found).getD "?"

end Machine

end StatePool.Script
