import StatePool.Script.Call

/-!
The functions of the library and of the host that scripts call.
-/

namespace StatePool.Script

/-- A call of a function that is not a script's own: who makes it, where its arguments are and where
its results go. -/
structure Invocation where
  site : Machine.Site
  slot : Nat
  given : Nat
  wanted : Count
  isLast : Bool

namespace Machine

def arguments (machine : Machine) (call : Invocation) : List Value :=
  machine.slice (call.slot + 1) (call.slot + 1 + call.given)

/-- Ends a call with its results. -/
def answer (machine : Machine) (call : Invocation) (values : List Value) : Step :=
  match call.site with
  | .script => machine.hand values call.slot call.wanted call.isLast
  | .guard => machine.complete values call.slot call.wanted false machine.callers

/-! ### Arguments -/

def badArgument (machine : Machine) (call : Invocation) (position : Nat) (problem : String) :
    Step :=
  machine.raiseAt call.site
    ("bad argument #" ++ toString position ++ " to '" ++
      machine.calleeName call.site (machine.peek call.slot) ++ "' (" ++ problem ++ ")")

def unexpected (expected : String) (value : Option Value) : String :=
  expected ++ " expected, got " ++ (value.map Value.typeName).getD "no value"

def textArgument (value : Option Value) : Except String Bytes :=
  match value.bind Value.bytes? with
  | some s => .ok s
  | none => .error (unexpected "string" value)

def intArgument (value : Option Value) : Except String Int64 :=
  match value.bind Value.int? with
  | some n => .ok n
  | none =>
      match value.bind Value.number? with
      | some _ => .error "number has no integer representation"
      | none => .error (unexpected "number" value)

def optional {α : Type} (read : Option Value → Except String α) (default : α) :
    Option Value → Except String α
  | none | some .nil => .ok default
  | value => read value

/-! ### Functions of the library -/

/-- The functions that are under way, by their level: who called the function is at level one. -/
def placeAt (machine : Machine) (site : Site) (level : Int) : Bytes :=
  let active : List Caller :=
    match site with
    | .script => .script machine.frame :: machine.callers
    | .guard => machine.callers
  match active[(level - 1).toNat]? with
  | some (.script frame) => if level ≤ 0 then .empty else place frame
  | _ => .empty

def memoryText : Bytes := .ofString "not enough memory"

/-- `error`: a text is told the place of a level, unless the level is zero.  A text that says that
memory is exhausted is taken at its word. -/
def raiseError (machine : Machine) (call : Invocation) : Step :=
  let arguments := machine.arguments call
  match optional intArgument 1 arguments[1]? with
  | .error problem => machine.badArgument call 2 problem
  | .ok level =>
      let level := Int.bmod level.toInt (Nat.pow 2 32)
      match arguments.headD .nil with
      | .text s =>
          let message :=
            if 0 < level then machine.placeAt call.site level ++ s.bytes else s.bytes
          if message == memoryText then machine.raise .memory
          else machine.raise (.value (.text { s with bytes := message }))
      | v => machine.raise (.value v)

/-- The largest text that is put together by repetition. -/
def maxRepeated : Nat := Nat.pow 2 31 - 1

/-- The largest text that is put together without a buffer. -/
def maxUnbuffered : Nat := 1024

/-- `string.rep`: a text is put together in a buffer and then copied. -/
def repeatText (machine : Machine) (call : Invocation) : Step :=
  let arguments := machine.arguments call
  match textArgument arguments[0]?, intArgument arguments[1]?,
    optional textArgument .empty arguments[2]? with
  | .error problem, _, _ => machine.badArgument call 1 problem
  | _, .error problem, _ => machine.badArgument call 2 problem
  | _, _, .error problem => machine.badArgument call 3 problem
  | .ok s, .ok n, .ok separator =>
      let times := n.toNatClampNeg
      if times = 0 then machine.answer call [.text { bytes := .empty }]
      else if maxRepeated / times < s.size + separator.size then
        machine.raiseAt call.site "resulting string too large"
      else
        let size := times * s.size + (times - 1) * separator.size
        let needed := if size ≤ maxUnbuffered then size else 2 * size
        if machine.hasRoom (call.slot + 1 + call.given) machine.room needed then
          let (value, machine) := machine.newText (s.repeated separator times)
          machine.answer call [value]
        else machine.raise .memory

/-! ### Functions of the host -/

/-- A failure of a host function to take its first argument as what it needs. -/
def refuseArgument (machine : Machine) (source target reason : String) : Step :=
  machine.raise (.host
    ("bad argument #1: error converting Lua " ++ source ++ " to " ++ target ++ " (" ++ reason ++
      ")"))

/-- Does something with the first argument as text. -/
def withHostText (machine : Machine) (call : Invocation) (action : Machine → String → Step) :
    Step :=
  let value := (machine.arguments call).headD .nil
  match value.bytes? with
  | none => machine.refuseArgument value.hostType "String" "expected string or number"
  | some s =>
      match s.text? with
      | .ok text => action machine text
      | .error fault => machine.refuseArgument value.hostType "String" fault.message

/-- Does something with the first argument as a whole number. -/
def withHostInt (machine : Machine) (call : Invocation) (action : Machine → Int64 → Step) : Step :=
  let value := (machine.arguments call).headD .nil
  match value.truncated?, value.number? with
  | some n, _ => action machine n
  | none, some _ => machine.refuseArgument value.hostType "i64" "out of range"
  | none, none =>
      machine.refuseArgument value.hostType "i64" "expected number or string coercible to number"

/-- Cancels a context; of a name that nobody has nothing comes. -/
def cancelNamed (machine : Machine) (name : String) : Machine :=
  match machine.world.book.get? name with
  | none => machine
  | some context => machine.undergo (.cancel context.token)

def invoke (machine : Machine) (call : Invocation) (builtin : Builtin) : Step :=
  match builtin with
  | .raise => machine.raiseError call
  | .repeatText => machine.repeatText call
  | .hostCancel =>
      machine.withHostText call fun machine name => (machine.cancelNamed name).answer call []
  | .hostAdvance =>
      machine.withHostInt call fun machine ms =>
        (machine.undergo (.advance ms.toInt)).answer call []
  | .hostFail => machine.withHostText call fun machine message => machine.raise (.host message)
  | .protect | .other _ => machine.raise .halt

/-! ### Calling a value -/

def depth (machine : Machine) : Nat := machine.guards + 1

/-- Calls a function of a script.  The last call that a function does takes its place on the
stack. -/
def callClosure (machine : Machine) (site : Site) (closure : Closure) (slot given : Nat)
    (wanted : Count) (isLast : Bool) : Step :=
  match site, isLast with
  | .guard, _ => machine.start site closure slot given wanted machine.callers
  | .script, false =>
      machine.start site closure slot given wanted (.script machine.frame :: machine.callers)
  | .script, true =>
      let frame := machine.frame
      let lowered := frame.base - 1 - frame.slot
      match machine.claimSlots (slot + 1 + given) (closure.code.window - lowered) with
      | .error obstacle => machine.obstruct site obstacle
      | .ok machine =>
          let moved := machine.slice slot (slot + 1 + given)
          (machine.putAll frame.slot moved).start site closure frame.slot given frame.wanted
            machine.callers

def calledText (machine : Machine) : Site → String
  | .script =>
      match machine.frame.closure.code.calleeName? machine.frame.pc with
      | some name => name.text
      | none => ""
  | .guard => ""

/-- Calls a value that makes no calls of its own on the stack. -/
def callPlain (machine : Machine) (call : Invocation) (callee : Value) : Step :=
  match callee with
  | .closure closure =>
      machine.callClosure call.site closure call.slot call.given call.wanted call.isLast
  | .builtin builtin =>
      match machine.claimSlots (call.slot + 1 + call.given) builtinSlots with
      | .error obstacle => machine.obstruct call.site obstacle
      | .ok machine =>
          match builtin with
          | .protect => machine.badArgument call 1 "value expected"
          | builtin => machine.invoke call builtin
  | v =>
      machine.raiseAt call.site
        ("attempt to call a " ++ v.typeName ++ " value" ++ machine.calledText call.site)

def guard (machine : Machine) (call : Invocation) : Except Obstacle Machine := do
  let machine ← machine.claimSlots (call.slot + 1 + call.given) builtinSlots
  let waiting : List Caller :=
    match call.site with
    | .script => .script machine.frame :: machine.callers
    | .guard => machine.callers
  let machine := machine.putAll (call.slot + 1) (.bool true :: machine.arguments call)
  let callers := .guard call.slot call.wanted call.isLast :: waiting
  return { machine with callers, guards := machine.guards + 1 }

def callValue (machine : Machine) (site : Site) (slot : Nat) (wanted : Count) (isLast : Bool) :
    Nat → Step
  | 0 =>
      machine.callPlain { site, slot, given := 0, wanted, isLast } (machine.peek slot)
  | given + 1 =>
      let call : Invocation := { site, slot, given := given + 1, wanted, isLast }
      match machine.peek slot with
      | .builtin .protect =>
          match machine.guard call with
          | .error obstacle => machine.obstruct site obstacle
          | .ok machine =>
              if maxNested ≤ machine.depth then machine.raiseAt .guard "C stack overflow"
              else machine.callValue .guard (slot + 2) none false given
      | callee => machine.callPlain call callee

end Machine

end StatePool.Script
