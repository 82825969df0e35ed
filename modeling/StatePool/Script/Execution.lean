import StatePool.Script.Builtin

/-!
Running code, an instruction at a time.

Every thousandth instruction waits for the watchdog to look first.
-/

namespace StatePool.Script.Machine

/-! ### Tables -/

/-- The member of a table; a text has the members of the library of texts. -/
def member? (machine : Machine) (table : Value) (key : Bytes) : Option Value :=
  match table with
  | .library name =>
      if name = Library.globals then some (machine.interp.getGlobal key)
      else some (Library.member name key.lossy)
  | .text _ => some (Library.member "string" key.lossy)
  | _ => none

def readMember (machine : Machine) (target : Nat) (table key : Value) (name : String) : Step :=
  let indexing (value : Option Value) : Step :=
    match value with
    | some value => .running (machine.write target value).advance
    | none =>
        machine.complain ("attempt to index a " ++ table.typeName ++ " value" ++ name)
  match key with
  | .text key => indexing (machine.member? table key.bytes)
  | _ => indexing ((machine.member? table .empty).map fun _ => .nil)

/-- Sets a global variable; the other tables stay as they are. -/
def assignMember (machine : Machine) (table key value : Value) (name : String) : Step :=
  match table, key with
  | .library library, .text key =>
      if library = Library.globals then
        let interp := machine.interp
        let machine := { machine with interp := default }
        .running { machine with interp := interp.setGlobal key.bytes value }.advance
      else machine.raise .halt
  | .library _, _ => machine.raise .halt
  | _, _ => machine.complain ("attempt to index a " ++ table.typeName ++ " value" ++ name)

def upvalueText (machine : Machine) (upvalue : Nat) : String :=
  ValueName.text ⟨"upvalue", machine.frame.closure.code.upvalueName upvalue⟩

def readUpvalue (machine : Machine) (upvalue : Nat) : Value :=
  machine.readCell (machine.frame.closure.cells.getD upvalue 0)

/-! ### Operators -/

def arithTarget (machine : Machine) : Nat :=
  match machine.frame.closure.code.instruction (machine.frame.pc - 1) with
  | .arith _ target _ _ => target
  | _ => 0

def readyTextArith (machine : Machine) : Except Obstacle Machine :=
  if maxNested ≤ machine.depth + 1 then .error (.text "C stack overflow")
  else
    machine.claimSlots (machine.frame.base + machine.frame.closure.code.window + 3) builtinSlots

def textArith (machine : Machine) (target : Nat) (verb : String) (left right : Value)
    (apply : Number → Number → Number) : Step :=
  match machine.readyTextArith with
  | .error obstacle => machine.obstruct .script obstacle
  | .ok machine =>
      match left.number?, right.number? with
      | some a, some b => .running (machine.write target (.number (apply a b))).advance
      | _, _ =>
          machine.complain
            ("attempt to " ++ verb ++ " a '" ++ left.typeName ++ "' with a '" ++ right.typeName ++
              "'")

def sourceText (machine : Machine) : Source → String
  | .register r => machine.nameText r
  | .constant _ => ""

def otherArith (machine : Machine) (op : ArithOp) (left right : Source) : Step :=
  let a := machine.source left
  let b := machine.source right
  if a.isText || b.isText then machine.textArith machine.arithTarget op.verb a b op.apply
  else
    let (wrong, value) :=
      match a with
      | .number _ => (right, b)
      | _ => (left, a)
    machine.complain
      ("attempt to perform arithmetic on a " ++ value.typeName ++ " value" ++
        machine.sourceText wrong)

def negate (machine : Machine) (target source : Nat) : Step :=
  match machine.read source with
  | .number n => .running (machine.write target (.number n.negate)).advance
  | .text s =>
      machine.textArith target "unm" (.text s) (.text s) fun a _ => a.negate
  | v => machine.complainAbout "perform arithmetic on" v source

/-- The operand that cannot be joined, counted from the right: of the last two the left one is
looked at first. -/
def unjoinable? (reversed : List Value) : Option Nat :=
  let isBad (v : Value) : Bool := v.bytes?.isNone
  match reversed with
  | last :: other :: _ =>
      if isBad other then some 1 else if isBad last then some 0 else reversed.findIdx? isBad
  | _ => none

/-- Joins texts; if all but one are empty, that one is the result. -/
def concat (machine : Machine) (first count : Nat) : Step :=
  let slot := machine.frame.base + first
  let values := machine.slice slot (slot + count)
  match unjoinable? values.reverse with
  | some fromRight =>
      let register := first + count - 1 - fromRight
      machine.complainAbout "concatenate" (machine.read register) register
  | none =>
      let isFilled (v : Value) : Bool := v.bytes?.any fun s => !s.isEmpty
      match values.filter isFilled with
      | [] => .running (machine.write first (.text { bytes := .empty })).advance
      | [.text s] => .running (machine.write first (.text s)).advance
      | filled =>
          let bytes := filled.filterMap Value.bytes?
          let size := bytes.foldl (fun size s => size + s.size) 0
          if machine.hasRoom (slot + count) machine.room size then
            let joined := bytes.foldl (fun all s => all ++ s) Bytes.empty
            let (value, machine) := machine.newText joined
            .running (machine.write first value).advance
          else machine.raise .memory

/-! ### Counting loops -/

def complainLoop (machine : Machine) (part : String) (value : Value) : Step :=
  machine.complain
    ("bad 'for' " ++ part ++ " (number expected, got " ++ value.typeName ++ ")")

/-- The last value that an integer loop may reach: the limit rounded towards the start and clipped
to the integers; none if no integer can be reached. -/
def loopLimit (limit : Number) (upward : Bool) : Option Int64 :=
  match limit with
  | .int n => some n
  | .nan _ => if upward then none else some Int64.minValue
  | .float x =>
      match Number.floatToInt? (if upward then x.floor else x.ceil) with
      | some n => some n
      | none =>
          if 0 < x then if upward then some Int64.maxValue else none
          else if upward then none else some Int64.minValue

/-- How many rounds follow the first one, if there is a first one. -/
def roundsAfter (first limit step : Int64) : Option Int64 :=
  let way := if 0 < step.toInt then limit.toInt - first.toInt else first.toInt - limit.toInt
  if way < 0 then none else some (Int64.ofInt (way / step.toInt.natAbs))

def prepareIntLoop (machine : Machine) (base exit : Nat) (first step : Int64) : Step :=
  let limit := machine.read (base + 1)
  if step = 0 then machine.complain "'for' step is zero"
  else
    match limit.number? with
    | none => machine.complainLoop "limit" limit
    | some n =>
        match (loopLimit n (0 < step.toInt)).bind fun last => roundsAfter first last step with
        | none => .running (machine.go exit)
        | some rounds =>
            let machine := machine.write (base + 1) (.int rounds)
            .running (machine.write (base + 3) (.int first)).advance

/-- Whether a loop over floats runs from a value on. -/
def floatLoopRuns (current limit step : Float) : Bool :=
  if 0 < step then current ≤ limit else limit ≤ current

def prepareFloatLoop (machine : Machine) (base exit : Nat) : Step :=
  let first := machine.read base
  let limit := machine.read (base + 1)
  let step := machine.read (base + 2)
  match first.number?, limit.number?, step.number? with
  | _, none, _ => machine.complainLoop "limit" limit
  | _, _, none => machine.complainLoop "step" step
  | none, _, _ => machine.complainLoop "initial value" first
  | some first, some limit, some step =>
      let step := step.toFloat
      let skips :=
        if 0 < step then limit.toFloat < first.toFloat else first.toFloat < limit.toFloat
      let keep (n : Number) : Value := .number (.ofFloat n.toFloat)
      if step == 0 then machine.complain "'for' step is zero"
      else if skips then .running (machine.go exit)
      else
        let values := [keep first, keep limit, keep (.ofFloat step), keep first]
        .running (machine.putAll (machine.frame.base + base) values).advance

def prepareLoop (machine : Machine) (base exit : Nat) : Step :=
  match machine.read base, machine.read (base + 2) with
  | .number (.int first), .number (.int step) => machine.prepareIntLoop base exit first step
  | _, _ => machine.prepareFloatLoop base exit

/-- Starts the next round of a loop, if there is one. -/
def repeatLoop (machine : Machine) (base body : Nat) : Machine :=
  match machine.read base, machine.read (base + 1), machine.read (base + 2) with
  | .number (.int current), .number (.int rounds), .number (.int step) =>
      if rounds = 0 then machine.advance
      else
        let current := current + step
        let values := [.int current, .int (rounds - 1), .int step, .int current]
        (machine.putAll (machine.frame.base + base) values).go body
  | .number current, .number limit, .number step =>
      let next := current.toFloat + step.toFloat
      if floatLoopRuns next limit.toFloat step.toFloat then
        let value : Value := .number (.ofFloat next)
        ((machine.write base value).write (base + 3) value).go body
      else machine.advance
  | _, _, _ => machine.advance

/-! ### Functions -/

/-- The cells that a new function captures, each from a register or from the running function. -/
def capture : List Upvalue → Machine → List Nat × Machine
  | [], machine => ([], machine)
  | upvalue :: upvalues, machine =>
      let (cell, machine) :=
        if upvalue.inRegister then machine.share (machine.frame.base + upvalue.index)
        else (machine.frame.closure.cells.getD upvalue.index 0, machine)
      let (cells, machine) := capture upvalues machine
      (cell :: cells, machine)

def makeClosure (machine : Machine) (target number : Nat) : Machine :=
  let running := machine.frame.closure
  let code := running.chunk.functions.getD number default
  let (cells, machine) := capture code.upvalues.toList machine
  let (id, machine) := machine.newObject
  (machine.write target (.closure { running with id, number, cells := cells.toArray })).advance

def readExtra (machine : Machine) (target : Nat) (count : Count) : Step :=
  let frame := machine.frame
  let extra := machine.slice (frame.base - 1 - frame.extra) (frame.base - 1)
  let slot := frame.base + target
  match machine.claimSlots slot (count.getD frame.extra) with
  | .error obstacle => machine.obstruct .script obstacle
  | .ok machine => .running (machine.accept slot count extra).advance

/-- How many values lie from a slot on; a number that is left to the run reaches up to the top. -/
def countFrom (machine : Machine) (slot : Nat) (count : Count) : Nat :=
  count.getD (machine.top - slot)

def call (machine : Machine) (base : Nat) (arguments results : Count) (isLast : Bool) : Step :=
  let slot := machine.frame.base + base
  let given := machine.countFrom (slot + 1) arguments
  machine.callValue .script slot results isLast given

def ret (machine : Machine) (first : Nat) (count : Count) : Step :=
  let frame := machine.frame
  let slot := frame.base + first
  let values := machine.slice slot (slot + machine.countFrom slot count)
  (machine.partFrom frame.base).complete values frame.slot frame.wanted false machine.callers

/-! ### Instructions -/

/-- Goes on behind a test: the jump there is taken, or passed over. -/
def branch (machine : Machine) (taken : Bool) : Machine :=
  let next := machine.frame.pc + 1
  if taken then
    match machine.frame.closure.code.instruction next with
    | .jump target => machine.go target
    | _ => machine.go next
  else machine.go (next + 1)

def step (machine : Machine) : Step :=
  match machine.frame.closure.code.instruction machine.frame.pc with
  | .move target source => .running (machine.write target (machine.read source)).advance
  | .load target value => .running (machine.write target (.ofConstant value)).advance
  | .loadNil first count =>
      let values := List.replicate count Value.nil
      .running (machine.putAll (machine.frame.base + first) values).advance
  | .loadFalseSkip target =>
      .running ((machine.write target (.bool false)).go (machine.frame.pc + 2))
  | .getUpvalue target upvalue =>
      .running (machine.write target (machine.readUpvalue upvalue)).advance
  | .setUpvalue upvalue source =>
      let cell := machine.frame.closure.cells.getD upvalue 0
      .running (machine.writeCell cell (machine.read source)).advance
  | .indexUpvalue target upvalue key =>
      machine.readMember target (machine.readUpvalue upvalue) (.text { bytes := key })
        (machine.upvalueText upvalue)
  | .indexKey target table key =>
      machine.readMember target (machine.read table) (.text { bytes := key })
        (machine.nameText table)
  | .index target table key =>
      machine.readMember target (machine.read table) (machine.read key) (machine.nameText table)
  | .assignUpvalue upvalue key source =>
      machine.assignMember (machine.readUpvalue upvalue) (.text { bytes := key })
        (machine.source source) (machine.upvalueText upvalue)
  | .assignKey table key source =>
      machine.assignMember (machine.read table) (.text { bytes := key }) (machine.source source)
        (machine.nameText table)
  | .assign table key source =>
      machine.assignMember (machine.read table) (machine.read key) (machine.source source)
        (machine.nameText table)
  | .arith op target left right =>
      match machine.source left, machine.source right with
      | .number a, .number b =>
          .running ((machine.write target (.number (op.apply a b))).go (machine.frame.pc + 2))
      | _, _ => .running machine.advance
  | .arithOther op left right => machine.otherArith op left right
  | .negate target source => machine.negate target source
  | .not target source =>
      .running (machine.write target (.bool !(machine.read source).isTruthy)).advance
  | .concat first count => machine.concat first count
  | .equal left right expected =>
      let outcome := (machine.read left).same (machine.source right)
      .running (machine.branch (outcome == expected))
  | .test source expected =>
      .running (machine.branch ((machine.read source).isTruthy == expected))
  | .testSet target source expected =>
      let value := machine.read source
      if value.isTruthy == expected then .running ((machine.write target value).branch true)
      else .running (machine.branch false)
  | .jump target => .running (machine.go target)
  | .call base arguments results => machine.call base arguments results false
  | .tailCall base arguments =>
      (machine.partFrom machine.frame.base).call base arguments none true
  | .ret first count => machine.ret first count
  | .forPrepare base exit => machine.prepareLoop base exit
  | .forLoop base body => .running (machine.repeatLoop base body)
  | .varargs target count => machine.readExtra target count
  | .varargsPrepare _ => .running machine.advance
  | .closure target number => .running (machine.makeClosure target number)
  | .close first => .running (machine.partFrom (machine.frame.base + first)).advance
  | .beyond _ | .beyondTest => machine.raise .halt

/-! ### Runs -/

def watchInterval : Nat := 1000

inductive Stretch where
  /-- The watchdog is to look before the next instruction. -/
  | paused (machine : Machine)
  | finished (machine : Machine) (result : Except Raise (List Value))

/-- Carries out instructions up to the next look of the watchdog. -/
def stretch : Nat → Machine → Stretch
  | 0, machine => .paused machine
  | left + 1, machine =>
      match machine.step with
      | .running machine => stretch left machine
      | .finished machine result =>
          .finished { machine with interp.instructions := watchInterval - 1 - left } result

def tripText : Trip → String
  | .cancelled => "execution cancelled"
  | .timedOut => "execution timed out"

/-- What the watchdog says comes before the instruction that waits for it. -/
def afterLook (machine : Machine) : Option Trip → Step
  | none => machine.step
  | some trip => machine.raise (.host (tripText trip))

/-- What the watchdog is shown of a machine: all but the stack. -/
def view (machine : Machine) : Machine :=
  { interp := machine.interp, world := machine.world, effects := machine.effects }

/-- Runs the machine; the bound is on the number of looks. -/
def run : Nat → Run (List Value)
  | 0, machine => .finish machine (.error .halt)
  | bound + 1, machine =>
      match stretch (watchInterval - 1 - machine.interp.instructions) machine with
      | .finished machine result => .finish machine result
      | .paused machine =>
          let machine := { machine with interp.instructions := 0 }
          .look machine.view fun trip =>
            match machine.afterLook trip with
            | .running machine => run bound machine
            | .finished machine result => .finish machine result

end StatePool.Script.Machine
