import StatePool.Script.Code
import StatePool.Script.Lexeme

/-!
Functions whose code is being written, and the steps of writing it.

A chunk is read and its code written in one pass.  While a function is open its registers are given
out like a stack: local variables have the lowest ones, and values that wait for their use stand
above them.
-/

namespace StatePool.Script

/-- Why a chunk does not compile. -/
inductive CompileFault where
  | unparsable (line : Nat)
  /-- Its parts are nested too deep. -/
  | tooDeep
  deriving DecidableEq, Repr

/-- The part of a function in which its local variables live. -/
structure Block where
  /-- How many variables, labels and pending jumps there were at its start. -/
  locals : Nat
  labels : Nat
  pending : Nat
  isLoop : Bool
  /-- Whether an inner function uses one of its variables. -/
  captured : Bool := false
  deriving Inhabited

structure Label where
  name : String
  target : Nat
  locals : Nat

/-- Jumps to a label that was not met yet. -/
structure PendingJump where
  name : String
  jumps : List Nat
  locals : Nat
  /-- Whether it leaves a block with captured variables. -/
  parts : Bool := false

structure Draft where
  instructions : Array Instruction := #[]
  lines : Array Nat := #[]
  constants : Array Constant := #[]
  parameters : Nat := 0
  variadic : Bool := false
  window : Nat := 2
  upvalues : Array Upvalue := #[]
  spans : Array LocalSpan := #[]
  /-- The spans of the variables that can be seen; the register of each is its position. -/
  visible : Array Nat := #[]
  /-- Variables that were named and cannot be seen yet. -/
  declared : List String := []
  /-- The first free register. -/
  free : Nat := 0
  /-- The last instruction that is known to be a target of jumps. -/
  lastTarget : Nat := 0
  /-- The innermost block first. -/
  blocks : List Block := []
  labels : Array Label := #[]
  pending : Array PendingJump := #[]

instance : Inhabited Draft := ⟨{}⟩

namespace Draft

def toCode (draft : Draft) : Code where
  instructions := draft.instructions
  lines := draft.lines
  parameters := draft.parameters
  variadic := draft.variadic
  window := draft.window
  upvalues := draft.upvalues
  locals := draft.spans

def spanOf (draft : Draft) (register : Nat) : Nat := draft.visible.getD register 0

def localName (draft : Draft) (register : Nat) : String :=
  ((draft.spans[draft.spanOf register]?).map LocalSpan.name).getD ""

/-- The register of a variable; of several of one name the latest is meant. -/
def findLocal? (draft : Draft) (name : String) : Option Nat :=
  (List.range draft.visible.size).reverse.find? fun register => draft.localName register == name

def findUpvalue? (draft : Draft) (name : String) : Option Nat :=
  draft.upvalues.findIdx? fun upvalue => upvalue.name == name

/-- Notes that an inner function uses a variable: the innermost block that holds it has to part it
from its register. -/
def capture (draft : Draft) (register : Nat) : Draft :=
  let rec mark : List Block → List Block
    | [] => []
    | block :: outer =>
        if register < block.locals then block :: mark outer
        else { block with captured := true } :: outer
  { draft with blocks := mark draft.blocks }

end Draft

structure Compilation where
  rest : List Placed
  /-- The line of the lexeme that was read last. -/
  lastLine : Nat := 1
  depth : Nat := 0
  draft : Draft := {}
  outer : List Draft := []
  functions : Array Code := #[]

abbrev Compile := StateT Compilation (Except CompileFault)

namespace Compile

def maxLocals : Nat := 200

def maxUpvalues : Nat := 255

def maxRegisters : Nat := 255

/-- The most constants that the instructions of a function can have as operands; they are those that
it uses first. -/
def maxOperandConstants : Nat := 256

/-! ### Reading lexemes -/

def here : Compile Lexeme := do
  match (← get).rest with
  | [] => return .stop
  | placed :: _ => return placed.lexeme

def line : Compile Nat := do
  match (← get).rest with
  | [] => return (← get).lastLine
  | placed :: _ => return placed.line

def refuse {α : Type} : Compile α := do
  throw (.unparsable (← line))

/-- Goes on to the next lexeme; past the last one there is nothing. -/
def advance : Compile Unit := do
  let line ← line
  modify fun c =>
    let rest :=
      match c.rest with
      | _ :: next :: rest => next :: rest
      | rest => rest
    { c with lastLine := line, rest }
  match ← here with
  | .faulty => refuse
  | _ => return

def isMark (symbol : String) : Lexeme → Bool
  | .mark m => m == symbol
  | _ => false

def isReserved (word : String) : Lexeme → Bool
  | .reserved w => w == word
  | _ => false

/-- Passes a symbol if it stands here. -/
def passMark (symbol : String) : Compile Bool := do
  if isMark symbol (← here) then
    advance
    return true
  else return false

def passReserved (word : String) : Compile Bool := do
  if isReserved word (← here) then
    advance
    return true
  else return false

def needMark (symbol : String) : Compile Unit := do
  unless ← passMark symbol do refuse

def needReserved (word : String) : Compile Unit := do
  unless ← passReserved word do refuse

def needName : Compile String := do
  match ← here with
  | .name x =>
      advance
      return x
  | _ => refuse

/-! ### Writing instructions -/

def draft : Compile Draft := return (← get).draft

def modifyDraft (f : Draft → Draft) : Compile Unit :=
  modify fun c => { c with draft := f c.draft }

def position : Compile Nat := return (← draft).instructions.size

/-- Writes an instruction and yields its position. -/
def emit (instruction : Instruction) : Compile Nat := do
  let position ← position
  modify fun c =>
    { c with
      draft.instructions := c.draft.instructions.push instruction
      draft.lines := c.draft.lines.push c.lastLine }
  return position

/-- Gives the last instruction another line. -/
def fixLine (line : Nat) : Compile Unit :=
  modifyDraft fun d => { d with lines := d.lines.pop.push line }

def patch (position : Nat) (f : Instruction → Instruction) : Compile Unit :=
  modifyDraft fun d => { d with instructions := d.instructions.modify position f }

def instructionAt (position : Nat) : Compile Instruction :=
  return (← draft).instructions.getD position default

/-- Takes the last instruction back. -/
def retract : Compile Unit :=
  modifyDraft fun d => { d with instructions := d.instructions.pop, lines := d.lines.pop }

def label : Compile Nat := do
  let position ← position
  modifyDraft fun d => { d with lastTarget := position }
  return position

/-- The last instruction, unless jumps lead past it. -/
def previous? : Compile (Option Instruction) := do
  let draft ← draft
  if draft.lastTarget < draft.instructions.size then
    return draft.instructions.back?
  else return none

/-- Notes a constant and tells whether instructions can have it as an operand. -/
def pool (constant : Constant) : Compile Bool := do
  let constants := (← draft).constants
  if constants.any (constant.same ·) then return true
  else if constants.size < maxOperandConstants then
    modifyDraft fun d => { d with constants := d.constants.push constant }
    return true
  else return false

/-! ### Registers -/

def localCount : Compile Nat := return (← draft).visible.size

def needRegisters (count : Nat) : Compile Unit := do
  let draft ← draft
  let needed := draft.free + count
  if draft.window < needed then
    if maxRegisters ≤ needed then refuse
    modifyDraft fun d => { d with window := needed }

def reserve (count : Nat) : Compile Unit := do
  needRegisters count
  modifyDraft fun d => { d with free := d.free + count }

/-- Frees a register unless it belongs to a variable. -/
def release (register : Nat) : Compile Unit := do
  if (← localCount) ≤ register then
    modifyDraft fun d => { d with free := d.free - 1 }

def setFree (register : Nat) : Compile Unit :=
  modifyDraft fun d => { d with free := register }

/-! ### Jumps -/

/-- Writes a jump whose target is not known yet. -/
def jump : Compile Nat := emit (.jump 0)

def aim (jump target : Nat) : Compile Unit := patch jump fun _ => .jump target

/-- The instruction that decides about a jump: the test before it, if there is one. -/
def control (jump : Nat) : Compile Nat := do
  if jump = 0 then return jump
  else if (← instructionAt (jump - 1)).isTest then return jump - 1
  else return jump

/-- Settles where a test leaves the value that it tests; without a register for it, or where it
stands in that register already, the value is only tested. -/
def settleTest (jump : Nat) (register : Option Nat) : Compile Bool := do
  let position ← control jump
  match ← instructionAt position with
  | .testSet _ source expected =>
      match register with
      | some target =>
          if target ≠ source then patch position fun _ => .testSet target source expected
          else patch position fun _ => .test source expected
      | none => patch position fun _ => .test source expected
      return true
  | _ => return false

/-- Aims jumps: those that carry a value into a register at one target, all others at another. -/
def aimAll (withValue : Nat) (register : Option Nat) (plain : Nat) : List Nat → Compile Unit
  | [] => return
  | jump :: jumps => do
      let carries ← settleTest jump register
      aim jump (if carries then withValue else plain)
      aimAll withValue register plain jumps

def aimAt (jumps : List Nat) (target : Nat) : Compile Unit :=
  aimAll target none target jumps

def aimHere (jumps : List Nat) : Compile Unit := do
  aimAt jumps (← label)

def dropValues : List Nat → Compile Unit
  | [] => return
  | jump :: jumps => do
      let _ ← settleTest jump none
      dropValues jumps

/-- Whether one of some jumps carries no value of its own. -/
def someWithoutValue : List Nat → Compile Bool
  | [] => return false
  | jump :: jumps => do
      match ← instructionAt (← control jump) with
      | .testSet .. => someWithoutValue jumps
      | _ => return true

/-! ### Variables -/

def declare (name : String) : Compile Unit := do
  let draft ← draft
  if maxLocals < draft.visible.size + draft.declared.length + 1 then refuse
  modifyDraft fun d => { d with declared := d.declared ++ [name] }

/-- Lets the first of the declared variables be seen from here on. -/
def reveal : Nat → Compile Unit
  | 0 => return
  | count + 1 => do
      modifyDraft fun d =>
        match d.declared with
        | [] => d
        | name :: declared =>
            { d with
              declared
              visible := d.visible.push d.spans.size
              spans := d.spans.push ⟨name, d.instructions.size, 0⟩ }
      reveal count

def hideFrom (register : Nat) : Compile Unit :=
  modifyDraft fun d =>
    let ended := d.visible.extract register d.visible.size
    let finish (spans : Array LocalSpan) (span : Nat) : Array LocalSpan :=
      spans.modify span fun s => { s with stop := d.instructions.size }
    { d with visible := d.visible.extract 0 register, spans := ended.foldl finish d.spans }

/-! ### Blocks and labels -/

def openBlock (isLoop : Bool) : Compile Unit :=
  modifyDraft fun d =>
    { d with
      blocks := ⟨d.visible.size, d.labels.size, d.pending.size, isLoop, false⟩ :: d.blocks }

def block : Compile Block := return (← draft).blocks.headD default

/-- Aims the pending jumps of the current block that belong to a label at it; tells whether one of
them parts variables.  A jump may not enter the range of a variable. -/
def resolve (label : Label) : List PendingJump → Compile (List PendingJump × Bool)
  | [] => return ([], false)
  | jump :: jumps => do
      if jump.name == label.name then
        if jump.locals < label.locals then refuse
        aimAt jump.jumps label.target
        let (left, parts) ← resolve label jumps
        return (left, parts || jump.parts)
      else
        let (left, parts) ← resolve label jumps
        return (jump :: left, parts)

/-- Puts a label here; one at the end of its block counts as outside of the block's variables.
Tells whether variables had to be parted. -/
def putLabel (name : String) (atEnd : Bool) : Compile Bool := do
  let target ← label
  let block ← block
  let count ← localCount
  let locals := if atEnd then block.locals else count
  let label : Label := ⟨name, target, locals⟩
  let pending := (← draft).pending
  modifyDraft fun d => { d with labels := d.labels.push label }
  let (left, parts) ← resolve label (pending.toList.drop block.pending)
  modifyDraft fun d => { d with pending := pending.extract 0 block.pending ++ left.toArray }
  if parts then
    let _ ← emit (.close count)
  return parts

/-- The label that a `break` leads to. -/
def breakName : String := "break"

/-- Leaves a block.  Jumps that are still pending then leave the block around it; from the body of a
function none may be left. -/
def closeBlock : Compile Unit := do
  let block ← block
  hideFrom block.locals
  let parted ← if block.isLoop then putLabel breakName false else pure false
  let isInner := 1 < (← draft).blocks.length
  if !parted && isInner && block.captured then
    let _ ← emit (.close block.locals)
  setFree block.locals
  modifyDraft fun d =>
    { d with labels := d.labels.extract 0 block.labels, blocks := d.blocks.tail }
  if isInner then
    let leave (jump : PendingJump) : PendingJump :=
      { jump with
        parts := jump.parts || (block.locals < jump.locals && block.captured)
        locals := block.locals }
    modifyDraft fun d =>
      { d with
        pending := d.pending.extract 0 block.pending ++
          (d.pending.extract block.pending d.pending.size).map leave }
  else if block.pending < (← draft).pending.size then refuse

def await (name : String) (jumps : List Nat) : Compile Unit := do
  let locals ← localCount
  modifyDraft fun d => { d with pending := d.pending.push ⟨name, jumps, locals, false⟩ }

/-! ### Functions -/

def openFunction : Compile Unit := do
  modify fun c => { c with draft := {}, outer := c.draft :: c.outer }
  openBlock false

/-- Where a chain of jumps leads in the end. -/
def destination (instructions : Array Instruction) : Nat → Nat → Nat
  | 0, position => position
  | bound + 1, position =>
      match instructions[position]? with
      | some (.jump target) => destination instructions bound target
      | _ => position

def maxChain : Nat := 100

/-- Lets the jump at a position, if there is one, lead to where it leads in the end. -/
def straightenAt (instructions : Array Instruction) (position : Nat) : Array Instruction :=
  match instructions[position]? with
  | some (.jump _) =>
      instructions.setIfInBounds position (.jump (destination instructions maxChain position))
  | _ => instructions

def straighten (instructions : Array Instruction) : Array Instruction :=
  (List.range instructions.size).foldl straightenAt instructions

/-- Ends the current function and yields its number. -/
def closeFunction : Compile Nat := do
  let _ ← emit (.ret (← localCount) (some 0))
  closeBlock
  let c ← get
  let code := { c.draft with instructions := straighten c.draft.instructions }.toCode
  set
    { c with
      draft := c.outer.headD {}, outer := c.outer.tail, functions := c.functions.push code }
  return c.functions.size

end Compile

end StatePool.Script
