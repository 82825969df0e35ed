import StatePool.Script.Operand

/-!
Chunks: from lexemes to code.

The grammar is that of the whole language but for attributes of local variables.  Where a text does
not parse, the line of the first lexeme that cannot continue it is all that is told.  Every reading
function has a bound on how deep it calls others; the number of lexemes gives one that suffices.
-/

namespace StatePool.Script

namespace Compile

def maxDepth : Nat := 200

def enter : Compile Unit := do
  let depth := (← get).depth + 1
  if maxDepth ≤ depth then throw .tooDeep
  modify fun c => { c with depth }

def leave (levels : Nat) : Compile Unit :=
  modify fun c => { c with depth := c.depth - levels }

/-- Whether a block ends here. -/
def atBlockEnd (withUntil : Bool) : Compile Bool := do
  match ← here with
  | .stop => return true
  | .reserved w => return w == "end" || w == "else" || w == "elseif" || (withUntil && w == "until")
  | _ => return false

/-! ### Names -/

inductive Meaning where
  | variable (register : Nat)
  | upvalue (index : Nat)
  | unknown

def addUpvalue (upvalue : Upvalue) (draft : Draft) : Except Unit (Meaning × Draft) :=
  if maxUpvalues < draft.upvalues.size + 1 then .error ()
  else
    .ok (.upvalue draft.upvalues.size, { draft with upvalues := draft.upvalues.push upvalue })

/-- Looks a name up in a function and in those around it, and hands a variable that it finds down
through all of them. -/
def lookUp (name : String) : Bool → List Draft → Except Unit (Meaning × List Draft)
  | _, [] => .ok (.unknown, [])
  | isInnermost, draft :: outer =>
      match draft.findLocal? name, draft.findUpvalue? name with
      | some register, _ =>
          .ok (.variable register, (if isInnermost then draft else draft.capture register) :: outer)
      | none, some index => .ok (.upvalue index, draft :: outer)
      | none, none => do
          let (meaning, outer) ← lookUp name false outer
          match meaning with
          | .variable register =>
              let (meaning, draft) ← addUpvalue ⟨name, true, register⟩ draft
              return (meaning, draft :: outer)
          | .upvalue index =>
              let (meaning, draft) ← addUpvalue ⟨name, false, index⟩ draft
              return (meaning, draft :: outer)
          | .unknown => return (.unknown, draft :: outer)

def meaning (name : String) : Compile Meaning := do
  let c ← get
  match lookUp name true (c.draft :: c.outer) with
  | .error () => refuse
  | .ok (meaning, drafts) =>
      set { c with draft := drafts.headD {}, outer := drafts.tail }
      return meaning

def ofText (s : String) : Operand := .ofConstant (.text (Bytes.ofString s))

/-- The variable of a name; what no function declares is a member of the table of globals. -/
def named (name : String) : Compile Operand := do
  match ← meaning name with
  | .variable register => return ⟨.variable register, [], []⟩
  | .upvalue index => return ⟨.upvalue index, [], []⟩
  | .unknown =>
      let environment : Operand ←
        match ← meaning environmentName with
        | .variable register => pure ⟨.variable register, [], []⟩
        | .upvalue index => pure ⟨.upvalue index, [], []⟩
        | .unknown => refuse
      indexed (← inRegisterOrUpvalue environment) (ofText name)

/-- Goes on to a member that is named behind a point or a colon. -/
def selectMember (e : Operand) : Compile Operand := do
  let e ← inRegisterOrUpvalue e
  advance
  let key ← needName
  indexed e (ofText key)

/-! ### Lists of values -/

def adjust (wanted given : Nat) (last : Operand) : Compile Unit := do
  if last.isMany then
    keepMany last (some (wanted + 1 - given))
  else
    match last.place with
    | .none => pure ()
    | _ =>
        let _ ← toNext last
    if given < wanted then loadNils (← draft).free (wanted - given)
  if given < wanted then reserve (wanted - given)
  else setFree ((← draft).free - (given - wanted))

def writeReturn (given : Nat) (last : Operand) : Compile Unit := do
  let first ← localCount
  match last.place with
  | .call position =>
      keepMany last none
      if given = 1 then
        patch position fun
          | .call base arguments _ => .tailCall base arguments
          | instruction => instruction
      let _ ← emit (.ret first none)
  | .varargs _ =>
      keepMany last none
      let _ ← emit (.ret first none)
  | _ =>
      if given = 1 then
        let register ← toAny last
        let _ ← emit (.ret register (some 1))
      else
        let _ ← toNext last
        let _ ← emit (.ret first (some given))

/-- Assigns to variables, from the last to the first one, what stands in the topmost registers. -/
def storeTop : List Operand → Compile Unit
  | [] => return
  | target :: targets => do
      let top := (← draft).free - 1
      store target ⟨.register top, [], []⟩
      storeTop targets

/-- Assigns a list of values to variables, of which the last one comes first. -/
def storeAll (targets : List Operand) (given : Nat) (last : Operand) : Compile Unit := do
  match targets with
  | [] => return
  | target :: others =>
      if given = targets.length then
        let last ← keepOne last
        store target last
        storeTop others
      else
        adjust targets.length given last
        storeTop targets

/-! ### The grammar -/

def loopStateName : String := "(for state)"

def declareLoopState : Nat → Compile Unit
  | 0 => return
  | count + 1 => do
      declare loopStateName
      declareLoopState count

/-- More names after commas. -/
def declareMore : Nat → Compile Nat
  | 0 => refuse
  | bound + 1 => do
      if ← passMark "," then
        declare (← needName)
        return (← declareMore bound) + 1
      else return 0

/-- The parameters of a function, and whether it takes more. -/
def parameters : Nat → Compile (Nat × Bool)
  | 0 => refuse
  | bound + 1 => do
      match ← here with
      | .name _ =>
          declare (← needName)
          if ← passMark "," then
            let (count, variadic) ← parameters bound
            return (count + 1, variadic)
          else return (1, false)
      | .mark "..." =>
          advance
          return (0, true)
      | _ => refuse

def openParameters (bound : Nat) : Compile Unit := do
  let (count, variadic) ←
    if isMark ")" (← here) then pure (0, false) else parameters bound
  reveal count
  let count ← localCount
  modifyDraft fun d => { d with parameters := count, variadic }
  if variadic then
    let _ ← emit (.varargsPrepare count)
  reserve count

/-- Puts a label unless the function has one of that name already. -/
def placeLabel (name : String) : Compile Unit := do
  if (← draft).labels.any fun label => label.name == name then refuse
  let _ ← putLabel name (← atBlockEnd false)

/-- Jumps to a label, which may stand before or behind. -/
def writeGoto (name : String) : Compile Unit := do
  match (← draft).labels.find? fun label => label.name == name with
  | none => await name [← jump]
  | some label =>
      if label.locals < (← localCount) then
        let _ ← emit (.close label.locals)
      aimAt [← jump] label.target

def binary? : Lexeme → Option (BinaryOp × Nat × Nat)
  | .reserved w => BinaryOp.ofSymbol? w
  | .mark m => BinaryOp.ofSymbol? m
  | _ => none

def unary? : Lexeme → Option UnaryOp
  | .reserved w => UnaryOp.ofSymbol? w
  | .mark m => UnaryOp.ofSymbol? m
  | _ => none

mutual

def expression : Nat → Nat → Compile Operand
  | 0, _ => refuse
  | bound + 1, limit => do
      enter
      let operator? := unary? (← here)
      let left ←
        match operator? with
        | some op =>
            let line ← line
            advance
            let e ← expression bound UnaryOp.binding
            applyUnary op e line
        | none => simple bound
      let e ← operators bound limit left
      leave 1
      return e

/-- Goes on with binary operators after a left operand. -/
def operators : Nat → Nat → Operand → Compile Operand
  | 0, _, _ => refuse
  | bound + 1, limit, left => do
      match binary? (← here) with
      | some (op, leftBinding, rightBinding) =>
          if limit < leftBinding then
            let line ← line
            advance
            let left ← readyLeft op left
            let right ← expression bound rightBinding
            let e ← applyBinary op left right line
            operators bound limit e
          else return left
      | none => return left

def simple : Nat → Compile Operand
  | 0 => refuse
  | bound + 1 => do
      let constant (c : Constant) : Compile Operand := do
        advance
        return .ofConstant c
      match ← here with
      | .number n => constant (.number n)
      | .text s => constant (.text s)
      | .reserved "nil" => constant .nil
      | .reserved "true" => constant (.bool true)
      | .reserved "false" => constant (.bool false)
      | .mark "..." =>
          unless (← draft).variadic do refuse
          let position ← emit (.varargs 0 (some 0))
          advance
          return ⟨.varargs position, [], []⟩
      | .mark "\x7b" => table bound
      | .reserved "function" =>
          advance
          functionBody bound false
      | _ => suffixed bound

def suffixed : Nat → Compile Operand
  | 0 => refuse
  | bound + 1 => do
      match ← here with
      | .name x =>
          advance
          suffixes bound (← named x)
      | .mark "(" =>
          advance
          let e ← expression bound 0
          needMark ")"
          suffixes bound (← discharge e)
      | _ => refuse

def suffixes : Nat → Operand → Compile Operand
  | 0, _ => refuse
  | bound + 1, e => do
      match ← here with
      | .mark "." => suffixes bound (← selectMember e)
      | .mark "[" =>
          let e ← inRegisterOrUpvalue e
          let key ← bracketed bound
          suffixes bound (← indexed e key)
      | .mark ":" =>
          advance
          let key ← needName
          let e ← inRegister e
          releaseOperand e
          let base := (← draft).free
          reserve 2
          let (_, key) ← toSource (ofText key)
          let _ ← emit (.beyond (some base))
          releaseOperand key
          suffixes bound (← arguments bound base)
      | .mark "(" | .mark "\x7b" | .text _ =>
          let e ← toNext e
          suffixes bound (← arguments bound (e.register?.getD 0))
      | _ => return e

def bracketed : Nat → Compile Operand
  | 0 => refuse
  | bound + 1 => do
      advance
      let key ← toValue (← expression bound 0)
      needMark "]"
      return key

def arguments : Nat → Nat → Compile Operand
  | 0, _ => refuse
  | bound + 1, base => do
      let line ← line
      let last : Operand ←
        match ← here with
        | .mark "(" =>
            advance
            let last ←
              if isMark ")" (← here) then pure default
              else
                let (_, last) ← expressions bound
                if last.isMany then keepMany last none
                pure last
            needMark ")"
            pure last
        | .mark "\x7b" => table bound
        | .text s =>
            advance
            pure (.ofConstant (.text s))
        | _ => refuse
      let count ←
        if last.isMany then pure none
        else
          match last.place with
          | .none => pure ()
          | _ =>
              let _ ← toNext last
          pure (some ((← draft).free - (base + 1)))
      let position ← emit (.call base count (some 1))
      fixLine line
      setFree (base + 1)
      return ⟨.call position, [], []⟩

/-- Expressions separated by commas: how many, and the last one. -/
def expressions : Nat → Compile (Nat × Operand)
  | 0 => refuse
  | bound + 1 => do
      let e ← expression bound 0
      if ← passMark "," then
        let _ ← toNext e
        let (count, last) ← expressions bound
        return (count + 1, last)
      else return (1, e)

def functionBody : Nat → Bool → Compile Operand
  | 0, _ => refuse
  | bound + 1, isMethod => do
      openFunction
      needMark "("
      if isMethod then
        declare "self"
        reveal 1
      openParameters bound
      needMark ")"
      statements bound
      needReserved "end"
      let number ← closeFunction
      toNext ⟨.result (← emit (.closure 0 number)), [], []⟩

/-- A table with its members. -/
def table : Nat → Compile Operand
  | 0 => refuse
  | bound + 1 => do
      let _ ← emit (.beyond none)
      let _ ← emit (.beyond none)
      let register := (← draft).free
      reserve 1
      needMark "\x7b"
      members bound register
      needMark "\x7d"
      return ⟨.register register, [], []⟩

def members : Nat → Nat → Compile Unit
  | 0, _ => refuse
  | bound + 1, register => do
      if isMark "\x7d" (← here) then return
      let isNamed :=
        match (← get).rest with
        | ⟨.name _, _⟩ :: ⟨.mark "=", _⟩ :: _ => true
        | _ => false
      if isNamed || isMark "[" (← here) then
        let key ← if isNamed then pure (ofText (← needName)) else bracketed bound
        needMark "="
        let member ← indexed ⟨.register register, [], []⟩ key
        store member (← expression bound 0)
      else
        let _ ← toNext (← expression bound 0)
      setFree (register + 1)
      if (← passMark ",") || (← passMark ";") then members bound register

/-- The statements of a block; a return is the last one. -/
def statements : Nat → Compile Unit
  | 0 => refuse
  | bound + 1 => do
      if ← atBlockEnd true then return
      let isReturn := isReserved "return" (← here)
      statement bound
      unless isReturn do statements bound

def innerBlock : Nat → Compile Unit
  | 0 => refuse
  | bound + 1 => do
      openBlock false
      statements bound
      closeBlock

/-- A condition; yields the jumps that are taken if it is false. -/
def condition : Nat → Compile (List Nat)
  | 0 => refuse
  | bound + 1 => do
      let e ← expression bound 0
      let e : Operand :=
        match e.place with
        | .constant .nil => { e with place := .constant (.bool false) }
        | _ => e
      return (← goIfTrue e).onFalse

/-- A condition with the block that it guards; yields the jumps that lead past all other branches of
its statement. -/
def branch : Nat → Compile (List Nat)
  | 0 => refuse
  | bound + 1 => do
      advance
      let e ← expression bound 0
      needReserved "then"
      if isReserved "break" (← here) then
        let e ← goIfFalse e
        advance
        openBlock false
        await breakName e.onTrue
        skipMarks bound
        if ← atBlockEnd false then
          closeBlock
          return []
        else
          let skip ← jump
          finishBranch bound [skip]
      else
        let e ← goIfTrue e
        openBlock false
        finishBranch bound e.onFalse

def finishBranch : Nat → List Nat → Compile (List Nat)
  | 0, _ => refuse
  | bound + 1, skip => do
      statements bound
      closeBlock
      let next ← here
      let escape ←
        if isReserved "else" next || isReserved "elseif" next then pure [← jump] else pure []
      aimHere skip
      return escape

def skipMarks : Nat → Compile Unit
  | 0 => refuse
  | bound + 1 => do
      if ← passMark ";" then skipMarks bound

def branches : Nat → List Nat → Compile Unit
  | 0, _ => refuse
  | bound + 1, escapes => do
      if isReserved "elseif" (← here) then
        branches bound (escapes ++ (← branch bound))
      else
        if ← passReserved "else" then innerBlock bound
        needReserved "end"
        aimHere escapes

/-- The body of a loop that counts, from the `do` on. -/
def countingBody : Nat → Nat → Nat → Compile Unit
  | 0, _, _ => refuse
  | bound + 1, base, line => do
      needReserved "do"
      let prepare ← emit (.forPrepare base 0)
      openBlock false
      reveal 1
      reserve 1
      innerBlock bound
      closeBlock
      let repeats ← label
      patch prepare fun _ => .forPrepare base (repeats + 1)
      let _ ← emit (.forLoop base (prepare + 1))
      fixLine line

def countingLoop : Nat → String → Nat → Compile Unit
  | 0, _, _ => refuse
  | bound + 1, name, line => do
      let base := (← draft).free
      declareLoopState 3
      declare name
      needMark "="
      let _ ← toNext (← expression bound 0)
      needMark ","
      let _ ← toNext (← expression bound 0)
      if ← passMark "," then
        let _ ← toNext (← expression bound 0)
      else
        loadConstant (← draft).free (.number (.int 1))
        reserve 1
      reveal 3
      countingBody bound base line

def iteratingLoop : Nat → String → Compile Unit
  | 0, _ => refuse
  | bound + 1, name => do
      declareLoopState 4
      declare name
      let names ← declareMore bound
      needReserved "in"
      let (given, last) ← expressions bound
      adjust 4 given last
      reveal 4
      needRegisters 3
      needReserved "do"
      let _ ← emit (.beyond none)
      openBlock false
      reveal (names + 1)
      reserve (names + 1)
      innerBlock bound
      closeBlock
      let _ ← label
      let _ ← emit (.beyond none)
      let _ ← emit (.beyond none)

def forLoop : Nat → Nat → Compile Unit
  | 0, _ => refuse
  | bound + 1, line => do
      openBlock true
      advance
      let name ← needName
      match ← here with
      | .mark "=" => countingLoop bound name line
      | .mark "," | .reserved "in" => iteratingLoop bound name
      | _ => refuse
      needReserved "end"
      closeBlock

def whileLoop : Nat → Compile Unit
  | 0 => refuse
  | bound + 1 => do
      advance
      let start ← label
      let exits ← condition bound
      openBlock true
      needReserved "do"
      innerBlock bound
      aimAt [← jump] start
      needReserved "end"
      closeBlock
      aimHere exits

def repeatLoop : Nat → Compile Unit
  | 0 => refuse
  | bound + 1 => do
      let start ← label
      openBlock true
      openBlock false
      advance
      statements bound
      needReserved "until"
      let again ← condition bound
      let inner ← block
      closeBlock
      if inner.captured then
        let exit ← jump
        aimHere again
        let _ ← emit (.close inner.locals)
        aimAt [← jump] start
        aimHere [exit]
      else aimAt again start
      closeBlock

/-- The rest of the name of a function that is defined; also tells whether it is a method. -/
def functionName : Nat → Operand → Compile (Operand × Bool)
  | 0, _ => refuse
  | bound + 1, e => do
      match ← here with
      | .mark "." => functionName bound (← selectMember e)
      | .mark ":" => return (← selectMember e, true)
      | _ => return (e, false)

def functionStatement : Nat → Nat → Compile Unit
  | 0, _ => refuse
  | bound + 1, line => do
      advance
      let (target, isMethod) ← functionName bound (← named (← needName))
      let e ← functionBody bound isMethod
      store target e
      fixLine line

def localFunction : Nat → Compile Unit
  | 0 => refuse
  | bound + 1 => do
      declare (← needName)
      reveal 1
      let span := (← draft).spanOf ((← localCount) - 1)
      let _ ← functionBody bound false
      modifyDraft fun d =>
        { d with
          spans := d.spans.modify span fun s => { s with start := d.instructions.size } }

def localStatement : Nat → Compile Unit
  | 0 => refuse
  | bound + 1 => do
      declare (← needName)
      let names := (← declareMore bound) + 1
      let (given, last) ← if ← passMark "=" then expressions bound else pure (0, default)
      adjust names given last
      reveal names

/-- The variables of an assignment, the last one first; each lies a level deeper than the one before
it. -/
def targets : Nat → List Operand → Compile (List Operand)
  | 0, _ => refuse
  | bound + 1, read => do
      unless (read.headD default).isVariable do refuse
      if ← passMark "," then
        let target ← suffixed bound
        enter
        targets bound (target :: read)
      else return read

def expressionStatement : Nat → Compile Unit
  | 0 => refuse
  | bound + 1 => do
      let e ← suffixed bound
      let next ← here
      if isMark "=" next || isMark "," next then
        let targets ← targets bound [e]
        needMark "="
        let (given, last) ← expressions bound
        storeAll targets given last
        leave (targets.length - 1)
      else
        match e.place with
        | .call _ => keepMany e (some 0)
        | _ => refuse

def returnStatement : Nat → Compile Unit
  | 0 => refuse
  | bound + 1 => do
      advance
      if (← atBlockEnd true) || isMark ";" (← here) then
        let _ ← emit (.ret (← localCount) (some 0))
      else
        let (given, last) ← expressions bound
        writeReturn given last
      let _ ← passMark ";"

/-- A label; statements that do nothing may follow it at the end of a block. -/
def labelStatement : Nat → Compile Unit
  | 0 => refuse
  | bound + 1 => do
      advance
      let name ← needName
      needMark "::"
      emptyStatements bound
      placeLabel name

def emptyStatements : Nat → Compile Unit
  | 0 => refuse
  | bound + 1 => do
      let next ← here
      if isMark ";" next || isMark "::" next then
        statement bound
        emptyStatements bound

/-- One statement; afterwards only variables keep their registers. -/
def statement : Nat → Compile Unit
  | 0 => refuse
  | bound + 1 => do
      let line ← line
      enter
      match ← here with
      | .mark ";" => advance
      | .reserved "if" => branches bound (← branch bound)
      | .reserved "while" => whileLoop bound
      | .reserved "do" =>
          advance
          innerBlock bound
          needReserved "end"
      | .reserved "for" => forLoop bound line
      | .reserved "repeat" => repeatLoop bound
      | .reserved "function" => functionStatement bound line
      | .reserved "local" =>
          advance
          if ← passReserved "function" then localFunction bound else localStatement bound
      | .mark "::" => labelStatement bound
      | .reserved "return" => returnStatement bound
      | .reserved "break" =>
          advance
          await breakName [← jump]
      | .reserved "goto" =>
          advance
          writeGoto (← needName)
      | _ => expressionStatement bound
      setFree (← localCount)
      leave 1

end

def mainFunction (bound : Nat) : Compile Nat := do
  openBlock false
  modifyDraft fun d => { d with variadic := true, upvalues := #[⟨environmentName, true, 0⟩] }
  let _ ← emit (.varargsPrepare 0)
  match ← here with
  | .faulty => refuse
  | _ => pure ()
  statements bound
  match ← here with
  | .stop => closeFunction
  | _ => refuse

end Compile

structure Chunk where
  functions : Array Code
  main : Nat

namespace Chunk

def compile (text : List Char) : Except CompileFault Chunk :=
  let lexemes := Lexeme.ofText text
  let bound := 16 * (lexemes.length + 2)
  match (Compile.mainFunction bound).run { rest := lexemes } with
  | .ok (main, c) => .ok ⟨c.functions, main⟩
  | .error fault => .error fault

end Chunk

end StatePool.Script
