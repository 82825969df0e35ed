import StatePool.Script.Draft
import StatePool.Script.Operator

/-!
Expressions whose values are on their way into registers.

The code of an expression is written as late as possible: what it stands for is only noted, until
the use of its value decides about the register.  Expressions with `and` and `or` also have jumps
that leave them early, some when the value is true and some when it is false.
-/

namespace StatePool.Script

/-- Where the value of an expression is to be found. -/
inductive Place where
  | none
  | constant (c : Constant)
  | register (r : Nat)
  | result (position : Nat)
  | test (jump : Nat)
  | call (position : Nat)
  | varargs (position : Nat)
  | variable (register : Nat)
  | upvalue (index : Nat)
  | global (upvalue : Nat) (key : Bytes)
  | member (table : Nat) (key : Bytes)
  | element (table key : Nat)
  /-- A part of a table that the machine does not reach. -/
  | beyond (table : Nat)

structure Operand where
  place : Place
  onTrue : List Nat := []
  onFalse : List Nat := []

instance : Inhabited Operand := ⟨⟨.none, [], []⟩⟩

namespace Operand

def hasJumps (e : Operand) : Bool := !e.onTrue.isEmpty || !e.onFalse.isEmpty

def ofConstant (c : Constant) : Operand := ⟨.constant c, [], []⟩

/-- Whether an expression may have several values. -/
def isMany (e : Operand) : Bool :=
  match e.place with
  | .call _ | .varargs _ => true
  | _ => false

/-- Whether an expression can be assigned to. -/
def isVariable (e : Operand) : Bool :=
  match e.place with
  | .variable _ | .upvalue _ | .global _ _ | .member _ _ | .element _ _ | .beyond _ => true
  | _ => false

def numeral? (e : Operand) : Option Number :=
  match e.place with
  | .constant (.number n) => if e.hasJumps then Option.none else some n
  | _ => Option.none

def register? (e : Operand) : Option Nat :=
  match e.place with
  | .register r => some r
  | _ => Option.none

end Operand

/-- Whether a number fits into a comparison as an operand. -/
def fitsComparison (n : Number) : Bool :=
  match n.toInt? with
  | some n => -127 ≤ n.toInt && n.toInt ≤ 128
  | none => false

/-- Whether a number is loaded without being a constant of the function. -/
def fitsLoad (n : Number) : Bool :=
  match n.toInt? with
  | some n => -65535 ≤ n.toInt && n.toInt ≤ 65536
  | none => false

/-- The longest text that can be the key of an instruction of its own. -/
def maxKeySize : Nat := 40

namespace Compile

def releaseOperand (e : Operand) : Compile Unit := do
  match e.place with
  | .register r => release r
  | _ => return

/-- Frees two registers, the upper one first. -/
def releasePair (a b : Nat) : Compile Unit := do
  release (max a b)
  release (min a b)

def releaseOperands (a b : Operand) : Compile Unit := do
  match a.register?, b.register? with
  | some a, some b => releasePair a b
  | _, _ =>
      releaseOperand a
      releaseOperand b

/-- Keeps the first of several values. -/
def keepOne (e : Operand) : Compile Operand := do
  match e.place with
  | .call position =>
      match ← instructionAt position with
      | .call base _ _ => return { e with place := .register base }
      | _ => return e
  | .varargs position =>
      patch position fun _ => .varargs 0 (some 1)
      return { e with place := .result position }
  | _ => return e

def keepMany (e : Operand) (count : Count) : Compile Unit := do
  match e.place with
  | .call position =>
      patch position fun
        | .call base arguments _ => .call base arguments count
        | instruction => instruction
  | .varargs position =>
      let free := (← draft).free
      patch position fun _ => .varargs free count
      reserve 1
  | _ => return

/-- Reads a variable, so that its value is at hand. -/
def discharge (e : Operand) : Compile Operand := do
  match e.place with
  | .variable register => return { e with place := .register register }
  | .upvalue index => return { e with place := .result (← emit (.getUpvalue 0 index)) }
  | .global upvalue key => return { e with place := .result (← emit (.indexUpvalue 0 upvalue key)) }
  | .member table key =>
      release table
      return { e with place := .result (← emit (.indexKey 0 table key)) }
  | .element table key =>
      releasePair table key
      return { e with place := .result (← emit (.index 0 table key)) }
  | .beyond table =>
      release table
      return { e with place := .result (← emit (.beyond (some 0))) }
  | .call _ | .varargs _ => keepOne e
  | _ => return e

/-- Loads nils, together with those that the last instruction loads if they are its neighbours. -/
def loadNils (first count : Nat) : Compile Unit := do
  match ← previous? with
  | some (.loadNil first' count') =>
      if (first' ≤ first && first ≤ first' + count') || (first ≤ first' && first' ≤ first + count)
      then
        let low := min first first'
        let high := max (first + count) (first' + count')
        patch ((← position) - 1) fun _ => .loadNil low (high - low)
      else
        let _ ← emit (.loadNil first count)
  | _ =>
      let _ ← emit (.loadNil first count)

def loadConstant (register : Nat) (c : Constant) : Compile Unit := do
  match c with
  | .nil => loadNils register 1
  | .bool _ =>
      let _ ← emit (.load register c)
  | .number n =>
      unless fitsLoad n do
        let _ ← pool c
      let _ ← emit (.load register c)
  | .text _ =>
      let _ ← pool c
      let _ ← emit (.load register c)

/-- Puts the value of an expression into a register, its early exits apart.  The outcome of a
comparison has no value yet and is left as it is. -/
def loadInto (e : Operand) (register : Nat) : Compile Operand := do
  let e ← discharge e
  match e.place with
  | .constant c => loadConstant register c
  | .result position => patch position (·.withTarget register)
  | .register r =>
      if r ≠ register then
        let _ ← emit (.move register r)
  | _ => return e
  return { e with place := .register register }

/-- Puts the value of an expression into some register, its early exits apart. -/
def loadAnywhere (e : Operand) : Compile Operand := do
  match e.place with
  | .register _ => return e
  | _ =>
      reserve 1
      loadInto e ((← draft).free - 1)

def settle (e : Operand) (register : Nat) : Compile Operand := do
  let e ← loadInto e register
  let (e, isTest) :=
    match e.place with
    | .test jump => ({ e with onTrue := e.onTrue ++ [jump] }, true)
    | _ => (e, false)
  if e.hasJumps then
    let withoutValue := (← someWithoutValue e.onTrue) || (← someWithoutValue e.onFalse)
    let mut whenFalse := 0
    let mut whenTrue := 0
    if withoutValue then
      let around ← if isTest then pure [] else do pure [← jump]
      let _ ← label
      whenFalse ← emit (.loadFalseSkip register)
      let _ ← label
      whenTrue ← emit (.load register (.bool true))
      aimHere around
    let final ← label
    aimAll final (some register) whenFalse e.onFalse
    aimAll final (some register) whenTrue e.onTrue
  return ⟨.register register, [], []⟩

def toNext (e : Operand) : Compile Operand := do
  let e ← discharge e
  releaseOperand e
  reserve 1
  settle e ((← draft).free - 1)

def toAny (e : Operand) : Compile Nat := do
  let e ← discharge e
  match e.place with
  | .register r =>
      if !e.hasJumps then return r
      if (← localCount) ≤ r then
        let _ ← settle e r
        return r
      let e ← toNext e
      return e.register?.getD 0
  | _ =>
      let e ← toNext e
      return e.register?.getD 0

def inRegister (e : Operand) : Compile Operand := do
  return ⟨.register (← toAny e), [], []⟩

/-- The same, but a plain upvalue may stay where it is. -/
def inRegisterOrUpvalue (e : Operand) : Compile Operand := do
  match e.place, e.hasJumps with
  | .upvalue _, false => return e
  | _, _ => inRegister e

def toValue (e : Operand) : Compile Operand := do
  if e.hasJumps then inRegister e else discharge e

/-- An expression as an operand: itself if it is a constant, and a register otherwise. -/
def toSource (e : Operand) : Compile (Source × Operand) := do
  match e.place, e.hasJumps with
  | .constant c, false =>
      if ← pool c then return (.constant c, e)
      else
        let e ← inRegister e
        return (.register (e.register?.getD 0), e)
  | _, _ =>
      let e ← inRegister e
      return (.register (e.register?.getD 0), e)

def store (target : Operand) (e : Operand) : Compile Unit := do
  match target.place with
  | .variable register =>
      releaseOperand e
      let _ ← settle e register
  | .upvalue index =>
      let e ← inRegister e
      let _ ← emit (.setUpvalue index (e.register?.getD 0))
      releaseOperand e
  | .global upvalue key =>
      let (source, e) ← toSource e
      let _ ← emit (.assignUpvalue upvalue key source)
      releaseOperand e
  | .element table key =>
      let (source, e) ← toSource e
      let _ ← emit (.assign table key source)
      releaseOperand e
  | .member table key =>
      let (source, e) ← toSource e
      let _ ← emit (.assignKey table key source)
      releaseOperand e
  | .beyond _ =>
      let (_, e) ← toSource e
      let _ ← emit (.beyond none)
      releaseOperand e
  | _ => return

def shortKey? (e : Operand) : Compile (Option Bytes) := do
  match e.place, e.hasJumps with
  | .constant (.text s), false =>
      if (← pool (.text s)) && s.size ≤ maxKeySize then return some s else return none
  | _, _ => return none

def indexed (table key : Operand) : Compile Operand := do
  let short ← shortKey? key
  let table ←
    match table.place, short with
    | .upvalue _, none => inRegister table
    | _, _ => pure table
  match table.place, short with
  | .upvalue upvalue, some key => return ⟨.global upvalue key, [], []⟩
  | .variable table, some key | .register table, some key => return ⟨.member table key, [], []⟩
  | .variable table, none | .register table, none =>
      match key.numeral? with
      | some (.int n) =>
          if 0 ≤ n.toInt && n.toInt ≤ 255 then return ⟨.beyond table, [], []⟩
          else return ⟨.element table (← toAny key), [], []⟩
      | _ => return ⟨.element table (← toAny key), [], []⟩
  | _, _ => return table

/-! ### Conditions -/

def conditionalJump (instruction : Instruction) : Compile Nat := do
  let _ ← emit instruction
  jump

def negateTest (jump : Nat) : Compile Unit := do
  patch (← control jump) fun
    | .equal left right expected => .equal left right !expected
    | .test source expected => .test source !expected
    | .testSet target source expected => .testSet target source !expected
    | instruction => instruction

def jumpOn (e : Operand) (condition : Bool) : Compile Nat := do
  let negated? ←
    match e.place with
    | .result position =>
        match ← instructionAt position with
        | .not _ source => pure (some source)
        | _ => pure none
    | _ => pure none
  match negated? with
  | some source =>
      retract
      conditionalJump (.test source !condition)
  | none =>
      let e ← loadAnywhere e
      releaseOperand e
      conditionalJump (.testSet maxRegisters (e.register?.getD 0) condition)

/-- Goes on only if an expression is true. -/
def goIfTrue (e : Operand) : Compile Operand := do
  let e ← discharge e
  let jumps ←
    match e.place with
    | .test jump =>
        negateTest jump
        pure [jump]
    | .constant .nil | .constant (.bool false) => pure [← jumpOn e false]
    | .constant _ => pure []
    | _ => pure [← jumpOn e false]
  aimHere e.onTrue
  return { e with onTrue := [], onFalse := e.onFalse ++ jumps }

/-- Goes on only if an expression is false. -/
def goIfFalse (e : Operand) : Compile Operand := do
  let e ← discharge e
  let jumps ←
    match e.place with
    | .test jump => pure [jump]
    | .constant .nil | .constant (.bool false) => pure []
    | _ => pure [← jumpOn e true]
  aimHere e.onFalse
  return { e with onTrue := e.onTrue ++ jumps, onFalse := [] }

/-! ### Operators -/

/-- What an operator makes of two numbers of the text.  A result that is zero or not a number is
left to the run if it is a float. -/
def fold? (op : ArithOp) (a b : Number) : Option Number :=
  match op.apply a b with
  | .int n => some (.int n)
  | .float x => if x == 0 then none else some (.float x)
  | .nan _ => none

def foldNegation? (a : Number) : Option Number :=
  match a.negate with
  | .float x => if x == 0 then none else some (.float x)
  | n => some n

/-- Turns the value of an expression round, and its early exits with it. -/
def negation (e : Operand) : Compile Operand := do
  let place ←
    match e.place with
    | .constant .nil | .constant (.bool false) => pure (.constant (.bool true))
    | .constant _ => pure (.constant (.bool false))
    | .test jump => do
        negateTest jump
        pure (.test jump)
    | _ => do
        let e ← loadAnywhere e
        releaseOperand e
        pure (.result (← emit (.not 0 (e.register?.getD 0))))
  dropValues e.onTrue
  dropValues e.onFalse
  return { place, onTrue := e.onFalse, onFalse := e.onTrue }

/-- Applies an operator to an expression before which it stands on a line. -/
def applyUnary (op : UnaryOp) (e : Operand) (line : Nat) : Compile Operand := do
  let e ← discharge e
  let compute (write : Nat → Instruction) : Compile Operand := do
    let register ← toAny e
    release register
    let position ← emit (write register)
    fixLine line
    return ⟨.result position, [], []⟩
  match op with
  | .not => negation e
  | .beyond => compute fun _ => .beyond (some 0)
  | .negate =>
      match e.numeral?.bind foldNegation? with
      | some n => return .ofConstant (.number n)
      | none => compute fun register => .negate 0 register

/-- Readies the left operand of an operator before the right one is read. -/
def readyLeft (op : BinaryOp) (e : Operand) : Compile Operand := do
  let e ← discharge e
  match op with
  | .and => goIfTrue e
  | .or => goIfFalse e
  | .concat => toNext e
  | .arith _ | .beyond => if e.numeral?.isSome then return e else inRegister e
  | .eq | .ne =>
      if e.numeral?.isSome then return e
      else
        let (_, e) ← toSource e
        return e
  | .order =>
      match e.numeral? with
      | some n => if fitsComparison n then return e else inRegister e
      | none => inRegister e

/-- Writes an arithmetic instruction and what is to be done if it does not apply. -/
def writeArith (op : ArithOp) (left right : Source) (a b : Operand) (line : Nat) :
    Compile Operand := do
  let position ← emit (.arith op 0 left right)
  releaseOperands a b
  fixLine line
  let _ ← emit (.arithOther op left right)
  fixLine line
  return ⟨.result position, [], []⟩

/-- Arithmetic on two registers; the right operand is loaded first. -/
def arithRegisters (op : ArithOp) (a b : Operand) (line : Nat) : Compile Operand := do
  let b ← inRegister b
  let a ← inRegister a
  writeArith op (.register (a.register?.getD 0)) (.register (b.register?.getD 0)) a b line

/-- Arithmetic; a number of the text becomes a part of the instruction if it fits. -/
def applyArith (op : ArithOp) (a b : Operand) (line : Nat) : Compile Operand := do
  let swapped := op.commutes && a.numeral?.isSome
  let (first, second) := if swapped then (b, a) else (a, b)
  match second.numeral? with
  | none => arithRegisters op a b line
  | some n =>
      let immediate :=
        match n with
        | .int n => op.takesImmediate n
        | _ => false
      if immediate || (← pool (.number n)) then
        let first ← inRegister first
        let register := Source.register (first.register?.getD 0)
        let constant := Source.constant (.number n)
        let (left, right) := if swapped then (constant, register) else (register, constant)
        writeArith op left right first second line
      else arithRegisters op a b line

/-- An equation; its first operand is in a register, and the second one may be a constant. -/
def applyEqual (expected : Bool) (a b : Operand) : Compile Operand := do
  let (a, b) := if a.register?.isSome then (a, b) else (b, a)
  let a ← inRegister a
  let register := a.register?.getD 0
  let (source, b) ←
    match b.numeral? with
    | some n => if fitsComparison n then pure (Source.constant (.number n), b) else toSource b
    | none => toSource b
  releaseOperands a b
  return ⟨.test (← conditionalJump (.equal register source expected)), [], []⟩

/-- Joins two texts that lie side by side; a text that is joined already gets longer. -/
def applyConcat (a b : Operand) (line : Nat) : Compile Operand := do
  let b ← toNext b
  let first := a.register?.getD 0
  match ← previous? with
  | some (.concat _ count) =>
      releaseOperand b
      patch ((← position) - 1) fun _ => .concat first (count + 1)
  | _ =>
      let _ ← emit (.concat first 2)
      releaseOperand b
      fixLine line
  return a

/-- What the machine does not do takes its operands from registers. -/
def applyBeyond (a b : Operand) (isTest : Bool) : Compile Operand := do
  let b ← inRegister b
  let a ← inRegister a
  releaseOperands a b
  if isTest then return ⟨.test (← conditionalJump .beyondTest), [], []⟩
  else return ⟨.result (← emit (.beyond (some 0))), [], []⟩

/-- Applies an operator that stands on a line to the left operand, which is ready, and the right
one. -/
def applyBinary (op : BinaryOp) (a b : Operand) (line : Nat) : Compile Operand := do
  let b ← discharge b
  match op with
  | .and => return { b with onFalse := b.onFalse ++ a.onFalse }
  | .or => return { b with onTrue := b.onTrue ++ a.onTrue }
  | .concat => applyConcat a b line
  | .eq => applyEqual true a b
  | .ne => applyEqual false a b
  | .order => applyBeyond a b true
  | .beyond => applyBeyond a b false
  | .arith op =>
      match a.numeral?, b.numeral? with
      | some m, some n =>
          match fold? op m n with
          | some n => return .ofConstant (.number n)
          | none => applyArith op a b line
      | _, _ => applyArith op a b line

end Compile

end StatePool.Script
