import StatePool.Script.Number
import StatePool.Text.Bytes

/-!
The code of functions: instructions over registers.

Every function has a window of registers, the lowest of which hold its parameters and its local
variables.  An instruction that tests something is followed by the jump that it guards.
-/

namespace StatePool.Script

inductive Constant where
  | nil
  | bool (b : Bool)
  | number (n : Number)
  | text (s : Bytes)

instance : Inhabited Constant := ⟨.nil⟩

namespace Constant

/-- Whether two constants are kept as one: they agree in kind and in every bit. -/
def same : Constant → Constant → Bool
  | .nil, .nil => true
  | .bool a, .bool b => a == b
  | .number (.int a), .number (.int b) => a == b
  | .number (.float x), .number (.float y) => x.toBits == y.toBits
  | .text s, .text t => s == t
  | _, _ => false

end Constant

inductive ArithOp where
  | add
  | sub
  | mul
  deriving DecidableEq, Repr

/-- Where an instruction takes an operand from. -/
inductive Source where
  | register (r : Nat)
  | constant (c : Constant)

abbrev Count := Option Nat

inductive Instruction where
  | move (target source : Nat)
  | load (target : Nat) (value : Constant)
  | loadNil (first count : Nat)
  | loadFalseSkip (target : Nat)
  | getUpvalue (target upvalue : Nat)
  | setUpvalue (upvalue source : Nat)
  | indexUpvalue (target upvalue : Nat) (key : Bytes)
  | indexKey (target table : Nat) (key : Bytes)
  | index (target table key : Nat)
  | assignUpvalue (upvalue : Nat) (key : Bytes) (source : Source)
  | assignKey (table : Nat) (key : Bytes) (source : Source)
  | assign (table key : Nat) (source : Source)
  /-- If the operands are numbers, the next instruction is skipped. -/
  | arith (op : ArithOp) (target : Nat) (left right : Source)
  /-- What is to be done with operands that are no numbers, for the instruction before it. -/
  | arithOther (op : ArithOp) (left right : Source)
  | negate (target source : Nat)
  | not (target source : Nat)
  /-- Joins the texts of registers that lie side by side; the first of them is the target. -/
  | concat (first count : Nat)
  /-- Skips the next instruction unless the comparison comes out as expected. -/
  | equal (left : Nat) (right : Source) (expected : Bool)
  | test (source : Nat) (expected : Bool)
  | testSet (target source : Nat) (expected : Bool)
  | jump (target : Nat)
  | call (base : Nat) (arguments results : Count)
  | tailCall (base : Nat) (arguments : Count)
  | ret (first : Nat) (count : Count)
  | forPrepare (base exit : Nat)
  | forLoop (base body : Nat)
  | varargs (target : Nat) (count : Count)
  /-- Moves the window above the arguments, so that the extra ones stay below it. -/
  | varargsPrepare (parameters : Nat)
  | closure (target function : Nat)
  | close (first : Nat)
  /-- Something that the machine does not do, as a test or with a register for its result. -/
  | beyond (target : Option Nat)
  | beyondTest

instance : Inhabited Instruction := ⟨.beyond none⟩

namespace Instruction

/-- Whether the jump behind an instruction belongs to it. -/
def isTest : Instruction → Bool
  | .equal .. | .test .. | .testSet .. | .beyondTest => true
  | _ => false

/-- The same instruction with its result in another register. -/
def withTarget (target : Nat) : Instruction → Instruction
  | .move _ source => .move target source
  | .getUpvalue _ upvalue => .getUpvalue target upvalue
  | .indexUpvalue _ upvalue key => .indexUpvalue target upvalue key
  | .indexKey _ table key => .indexKey target table key
  | .index _ table key => .index target table key
  | .arith op _ left right => .arith op target left right
  | .negate _ source => .negate target source
  | .not _ source => .not target source
  | .varargs _ count => .varargs target count
  | .closure _ function => .closure target function
  | .beyond _ => .beyond (some target)
  | instruction => instruction

/-- Whether an instruction may change a register. -/
def changes (register : Nat) : Instruction → Bool
  | .loadNil first count => first ≤ register && register < first + count
  | .call base _ _ | .tailCall base _ => base ≤ register
  | .move target _ | .load target _ | .loadFalseSkip target | .getUpvalue target _
  | .indexUpvalue target _ _ | .indexKey target _ _ | .index target _ _ | .arith _ target _ _
  | .negate target _ | .not target _ | .concat target _ | .testSet target _ _
  | .forPrepare target _ | .forLoop target _ | .varargs target _ | .varargsPrepare target
  | .closure target _ | .beyond (some target) => register == target
  | _ => false

end Instruction

/-- A variable of an enclosing function that a function uses: one of the registers or one of the
upvalues of the function directly around it. -/
structure Upvalue where
  name : String
  inRegister : Bool
  index : Nat
  deriving DecidableEq, Repr

structure LocalSpan where
  name : String
  start : Nat
  stop : Nat
  deriving DecidableEq, Repr

structure Code where
  instructions : Array Instruction
  /-- The line of each instruction. -/
  lines : Array Nat
  parameters : Nat
  variadic : Bool
  window : Nat
  upvalues : Array Upvalue
  locals : Array LocalSpan

instance : Inhabited Code := ⟨⟨#[], #[], 0, false, 2, #[], #[]⟩⟩

namespace Code

def instruction (code : Code) (pc : Nat) : Instruction :=
  code.instructions.getD pc default

def line (code : Code) (pc : Nat) : Nat := code.lines.getD pc 0

end Code

def environmentName : String := "_ENV"

end StatePool.Script
