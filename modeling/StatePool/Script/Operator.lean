import StatePool.Script.Code

/-!
Operators: how tightly they bind, and what they do to numbers.
-/

namespace StatePool.Script

inductive BinaryOp where
  | arith (op : ArithOp)
  | concat
  | eq
  | ne
  | and
  | or
  /-- An order of values, which the machine does not decide. -/
  | order
  /-- Arithmetic that the machine does not do. -/
  | beyond
  deriving DecidableEq, Repr

inductive UnaryOp where
  | not
  | negate
  | beyond
  deriving DecidableEq, Repr

namespace BinaryOp

/-- An operator with how tightly it binds to its left and its right. -/
def ofSymbol? : String → Option (BinaryOp × Nat × Nat)
  | "or" => some (.or, 1, 1)
  | "and" => some (.and, 2, 2)
  | "==" => some (.eq, 3, 3)
  | "~=" => some (.ne, 3, 3)
  | "<" | "<=" | ">" | ">=" => some (.order, 3, 3)
  | "|" => some (.beyond, 4, 4)
  | "~" => some (.beyond, 5, 5)
  | "&" => some (.beyond, 6, 6)
  | "<<" | ">>" => some (.beyond, 7, 7)
  | ".." => some (.concat, 9, 8)
  | "+" => some (.arith .add, 10, 10)
  | "-" => some (.arith .sub, 10, 10)
  | "*" => some (.arith .mul, 11, 11)
  | "/" | "//" | "%" => some (.beyond, 11, 11)
  | "^" => some (.beyond, 14, 13)
  | _ => none

end BinaryOp

namespace UnaryOp

def ofSymbol? : String → Option UnaryOp
  | "not" => some .not
  | "-" => some .negate
  | "~" | "#" => some .beyond
  | _ => none

/-- How tightly unary operators bind. -/
def binding : Nat := 12

end UnaryOp

namespace ArithOp

def apply : ArithOp → Number → Number → Number
  | .add => Number.arith (· + ·) (· + ·)
  | .sub => Number.arith (· - ·) (· - ·)
  | .mul => Number.arith (· * ·) (· * ·)

def verb : ArithOp → String
  | .add => "add"
  | .sub => "sub"
  | .mul => "mul"

/-- Whether the operands may change places. -/
def commutes : ArithOp → Bool
  | .add | .mul => true
  | .sub => false

/-- Whether an integer can be the second operand without being a constant of the function. -/
def takesImmediate (n : Int64) : ArithOp → Bool
  | .add => -127 ≤ n.toInt && n.toInt ≤ 128
  | .sub => -127 ≤ n.toInt && n.toInt ≤ 127
  | .mul => false

end ArithOp

end StatePool.Script
