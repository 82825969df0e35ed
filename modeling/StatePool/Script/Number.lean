import StatePool.Text.Decimal

/-!
Numbers of the script language: 64-bit integers that wrap, and binary64 floats.

A float that is not a number keeps a sign, which only its text shows.
-/

namespace StatePool.Script

inductive Number where
  | int (n : Int64)
  | float (x : Float)
  | nan (negative : Bool)

namespace Number

/-- The result of an operation on floats that are numbers; where there is none, its sign is set. -/
def ofFloat (x : Float) : Number :=
  if x.isNaN then .nan true else .float x

def toFloat : Number → Float
  | .int n => n.toFloat
  | .float x => x
  | .nan _ => 0.0 / 0.0

def floatToInt? (x : Float) : Option Int64 :=
  if x.floor == x && (-9223372036854775808.0 : Float) ≤ x && x < (9223372036854775808.0 : Float)
  then some x.toInt64 else none

def toInt? : Number → Option Int64
  | .int n => some n
  | .float x => floatToInt? x
  | .nan _ => none

/-- The integer next to a number in the direction of zero. -/
def truncate? : Number → Option Int64
  | .int n => some n
  | .float x => floatToInt? (if x < 0 then x.ceil else x.floor)
  | .nan _ => none

/-- Numbers are equal by their mathematical value. -/
def same : Number → Number → Bool
  | .int a, .int b => a == b
  | .float x, .float y => x == y
  | .int a, .float y => floatToInt? y == some a
  | .float x, .int b => floatToInt? x == some b
  | .nan _, _ | _, .nan _ => false

/-- Two integers give an integer, and any other pair a float; what is not a number stays so. -/
def arith (onInts : Int64 → Int64 → Int64) (onFloats : Float → Float → Float) :
    Number → Number → Number
  | .int a, .int b => .int (onInts a b)
  | .nan negative, _ | _, .nan negative => .nan negative
  | a, b => ofFloat (onFloats a.toFloat b.toFloat)

def negate : Number → Number
  | .int n => .int (-n)
  | .float x => .float (-x)
  | .nan negative => .nan !negative

/-- The text of a number: fourteen significant digits, and a float shows that it is one. -/
def text : Number → String
  | .int n => toString n.toInt
  | .nan negative => if negative then "-nan" else "nan"
  | .float x =>
      let plain := Text.general 14 x
      if plain.all fun c => c.isDigit || c == '-' then plain ++ ".0" else plain

end Number

end StatePool.Script
