import StatePool.Json.Reading

/-!
Numbers in JSON text.

A numeral is read by its grammar first and given a value afterwards.  One without fraction and
exponent denotes an integer if 64 bits hold it; every other denotes a binary64 number, which may lie
beyond the largest finite one.
-/

namespace StatePool.Json

structure Numeral where
  negative : Bool
  /-- The digits before the point, most significant first. -/
  whole : List Nat
  fraction : Option (List Nat)
  /-- Whether the exponent is negative, and its digits. -/
  exponent : Option (Bool × List Nat)
  deriving DecidableEq, Repr

/-! ### Grammar -/

def digitOf (c : Char) : Nat := c.toNat - '0'.toNat

/-- All digits in front of a text. -/
def takeDigits (s : List Char) : List Nat × List Char :=
  ((s.takeWhile Char.isDigit).map digitOf, s.dropWhile Char.isDigit)

/-- Digits of which at least one is due; `short` is the fault of a text that ends before it. -/
def readDigits (short : Fault) : Reader (List Nat) := fun s =>
  match takeDigits s with
  | ([], []) => .error short
  | ([], _ :: _) => .error .malformed
  | (digits, rest) => .ok (digits, rest)

/-- The digits before the point: a leading zero stands alone. -/
def readWholeDigits (short : Fault) : Reader (List Nat) := fun s =>
  match s with
  | '0' :: c :: rest => if c.isDigit then .error .malformed else .ok ([0], c :: rest)
  | _ => readDigits short s

def readFraction (short : Fault) : Reader (Option (List Nat)) := fun s =>
  match s with
  | '.' :: rest => (readDigits short rest).map fun (digits, rest) => (some digits, rest)
  | _ => .ok (none, s)

def readExponentSign : List Char → Bool × List Char
  | '+' :: rest => (false, rest)
  | '-' :: rest => (true, rest)
  | s => (false, s)

def readExponent (short : Fault) : Reader (Option (Bool × List Nat)) := fun s =>
  match s with
  | 'e' :: rest | 'E' :: rest =>
      let (negative, rest) := readExponentSign rest
      (readDigits short rest).map fun (digits, rest) => (some (negative, digits), rest)
  | _ => .ok (none, s)

def readUnsignedNumeral (short : Fault) (negative : Bool) : Reader Numeral := fun s =>
  match readWholeDigits short s with
  | .error fault => .error fault
  | .ok (whole, s) =>
      match readFraction short s with
      | .error fault => .error fault
      | .ok (fraction, s) =>
          match readExponent short s with
          | .error fault => .error fault
          | .ok (exponent, s) => .ok (⟨negative, whole, fraction, exponent⟩, s)

/-- Reads a numeral; `short` is the fault of one that the end of the text cuts off. -/
def readNumeral (short : Fault) : Reader Numeral := fun s =>
  match s with
  | '-' :: rest => readUnsignedNumeral short true rest
  | _ => readUnsignedNumeral short false s

/-! ### Value -/

def digitsValue (digits : List Nat) : Nat :=
  digits.foldl (fun n d => 10 * n + d) 0

/-- The integer a numeral denotes: 64 bits hold it, and it is not a negative zero. -/
def Numeral.toInt? (x : Numeral) : Option Int :=
  if x.fraction.isSome || x.exponent.isSome then none
  else
    let n := digitsValue x.whole
    if x.negative then
      if 0 < n ∧ n ≤ Nat.pow 2 63 then some (-n) else none
    else
      if n < Nat.pow 2 64 then some n else none

/-- Appends digits while 64 bits hold the result, and counts those left out. -/
def absorb : Nat → List Nat → Nat × Nat
  | n, [] => (n, 0)
  | n, d :: digits =>
      if 10 * n + d < Nat.pow 2 64 then absorb (10 * n + d) digits else (n, digits.length + 1)

/-- The nearest number of 53 significant bits; a tie goes to the even one. -/
def roundTo53Bits (n : Nat) : Nat :=
  if n < Nat.pow 2 53 then n
  else
    let shift := n.log2 - 52
    let quotient := n >>> shift
    let excess := n - (quotient <<< shift)
    let half := 1 <<< (shift - 1)
    let up := half < excess || (excess == half && quotient % 2 == 1)
    (if up then quotient + 1 else quotient) <<< shift

/-- Whether a product rounds to a number beyond the largest finite binary64 number. -/
def roundsToInfinity (n : Nat) : Bool :=
  Nat.pow 2 1024 - Nat.pow 2 970 ≤ n

/--
Whether a numeral lies beyond the finite binary64 numbers.  Its value is taken as the first digits
that 64 bits hold times a power of ten, each rounded and the product rounded again.
-/
def Numeral.isBeyondFinite (x : Numeral) : Bool :=
  let (head, wholeLeft) := absorb 0 x.whole
  let fraction := x.fraction.getD []
  let (significand, fractionLeft) := absorb head fraction
  let shift : Int :=
    match x.exponent with
    | none => 0
    | some (negative, digits) => if negative then -digitsValue digits else digitsValue digits
  let power : Int := wholeLeft - (fraction.length - fractionLeft : Nat) + shift
  if significand = 0 ∨ power < 0 then false
  else if 308 < power then true
  else roundsToInfinity (roundTo53Bits significand * roundTo53Bits (Nat.pow 10 power.toNat))

def Numeral.misfit (x : Numeral) : Fault :=
  if x.toInt?.isNone && x.isBeyondFinite then .malformed else .mismatched

end StatePool.Json
