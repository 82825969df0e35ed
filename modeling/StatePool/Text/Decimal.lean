/-!
Decimal texts of binary64 numbers, in exact arithmetic.

A finite number other than zero is `m * 2 ^ q`.  Its digits to a given precision are those of the
nearest decimal number, a tie going to the even digit; the shortest text has the fewest digits that
read back as the same number.
-/

namespace StatePool.Text

/-- The magnitude of a finite number as `m * 2 ^ q`. -/
def decompose (x : Float) : Nat × Int :=
  let bits := x.toBits.toNat
  let exponent : Nat := bits / Nat.pow 2 52 % Nat.pow 2 11
  let fraction : Nat := bits % Nat.pow 2 52
  if exponent = 0 then (fraction, -1074) else (fraction + Nat.pow 2 52, (exponent : Int) - 1075)

def isNegative (x : Float) : Bool := x.toBits.toNat / Nat.pow 2 63 == 1

/-- The nearest natural number to a quotient; a tie goes to the even one. -/
def nearest (numerator denominator : Nat) : Nat :=
  let quotient := numerator / denominator
  let twice := 2 * (numerator % denominator)
  if denominator < twice ∨ (twice = denominator ∧ quotient % 2 = 1) then quotient + 1 else quotient

/-- `numerator / denominator * 10 ^ power`, to the nearest natural number. -/
def nearestScaled (numerator denominator : Nat) (power : Int) : Nat :=
  if 0 ≤ power then nearest (numerator * Nat.pow 10 power.toNat) denominator
  else nearest numerator (denominator * Nat.pow 10 (-power).toNat)

/-- Significant digits `d` and the power of ten `p` of the first of them: the value is about
`d * 10 ^ (p + 1 - count)`. -/
structure Digits where
  digits : Nat
  power : Int
  deriving DecidableEq, Repr

/-- The power of ten of the first digit of a quotient: the estimate from the lengths of its two
parts is right or one too large. -/
def leadingPower (numerator denominator : Nat) : Int :=
  let estimate : Int :=
    (Nat.toDigits 10 numerator).length - (Nat.toDigits 10 denominator).length
  let reaches :=
    if 0 ≤ estimate then denominator * Nat.pow 10 estimate.toNat ≤ numerator
    else denominator ≤ numerator * Nat.pow 10 (-estimate).toNat
  if reaches then estimate else estimate - 1

/-- The first `count` digits of the magnitude of a finite number that is not zero. -/
def significant (count : Nat) (x : Float) : Digits :=
  let (m, q) := decompose x
  let numerator := if 0 ≤ q then m * Nat.pow 2 q.toNat else m
  let denominator := if 0 ≤ q then 1 else Nat.pow 2 (-q).toNat
  let power := leadingPower numerator denominator
  let digits := nearestScaled numerator denominator (count - 1 - power)
  if digits = Nat.pow 10 count then ⟨Nat.pow 10 (count - 1), power + 1⟩ else ⟨digits, power⟩

/-- The number that `count` significant digits denote. -/
def Digits.toFloat (d : Digits) (count : Nat) : Float :=
  let shift := d.power + 1 - count
  Float.ofScientific d.digits (shift < 0) shift.natAbs

/-- A natural number as text of at least `width` digits. -/
def paddedDigits (width n : Nat) : List Char :=
  let digits := Nat.toDigits 10 n
  List.replicate (width - digits.length) '0' ++ digits

/-- `digits * 10 ^ (-places)` in positional notation, without trailing zeros after the point. -/
def positional (digits : Nat) (places : Int) : List Char :=
  if places ≤ 0 then Nat.toDigits 10 (digits * Nat.pow 10 (-places).toNat)
  else
    let scale := Nat.pow 10 places.toNat
    let fraction :=
      (paddedDigits places.toNat (digits % scale)).reverse.dropWhile (· == '0') |>.reverse
    Nat.toDigits 10 (digits / scale) ++ (if fraction.isEmpty then [] else '.' :: fraction)

/-- The nearest number of `count` significant digits that reads back, if one does: the nearest at
all or the one on the other side. -/
def readsBack? (x : Float) (count : Nat) : Option Digits :=
  let d := significant count x
  let candidates : List Digits := [d, ⟨d.digits + 1, d.power⟩, ⟨d.digits - 1, d.power⟩]
  candidates.find? fun d => d.toFloat count == x.abs

/-- The fewest digits that read back, from `count` of them on, and how many they are. -/
def fewest (x : Float) : Nat → Nat → Nat × Digits
  | 0, count => (count, significant count x)
  | left + 1, count =>
      match readsBack? x count with
      | some d => (count, d)
      | none => fewest x left (count + 1)

/-- A text that shows it is no integer: a point, with a zero behind it if nothing else. -/
def withPoint (text : List Char) : List Char :=
  if '.' ∈ text then text else text ++ ['.', '0']

/-- The shortest text that reads back: positional from a ten-thousandth up to ten to the sixteenth,
and with an exponent below and above. -/
def shortest (x : Float) : String :=
  let sign := if isNegative x then "-" else ""
  if x.isNaN then "NaN"
  else if x.isInf then sign ++ "inf"
  else if x == 0 then sign ++ "0.0"
  else
    let (count, d) := fewest x 16 1
    if -4 ≤ d.power ∧ d.power < 16 then
      sign ++ String.ofList (withPoint (positional d.digits (count - 1 - d.power)))
    else
      sign ++ String.ofList (positional d.digits (count - 1)) ++ "e" ++ toString d.power

/-- Up to `count` significant digits, with an exponent where the first digit stands further than
that to the left of the point or more than four places to its right. -/
def general (count : Nat) (x : Float) : String :=
  let sign := if isNegative x then "-" else ""
  if x.isNaN then sign ++ "nan"
  else if x.isInf then sign ++ "inf"
  else if x == 0 then sign ++ "0"
  else
    let d := significant count x
    if -4 ≤ d.power ∧ d.power < count then
      sign ++ String.ofList (positional d.digits (count - 1 - d.power))
    else
      let mantissa := positional d.digits (count - 1)
      let exponentSign := if d.power < 0 then '-' else '+'
      sign ++ String.ofList (mantissa ++ 'e' :: exponentSign :: paddedDigits 2 d.power.natAbs)

end StatePool.Text
