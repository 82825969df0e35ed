/-!
Reading 64-bit integers from text, with the cause of each refusal.

A numeral is one optional sign and then ASCII digits only.  It is read from the left, so the first
character that cannot continue it decides the cause; at one and the same character a missing digit
is reported before an exceeded range.
-/

namespace StatePool.Text

/-- Why a text is not a 64-bit integer. -/
inductive IntegerFault where
  | empty
  | invalidDigit
  | tooLarge
  | tooSmall
  deriving DecidableEq, Repr

def IntegerFault.message : IntegerFault → String
  | .empty => "cannot parse integer from empty string"
  | .invalidDigit => "invalid digit found in string"
  | .tooLarge => "number too large to fit in target type"
  | .tooSmall => "number too small to fit in target type"

def digit? (c : Char) : Option Nat :=
  if '0' ≤ c ∧ c ≤ '9' then some (c.toNat - '0'.toNat) else none

/-- Continues the magnitude `n` with the digits of a text, up to a largest admitted magnitude. -/
def readMagnitude (bound : Nat) (beyond : IntegerFault) :
    Nat → List Char → Except IntegerFault Nat
  | n, [] => .ok n
  | n, c :: rest =>
      match digit? c with
      | none => .error .invalidDigit
      | some d =>
          if 10 * n + d ≤ bound then readMagnitude bound beyond (10 * n + d) rest
          else .error beyond

def readPositive (digits : List Char) : Except IntegerFault Int64 :=
  (readMagnitude (Nat.pow 2 63 - 1) .tooLarge 0 digits).map fun n => Int64.ofInt n

def readNegative (digits : List Char) : Except IntegerFault Int64 :=
  (readMagnitude (Nat.pow 2 63) .tooSmall 0 digits).map fun n => Int64.ofInt (-n)

/-- A 64-bit integer from its decimal text; a sign alone lacks its digit. -/
def readInt64 : List Char → Except IntegerFault Int64
  | [] => .error .empty
  | ['+'] | ['-'] => .error .invalidDigit
  | '+' :: digits => readPositive digits
  | '-' :: digits => readNegative digits
  | digits => readPositive digits

end StatePool.Text
