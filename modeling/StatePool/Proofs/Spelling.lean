import StatePool.Proofs.NormalForm

/-!
The texts of idle timeouts.

A timeout is written as an optional sign, digits and the letter of a unit, and 64 bits hold its
number.  A text that does not end in such a letter is refused for its form, and any other one for the
number in front of the letter.
-/

namespace StatePool

namespace Text

/-- The integers that texts spell: a sign, which may be missing, and at least one digit. -/
inductive Spells : List Char → Int → Prop
  | plain {digits : List Char} (hne : digits ≠ []) (hdigits : ∀ c ∈ digits, c.isDigit = true) :
      Spells digits (Nat.ofDigitChars 10 digits 0)
  | plus {digits : List Char} (hne : digits ≠ []) (hdigits : ∀ c ∈ digits, c.isDigit = true) :
      Spells ('+' :: digits) (Nat.ofDigitChars 10 digits 0)
  | minus {digits : List Char} (hne : digits ≠ []) (hdigits : ∀ c ∈ digits, c.isDigit = true) :
      Spells ('-' :: digits) (-(Nat.ofDigitChars 10 digits 0 : Int))

variable {bound n m : Nat} {beyond : IntegerFault} {c : Char} {digits front : List Char}

end Text

namespace IdleTimeout

variable {text : String} {front : List Char} {unit : TimeUnit}

/-- The ways in which a text is read. -/
inductive Reading (text : String) : Except PoolError IdleTimeout → Prop
  | malformed (hsplit : split? text.toList = none) :
      Reading text (.error (.idleTimeoutFormat text))
  | misnumbered {front : List Char} {unit : TimeUnit} {fault : Text.IntegerFault}
      (hsplit : split? text.toList = some (front, unit))
      (hnumber : Text.readInt64 front = .error fault) :
      Reading text (.error (.configuration
        ("invalid idle timeout number '" ++ String.ofList front ++ "'") (some (.integer fault))))
  | accepted {front : List Char} {unit : TimeUnit} {n : Int64}
      (hsplit : split? text.toList = some (front, unit)) (hnumber : Text.readInt64 front = .ok n) :
      Reading text (.ok ⟨if n < 0 then defaultCount else n, unit⟩)

/-- What a text says: an integer of 64 bits, and a unit. -/
structure Says (text : String) (n : Int) (unit : TimeUnit) : Prop where
  spelled : ∃ front, text.toList = front ++ [unit.letter] ∧ Text.Spells front n
  min_le : Int64.minValue.toInt ≤ n
  le_max : n ≤ Int64.maxValue.toInt

example : (IdleTimeout.read "-09999999999999999999d", IdleTimeout.read "+007m") =
    (.error (.configuration "invalid idle timeout number '-09999999999999999999'"
      (some (.integer .tooSmall))), .ok ⟨7, .minutes⟩) := rfl

end IdleTimeout

end StatePool
