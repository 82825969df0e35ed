import StatePool.Script.Number

/-!
Numerals: how numbers are written in scripts and in strings.

A numeral is decimal or hexadecimal.  One without a point and without an exponent is an integer; a
decimal one that 64 bits do not hold is a float instead, and a hexadecimal one wraps.
-/

namespace StatePool.Script.Numeral

def isSpace (c : Char) : Bool :=
  c == ' ' || ('\t' ≤ c && c ≤ '\r')

def trim (s : List Char) : List Char :=
  ((s.dropWhile isSpace).reverse.dropWhile isSpace).reverse

def hexDigit? (c : Char) : Option Nat :=
  if c.isDigit then some (c.toNat - '0'.toNat)
  else if 'a' ≤ c ∧ c ≤ 'f' then some (c.toNat - 'a'.toNat + 10)
  else if 'A' ≤ c ∧ c ≤ 'F' then some (c.toNat - 'A'.toNat + 10)
  else none

def isHexDigit (c : Char) : Bool := (hexDigit? c).isSome

/-- The value of digits in a base; what is no digit counts as zero. -/
def valueOf (base : Nat) (digits : List Char) : Nat :=
  digits.foldl (fun n c => base * n + (hexDigit? c).getD 0) 0

/-- The digits before and after a point, and what follows them. -/
structure Parts where
  whole : List Char
  fraction : List Char
  hasPoint : Bool
  rest : List Char

def split (isDigit : Char → Bool) (s : List Char) : Parts :=
  let whole := s.takeWhile isDigit
  match s.dropWhile isDigit with
  | '.' :: rest => ⟨whole, rest.takeWhile isDigit, true, rest.dropWhile isDigit⟩
  | rest => ⟨whole, [], false, rest⟩

namespace Parts

def digits (parts : Parts) : List Char := parts.whole ++ parts.fraction

/-- Whether nothing but digits was found, and at least one of them. -/
def isWhole (parts : Parts) : Bool :=
  !parts.hasPoint && parts.rest.isEmpty && !parts.whole.isEmpty

end Parts

def exponent? (mark : Char) : List Char → Option Int
  | [] => some 0
  | c :: rest =>
      if c.toLower = mark then
        let (negative, digits) :=
          match rest with
          | '-' :: digits => (true, digits)
          | '+' :: digits => (false, digits)
          | digits => (false, digits)
        if digits.isEmpty || !digits.all Char.isDigit then none
        else some (if negative then -valueOf 10 digits else valueOf 10 digits)
      else none

/-- An exponent so large that more of it changes no float of a numeral with this many digits. -/
def clamp (digits : Nat) (exponent : Int) : Int :=
  let bound : Int := 5000 + 4 * digits
  max (-bound) (min exponent bound)

/-- An unsigned decimal numeral; `bound` is the largest magnitude of an integer. -/
def decimal? (bound : Nat) (s : List Char) : Option Number :=
  let parts := split Char.isDigit s
  let digits := parts.digits
  let n := valueOf 10 digits
  if parts.isWhole && n ≤ bound then some (.int (Int64.ofNat n))
  else if digits.isEmpty then none
  else
    (exponent? 'e' parts.rest).map fun exponent =>
      let power := clamp digits.length (exponent - parts.fraction.length)
      .float (Float.ofScientific n (power < 0) power.natAbs)

/-- An unsigned hexadecimal numeral after its mark.  A power of two below one is a power of five
over one of ten. -/
def hexadecimal? (s : List Char) : Option Number :=
  let parts := split isHexDigit s
  let digits := parts.digits
  let n := valueOf 16 digits
  if parts.isWhole then some (.int (Int64.ofNat n))
  else if digits.isEmpty then none
  else
    (exponent? 'p' parts.rest).map fun exponent =>
      let power := clamp digits.length (exponent - 4 * parts.fraction.length)
      .float
        (if power < 0 then Float.ofScientific (n * Nat.pow 5 power.natAbs) true power.natAbs
        else Float.ofScientific (n * Nat.pow 2 power.natAbs) false 0)

def unsigned? (bound : Nat) : List Char → Option Number
  | '0' :: 'x' :: s | '0' :: 'X' :: s => hexadecimal? s
  | s => decimal? bound s

def ofLexeme? : List Char → Option Number := unsigned? (Nat.pow 2 63 - 1)

/-- The number that a text denotes; it may have a sign, and blanks around it do not count. -/
def ofText? (text : List Char) : Option Number :=
  match trim text with
  | '-' :: s => (unsigned? (Nat.pow 2 63) s).map Number.negate
  | '+' :: s => unsigned? (Nat.pow 2 63 - 1) s
  | s => unsigned? (Nat.pow 2 63 - 1) s

end StatePool.Script.Numeral
