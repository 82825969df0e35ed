import StatePool.Error

/-!
Idle timeouts: an integer followed by the letter of a unit of time.
-/

namespace StatePool

inductive TimeUnit where
  | days
  | hours
  | minutes
  | seconds
  deriving DecidableEq, Repr

namespace TimeUnit

def letter : TimeUnit → Char
  | .days => 'd'
  | .hours => 'h'
  | .minutes => 'm'
  | .seconds => 's'

def ofLetter? (c : Char) : Option TimeUnit :=
  if c = 'd' then some .days
  else if c = 'h' then some .hours
  else if c = 'm' then some .minutes
  else if c = 's' then some .seconds
  else none

/-- Length in seconds. -/
def length : TimeUnit → Nat
  | .days => 86400
  | .hours => 3600
  | .minutes => 60
  | .seconds => 1

theorem ofLetter?_letter (unit : TimeUnit) : ofLetter? unit.letter = some unit := by
  cases unit <;> decide

end TimeUnit

structure IdleTimeout where
  count : Int64
  unit : TimeUnit
  deriving DecidableEq, Repr

namespace IdleTimeout

def defaultCount : Int64 := 1

/-- Splits a text into a nonempty front and the unit that its last letter names. -/
def split? (text : List Char) : Option (List Char × TimeUnit) :=
  match text.reverse with
  | letter :: c :: front => (TimeUnit.ofLetter? letter).map fun unit => ((c :: front).reverse, unit)
  | _ => none

/-- Reads a timeout; a negative number becomes the default one and the unit stays. -/
def read (text : String) : Except PoolError IdleTimeout :=
  match split? text.toList with
  | none => .error (.idleTimeoutFormat text)
  | some (digits, unit) =>
      match Text.readInt64 digits with
      | .error fault =>
          .error (.configuration
            ("invalid idle timeout number '" ++ String.ofList digits ++ "'")
            (some (.integer fault)))
      | .ok n => .ok ⟨if n < 0 then defaultCount else n, unit⟩

/-- A number of units in seconds, at most what 64 bits hold.  A number that is not positive and a
letter that names no unit mean no limit, which is zero. -/
def secondsOf (n : Int64) (unit : Option TimeUnit) : Nat :=
  match unit with
  | none => 0
  | some unit => if n ≤ 0 then 0 else min (n.toNatClampNeg * unit.length) (Nat.pow 2 64 - 1)

def seconds (timeout : IdleTimeout) : Nat :=
  secondsOf timeout.count (some timeout.unit)

/-- The canonical text: the number without sign or leading zeros, and the unit. -/
def text (timeout : IdleTimeout) : List Char :=
  Nat.toDigits 10 timeout.count.toNatClampNeg ++ [timeout.unit.letter]

end IdleTimeout

end StatePool
