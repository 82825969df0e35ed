import StatePool.Clock

/-!
Instants of the wall clock as dates of the proleptic Gregorian calendar, in UTC, and lengths of
time.
-/

namespace StatePool.Clock

structure Date where
  year : Int
  month : Nat
  day : Nat
  deriving DecidableEq, Repr

/--
The date of a day counted from 1970-01-01.  Years are taken to start in March, so that a leap day is
the last of its year; four centuries have 146097 days and any five months from March on have 153.
-/
def dateOfDay (day : Int) : Date :=
  let shifted := day + 719468
  let era := Int.fdiv shifted 146097
  let dayOfEra := (shifted - era * 146097).toNat
  let yearOfEra :=
    (dayOfEra - dayOfEra / 1460 + dayOfEra / 36524 - dayOfEra / 146096) / 365
  let dayOfYear := dayOfEra - (365 * yearOfEra + yearOfEra / 4 - yearOfEra / 100)
  let marchMonth := (5 * dayOfYear + 2) / 153
  let dayOfMonth := dayOfYear - (153 * marchMonth + 2) / 5 + 1
  let month := if marchMonth < 10 then marchMonth + 3 else marchMonth - 9
  let year := (yearOfEra : Int) + era * 400 + (if month ≤ 2 then 1 else 0)
  ⟨year, month, dayOfMonth⟩

/-- The last date that the wall clock can tell. -/
example : dateOfDay (lastSecond / 86400) = ⟨262142, 12, 31⟩ := by decide

/-- A number in at least `width` digits. -/
def padded (width n : Nat) : String :=
  let digits := toString n
  String.ofList (List.replicate (width - digits.length) '0') ++ digits

/-- Years of four digits stand alone; all others carry their sign. -/
def yearText (year : Int) : String :=
  if 0 ≤ year ∧ year ≤ 9999 then padded 4 year.toNat
  else (if year < 0 then "-" else "+") ++ padded 4 year.natAbs

/-- An instant in UTC; milliseconds are shown if there are any. -/
def instantText (ms : Int) : String :=
  let seconds := wholeSeconds ms
  let fraction := (ms - seconds * 1000).toNat
  let day := Int.fdiv seconds 86400
  let secondOfDay := (seconds - day * 86400).toNat
  let date := dateOfDay day
  yearText date.year ++ "-" ++ padded 2 date.month ++ "-" ++ padded 2 date.day ++ "T" ++
    padded 2 (secondOfDay / 3600) ++ ":" ++ padded 2 (secondOfDay / 60 % 60) ++ ":" ++
    padded 2 (secondOfDay % 60) ++ (if fraction = 0 then "" else "." ++ padded 3 fraction) ++ "Z"

/-- A length of time in seconds, without zeros at the end of the fraction; in milliseconds if it is
shorter than a second. -/
def lengthText (ms : Nat) : String :=
  if ms < 1000 then toString ms ++ "ms"
  else
    let fraction := (padded 3 (ms % 1000)).toList.reverse.dropWhile (· == '0')
    toString (ms / 1000) ++
      (if fraction.isEmpty then "" else "." ++ String.ofList fraction.reverse) ++ "s"

end StatePool.Clock
