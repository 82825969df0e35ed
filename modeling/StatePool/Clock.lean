/-!
The two clocks of the pool, in whole milliseconds.

The wall clock dates states and may be set back; the monotonic clock measures how long something
took.  Neither moves by itself.  The wall clock may be set to where there are no dates, and only who
reads it there notices.
-/

namespace StatePool

inductive ClockFault where
  /-- It stands so many milliseconds before 1970. -/
  | beforeEpoch (ms : Nat)
  | beyondCalendar
  deriving DecidableEq, Repr

structure Clock where
  /-- Milliseconds since 1970-01-01T00:00:00Z. -/
  wall : Int := 1700000000000
  /-- Milliseconds since an instant of no importance. -/
  monotonic : Int := 1000000
  deriving DecidableEq, Repr, Inhabited

namespace Clock

def advance (clock : Clock) (ms : Int) : Clock :=
  ⟨clock.wall + ms, clock.monotonic + ms⟩

def shiftWall (clock : Clock) (ms : Int) : Clock :=
  { clock with wall := clock.wall + ms }

def shiftMonotonic (clock : Clock) (ms : Int) : Clock :=
  { clock with monotonic := clock.monotonic + ms }

/-- The last whole second at or before an instant. -/
def wholeSeconds (ms : Int) : Int := Int.fdiv ms 1000

/-- The last second of the year 262142, the last one that has a date. -/
def lastSecond : Int := 8210266876799

def now (clock : Clock) : Except ClockFault Int :=
  if clock.wall < 0 then .error (.beforeEpoch clock.wall.natAbs)
  else if lastSecond < wholeSeconds clock.wall then .error .beyondCalendar
  else .ok clock.wall

/-- What is read is what the clock shows, between the first instant and the last second. -/
theorem now_eq_ok_iff (clock : Clock) (ms : Int) :
    clock.now = .ok ms ↔
      ms = clock.wall ∧ 0 ≤ clock.wall ∧ wholeSeconds clock.wall ≤ lastSecond := by
  unfold now
  split
  · simp; omega
  · split
    · simp; omega
    · simp only [Except.ok.injEq]
      constructor
      · rintro rfl
        omega
      · rintro ⟨rfl, -⟩
        rfl

/-- The time since an instant of the monotonic clock; never negative. -/
def since (clock : Clock) (instant : Int) : Nat :=
  (clock.monotonic - instant).toNat

end Clock

end StatePool
