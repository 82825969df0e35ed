import StatePool.Clock.Calendar
import StatePool.Event

/-!
Faults: breaches of a promise between the pool and its callers, and panics of code that the pool was
given.  A fault unwinds; it is never returned as an error.
-/

namespace StatePool

inductive Fault where
  | raised (message : String)
  /-- A state that is not checked out was to be closed. -/
  | notCheckedOut (id : StateId)
  /-- A state was to be retired from a pool that counts none. -/
  | emptyPool
  /-- A checkout was to end while none is counted. -/
  | noCheckout
  /-- A drained pool counts another number of states than it closed. -/
  | uneven (counted closed : Nat)
  | seedingInUse (serving : Nat)
  /-- The deadline of a request lies beyond the range of the monotonic clock. -/
  | deadlineOverflow
  | clock (fault : ClockFault)
  | emptyBus
  | oversizedBus
  /-- The messages that a bus is to keep do not fit into any memory. -/
  | boundlessBus
  deriving DecidableEq, Repr

namespace Fault

def unequal (text : String) (left right : Nat) : String :=
  "assertion `left == right` failed: " ++ text ++
    "\n  left: " ++ toString left ++ "\n right: " ++ toString right

/-- The text of a fault, with states called as `label` says. -/
def message (label : StateId → String) : Fault → String
  | .raised message => message
  | .notCheckedOut id => "closing Lua state " ++ label id ++ " that is not checked out"
  | .emptyPool => "retiring Lua state from an empty pool"
  | .noCheckout => "releasing a checkout nobody holds"
  | .uneven counted closed => unequal "drained pool still counts states" counted closed
  | .seedingInUse serving => unequal "seeding with checked-out states" serving 0
  | .deadlineOverflow => "overflow when adding duration to instant"
  | .clock (.beforeEpoch ms) =>
      "system time before Unix epoch: SystemTimeError(" ++ Clock.lengthText ms ++ ")"
  | .clock .beyondCalendar => "called `Option::unwrap()` on a `None` value"
  | .emptyBus => "broadcast channel capacity cannot be zero"
  | .oversizedBus => "broadcast channel capacity exceeded `usize::MAX / 2`"
  | .boundlessBus => "capacity overflow"

def state? : Fault → Option StateId
  | .notCheckedOut id => some id
  | _ => none

end Fault

/-- How a computation ends: with a result, with an error, or unwinding from a fault. -/
inductive Outcome (ε α : Type) where
  | ok (a : α)
  | error (e : ε)
  | panic (fault : Fault)
  deriving DecidableEq, Repr

namespace Outcome

variable {ε α β : Type}

def map (f : α → β) : Outcome ε α → Outcome ε β
  | .ok a => .ok (f a)
  | .error e => .error e
  | .panic fault => .panic fault

def mapError {ε' : Type} (f : ε → ε') : Outcome ε α → Outcome ε' α
  | .ok a => .ok a
  | .error e => .error (f e)
  | .panic fault => .panic fault

end Outcome

end StatePool
