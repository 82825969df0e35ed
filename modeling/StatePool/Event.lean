import StatePool.Status

/-!
What happens in a pool, as its observers see it.
-/

namespace StatePool

/-- Names a state for its whole life; numbers are given out in order of creation. -/
structure StateId where
  number : Nat
  deriving DecidableEq, Repr, Inhabited

inductive CleanupReason where
  | requestBudget
  /-- It outlived its idle timeout. -/
  | idleTimeout
  | scriptFailure
  | shutdown
  /-- It came back to a pool that no longer accepts any. -/
  | rejected
  /-- Its holder closed it. -/
  | discarded
  /-- Its token was cancelled. -/
  | cancelled
  deriving DecidableEq, Repr

def CleanupReason.name : CleanupReason → String
  | .requestBudget => "RequestBudget"
  | .idleTimeout => "IdleTimeout"
  | .scriptFailure => "ScriptFailure"
  | .shutdown => "Shutdown"
  | .rejected => "Rejected"
  | .discarded => "Discarded"
  | .cancelled => "Cancelled"

inductive Event where
  | created (id : StateId)
  | acquired (id : StateId)
  /-- The checkout took `usage` milliseconds. -/
  | released (id : StateId) (usage : Nat)
  | cleanedUp (id : StateId) (reason : CleanupReason)
  | poolFull (capacity : Nat)
  | statusChanged (source target : Status)
  deriving DecidableEq, Repr

def Event.state? : Event → Option StateId
  | .created id | .acquired id | .released id _ | .cleanedUp id _ => some id
  | .poolFull _ | .statusChanged _ _ => none

end StatePool
