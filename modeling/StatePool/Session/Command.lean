import StatePool.Event.Hub
import StatePool.Pool.Lifecycle
import StatePool.Session.Request

/-!
What a caller of a pool may do, step by step, and what is answered.

A caller holds states under names, bare or in a guard that gives them back.
-/

namespace StatePool

/-- Which lifecycle call is made; a restart names the context of the new life. -/
inductive LifecycleOrder where
  | shutdown
  | terminate
  | restart (context : Option String)
  deriving DecidableEq, Repr

/-- How a state outside of any pool is built. -/
structure Blueprint where
  budget : Nat := 0
  idleSeconds : Nat := 0
  options : StateOptions := {}
  hooked : Bool := false
  deriving DecidableEq, Repr

inductive Command where
  | advance (both wall monotonic : Int)
  | newContext (name id : String) (parent : Option String)
  | cancelContext (name : String)
  | create (handle : String) (context : Option String) (blueprint : Blueprint)
  | info (handle : String)
  | inc (handle : String) (times : Nat)
  | setServing (handle : String) (serving : Bool)
  | closeState (handle : String)
  | cancelState (handle : String)
  | runOn (handle text : String)
  | describe (handle : String)
  | drop (handle : String)
  | get (handle : String) (context : Option String)
  | acquire (handle : String) (context : Option String)
  | put (handle : String)
  | close (handle : String)
  | discard (handle : String)
  | unguard (handle : String)
  | unwindGuard (handle : String)
  | cycle (times : Nat) (context : Option String) (closing : Bool)
  | setStateOptions (options : StateOptions)
  | config
  | describePool
  | counters
  | subscribe (name : String)
  | unsubscribe (name : String)
  | receive (name : String) (count : Option Nat)
  | lifecycle (order : LifecycleOrder)
  | request (request : Request)

structure StateInfo where
  id : StateId
  requested : Nat
  serving : Bool
  closed : Bool
  hasInterpreter : Bool
  cancelled : Bool
  mustTerminate : Bool
  servingFor : Option Nat
  /-- On the wall clock. -/
  createdAt : Int
  deriving DecidableEq, Repr

inductive Answer where
  | ok
  | okAbout (id : StateId)
  | pending
  /-- Nothing is held under the name. -/
  | notHeld
  | noInterpreter
  | flag (b : Bool)
  | info (info : StateInfo)
  | reply (reply : Reply)
  | state (state : LuaState) (guarded : Bool)
  | text (text : String)
  | counters (stats : Stats)
  | received (received : List (Received Event))
  | failed (e : PoolError)
  | panicked (fault : Fault)

namespace Answer

def ofOutcome {α : Type} (f : α → Answer) : Outcome PoolError α → Answer
  | .ok a => f a
  | .error e => .failed e
  | .panic fault => .panicked fault

/-- The answer to a section that cannot fail but by a fault. -/
def ofSection (f : Answer) : Outcome Empty Unit → Answer
  | .ok () => f
  | .panic fault => .panicked fault

end Answer

end StatePool
