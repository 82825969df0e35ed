import StatePool.Clock.Calendar
import StatePool.Config
import StatePool.Fault
import StatePool.Script.Interpreter
import StatePool.World

/-!
States: interpreters with what decides about their retirement.

A state is born from a context and holds a child of its token.  It is closed exactly when its
interpreter is gone.  Closing it, like dropping it, cancels its own token.
-/

namespace StatePool

structure LuaState where
  id : StateId
  interpreter : Option Script.Interpreter
  requested : Nat := 0
  /-- On the wall clock. -/
  createdAt : Int
  /-- How many requests it serves, zero for no limit. -/
  budget : Nat
  /-- Zero for no limit. -/
  idleSeconds : Nat
  serving : Bool := false
  /-- Since when it is checked out, on the monotonic clock. -/
  servingSince : Option Int := none
  closed : Bool := false
  token : Token
  deriving Inhabited

/-- How one call of an initialization hook ends: with the interpreter it leaves behind, with an
error, or with a panic of its own. -/
inductive HookResult where
  | ready (interp : Script.Interpreter)
  | failed (e : ScriptError)
  | panicked (message : String)

structure HookRun where
  result : HookResult
  effects : List HostEffect := []

/-- A hook is told how many calls there were, this one included. -/
abbrev InitHook := (call : Nat) → World → Script.Interpreter → HookRun

namespace LuaState

/-- Prepares a fresh interpreter with a hook, if there is one. -/
def prepare (hook : Option InitHook) (interp : Script.Interpreter) (world : World) :
    Outcome ScriptError Script.Interpreter × World :=
  match hook with
  | none => (.ok interp, world)
  | some hook =>
      let world := { world with hookCalls := world.hookCalls + 1 }
      let run := hook world.hookCalls world interp
      let result :=
        match run.result with
        | .ready interp => .ok interp
        | .failed e => .error e
        | .panicked message => .panic (.raised message)
      (result, world.undergoAll run.effects)

/-- Builds a state below a token. -/
def create (parent : Token) (budget idleSeconds : Nat) (options : StateOptions)
    (hook : Option InitHook) (world : World) : Outcome PoolError LuaState × World :=
  match prepare hook { options } world with
  | (.panic fault, world) => (.panic fault, world)
  | (.error cause, world) => (.error (.initialization "init hook failed" cause), world)
  | (.ok interp, world) =>
      match world.clock.now with
      | .error fault => (.panic (.clock fault), world)
      | .ok createdAt =>
          let (token, tokens) := world.book.tokens.child parent
          let state : LuaState :=
            { id := ⟨world.states⟩, interpreter := some interp, createdAt, budget, idleSeconds,
              token }
          (.ok state, { world with states := world.states + 1, book.tokens := tokens })

def countRequest (state : LuaState) : LuaState :=
  { state with requested := state.requested + 1 }

def setServing (state : LuaState) (clock : Clock) (serving : Bool) : LuaState :=
  { state with serving, servingSince := if serving then some clock.monotonic else none }

/-- An unsigned number of seconds as the signed one of the same 64 bits. -/
def signedSeconds (seconds : Nat) : Int := Int.bmod seconds (Nat.pow 2 64)

/-- The age at an instant in whole seconds, from those of birth to those of the instant. -/
def age (state : LuaState) (now : Int) : Int :=
  Clock.wholeSeconds now - Clock.wholeSeconds state.createdAt

/-- Whether the state is to be retired: a request budget alone decides if there is one, and the age
otherwise.  The clock is read only where there is an idle timeout to compare the age with. -/
def mustTerminate (state : LuaState) (clock : Clock) : Except ClockFault Bool :=
  if 0 < state.budget then .ok (state.budget ≤ state.requested)
  else if state.idleSeconds = 0 then .ok false
  else
    match clock.now with
    | .error fault => .error fault
    | .ok now => .ok (signedSeconds state.idleSeconds < state.age now)

def servingFor (state : LuaState) (clock : Clock) : Option Nat :=
  state.servingSince.map clock.since

/-- Ends the life of a state; its token is cancelled along with it. -/
def close (state : LuaState) (world : World) : LuaState × World :=
  ({ state with closed := true, serving := false, servingSince := none, interpreter := none },
    world.cancel state.token)

/-- Within the range of signed seconds the reading changes nothing. -/
theorem signedSeconds_of_lt {seconds : Nat} (h : seconds < Nat.pow 2 63) :
    signedSeconds seconds = seconds := by
  have hhalf : Nat.pow 2 63 = 9223372036854775808 := rfl
  have hwhole : Nat.pow 2 64 = 18446744073709551616 := rfl
  unfold signedSeconds
  rw [Int.bmod_eq_of_le] <;> omega

def describe (label : StateId → String) (state : LuaState) : String :=
  "LState \x7b id: " ++ label state.id ++
    ", requested_num: " ++ toString state.requested ++
    ", created_at: " ++ Clock.instantText state.createdAt ++
    ", max_request: " ++ toString state.budget ++
    ", idle_timeout_secs: " ++ toString state.idleSeconds ++
    ", serving: " ++ toString state.serving ++
    ", closed: " ++ toString state.closed ++ " \x7d"

def describeGuarded (label : StateId → String) (state : LuaState) : String :=
  "StateGuard \x7b state: Some(" ++ state.describe label ++ ") \x7d"

end LuaState

end StatePool
