import StatePool.Pool.Execution
import StatePool.Pool.Lifecycle

/-!
A pool that any number of callers use at once.

Callers hold the states that they checked out, make lifecycle calls and share the world with
everybody else.  An action is one section of the pool's lock, or something that needs no lock, and
the actions of all callers come in any order.  The first lifecycle call is the one that makes the
pool; nobody can reach the pool before it has succeeded.
-/

namespace StatePool

/-! ### What holders do with their states -/

/-- What a holder may do to a state. -/
inductive Touch where
  | count
  | close
  | cancel
  | setServing (serving : Bool)
  /-- Code runs on its interpreter. -/
  | run (code : Script.Interpreter → Script.Interpreter)

/-- Nothing is hooked into an interpreter by this. -/
def Touch.Tidy : Touch → Prop
  | .run code => ∀ interp : Script.Interpreter, interp.hook = none → (code interp).hook = none
  | _ => True

def LuaState.touch (state : LuaState) (world : World) : Touch → LuaState × World
  | .count => (state.countRequest, world)
  | .close => state.close world
  | .cancel => (state, world.cancel state.token)
  | .setServing serving => (state.setServing world.clock serving, world)
  | .run code => ({ state with interpreter := state.interpreter.map code }, world)

/-- How a state leaves the hands of its holder. -/
inductive Parting where
  | put
  | close
  | dropGuard
  /-- Its guard is dropped while a fault unwinds. -/
  | unwindGuard
  /-- Work on it ended with an error. -/
  | fail
  /-- It is dropped without a word to the pool. -/
  | drop
  deriving DecidableEq, Repr

namespace Parting

/-- The section of the pool that a parting amounts to. -/
def perform (parting : Parting) (site : Site) (state : LuaState) :
    Outcome PoolError Unit × Site :=
  let settle (closed : Outcome Empty Unit × Site) : Outcome PoolError Unit × Site :=
    (Site.conclude closed.1 (.ok ()), closed.2)
  match parting with
  | .put => site.put state
  | .close => settle (site.close state .discarded)
  | .dropGuard => settle (site.dropGuard state)
  | .unwindGuard => settle (site.dropGuardUnwinding state)
  | .fail => settle (site.close state .scriptFailure)
  | .drop => (.ok (), site.forget state)

/-- How work on a state parts with it. -/
def after {α : Type} : Outcome PoolError α → Parting
  | .ok _ => .dropGuard
  | .error _ => .fail
  | .panic _ => .unwindGuard

end Parting

namespace Site

variable {α : Type}

/-- Parts with a state on which work came to a result, and answers for the work. -/
def partAfter (site : Site) (state : LuaState) :
    Outcome PoolError α → Outcome PoolError α × Site
  | .ok a =>
      match site.dropGuard state with
      | (.ok (), site) => (.ok a, site)
      | (.panic fault, site) => (.panic fault, site)
  | .error e =>
      match site.close state .scriptFailure with
      | (.ok (), site) => (.error e, site)
      | (.panic fault, site) => (.panic fault, site)
  | .panic fault => (.panic fault, (site.dropGuardUnwinding state).2)

/-- Work under a watchdog is a checkout, the work itself, and a parting. -/
theorem withState_eq_partAfter (site : Site) (request : Token) (task : Task α)
    {state : LuaState} {next : Site} (h : site.get request = (.ok state, next)) :
    site.withState request task =
      (let ran := next.runWatched request state task
       ran.2.2.partAfter ran.2.1 ran.1) := by
  simp only [withState, h]
  rcases next.runWatched request state task with ⟨result, state, last⟩
  cases result <;> rfl

theorem partAfter_eq_parting (site : Site) (state : LuaState) (result : Outcome PoolError α) :
    (site.partAfter state result).2 = ((Parting.after result).perform site state).2 := by
  cases result with
  | ok a =>
      simp only [partAfter, Parting.after, Parting.perform]
      rcases site.dropGuard state with ⟨result, site⟩
      cases result with
      | ok => rfl
      | error e => exact e.elim
      | panic fault => rfl
  | error e =>
      simp only [partAfter, Parting.after, Parting.perform]
      rcases site.close state .scriptFailure with ⟨result, site⟩
      cases result with
      | ok => rfl
      | error e => exact e.elim
      | panic fault => rfl
  | panic fault => rfl

end Site

/-- Whatever the work is, to its state it is code that ran on the interpreter; and that leaves
nothing hooked in, unless a fault has cut it short. -/
theorem Site.runWatched_eq_touch {α : Type} (site : Site) (request : Token) (state : LuaState)
    (task : Task α) (world : World) :
    ∃ code, (site.runWatched request state task).2.1 = (state.touch world (.run code)).1 ∧
      ((∀ fault, (site.runWatched request state task).1 ≠ .panic fault) →
        (Touch.run code).Tidy) := by
  have untouched : state = (state.touch world (.run id)).1 := by simp [LuaState.touch]
  unfold runWatched
  cases h : state.interpreter with
  | none => exact ⟨id, untouched, fun _ _ hnone => hnone⟩
  | some interp =>
      simp only
      split
      · exact ⟨id, untouched, fun _ _ hnone => hnone⟩
      · generalize Work.run _ _ _ = ran
        obtain ⟨scene, result, trip⟩ := ran
        refine ⟨fun _ => unwatched scene.interp result,
          by simp only [LuaState.touch, h, Option.map_some], fun hreturns interp _ => ?_⟩
        cases result with
        | ok a | error e => rfl
        | panic fault => exact absurd rfl (hreturns fault)

/-- Takes the state of an id out of a list. -/
def pick (id : StateId) : List LuaState → Option (LuaState × List LuaState)
  | [] => none
  | state :: states =>
      if state.id = id then some (state, states)
      else (pick id states).map fun (found, rest) => (found, state :: rest)

theorem perm_of_pick {id : StateId} {states rest : List LuaState} {state : LuaState}
    (h : pick id states = some (state, rest)) :
    state.id = id ∧ states.Perm (state :: rest) := by
  induction states generalizing rest with
  | nil => simp [pick] at h
  | cons first states ih =>
      simp only [pick] at h
      split at h
      · next hid =>
          simp only [Option.some.injEq, Prod.mk.injEq] at h
          obtain ⟨rfl, rfl⟩ := h
          exact ⟨hid, .refl _⟩
      · obtain ⟨⟨found, others⟩, hpick, heq⟩ := Option.map_eq_some_iff.1 h
        simp only [Prod.mk.injEq] at heq
        obtain ⟨rfl, rfl⟩ := heq
        obtain ⟨hid, hperm⟩ := ih hpick
        exact ⟨hid, (hperm.cons first).trans (.swap found first others)⟩

/-! ### What a section did -/

namespace Pool

/-- The events that one moment of a pool has more than an earlier one. -/
def news (before after : Pool) : List Event :=
  after.journal.toList.drop before.journal.size

/-- Whether a state was requeued or retired between two moments of a pool. -/
def tookIn (before after : Pool) (id : StateId) : Bool :=
  after.idle.any (fun state => state.id = id) ||
    (before.news after).any fun event =>
      match event with
      | .cleanedUp closed _ => closed = id
      | _ => false

end Pool

/-! ### Everybody at once -/

/-- Where callers have a state from. -/
inductive Origin where
  | pool
  | caller
  deriving DecidableEq, Repr

structure System where
  site : Site
  /-- The states that callers hold and have from the pool. -/
  held : List LuaState := []
  /-- The states that were handed out and since then neither requeued nor retired, the one handed
  out last in front. -/
  out : List StateId := []
  /-- The states that callers built themselves. -/
  strangers : List LuaState := []
  /-- All lifecycle calls, in the order in which they were made. -/
  calls : List LifecycleRun
  /-- The call that holds the lifecycle lock. -/
  lock : Option Nat := none
  /-- All events, each with the monotonic clock at the end of its section. -/
  log : List (Event × Int) := []

inductive Action where
  /-- Time passes; the wall clock may be set back. -/
  | tick (wall : Int) (monotonic : Nat)
  | context (action : ContextAction)
  /-- A context is made from a token, wherever that comes from. -/
  | entrust (name id : String) (token : Token)
  | cancel (token : Token)
  | build (parent : Token) (budget idleSeconds : Nat) (options : StateOptions)
      (hook : Option InitHook)
  | touch (origin : Origin) (id : StateId) (touch : Touch)
  | get (request : Token)
  /-- The section of a request that looked at its token some time ago. -/
  | checkOut
  | part (origin : Origin) (id : StateId) (parting : Parting)
  | setStateOptions (options : StateOptions)
  | look
  | call (call : LifecycleCall)
  /-- The caller of a lifecycle call goes through its next section. -/
  | advance (index : Nat)

/-- What callers promise: they give back only what they have from the pool, and leave its serving
mark alone. -/
def Action.honest : Action → Bool
  | .touch .pool _ (.setServing _) => false
  | .part .caller _ parting => parting = .drop
  | _ => true

/-- What the one who acts is told. -/
inductive Report where
  | nothing
  | granted (state : LuaState)
  | done
  | refused (e : PoolError)
  | panicked (fault : Fault)
  | seen (stats : Stats)

def Report.ofOutcome {α : Type} (f : α → Report) : Outcome PoolError α → Report
  | .ok a => f a
  | .error e => .refused e
  | .panic fault => .panicked fault

/-- What a lifecycle call is told behind a section. -/
def LifecycleRun.report (run : LifecycleRun) : Report :=
  match run.result? with
  | some result => .ofOutcome (fun () => .done) result
  | none => .nothing

namespace System

/-- A pool that is being made. -/
def make (config : Config) (hook : Option InitHook) (root : Token) (world : World) : System where
  site := .idle config hook root world
  calls := [{ call := .restart root, phase := .starting root }]
  lock := some 0

/-- Whether the pool was made. -/
def isOpen (sys : System) : Bool :=
  match sys.calls.head? with
  | some { phase := .done (.ok ()), .. } => true
  | _ => false

def ifOpen (sys : System) (next : Report × System) : Report × System :=
  if sys.isOpen then next else (.nothing, sys)

def states (sys : System) : Origin → List LuaState
  | .pool => sys.held
  | .caller => sys.strangers

def withStates (sys : System) (states : List LuaState) : Origin → System
  | .pool => { sys with held := states }
  | .caller => { sys with strangers := states }

def withWorld (sys : System) (world : World) : System :=
  { sys with site := { sys.site with world } }

/-- Hands a state out if the section of a checkout yields one. -/
def grant (sys : System) : Outcome PoolError LuaState × Site → Report × System
  | (.ok state, site) =>
      (.granted state, { sys with site, held := state :: sys.held, out := state.id :: sys.out })
  | (.error e, site) => (.refused e, { sys with site })
  | (.panic fault, site) => (.panicked fault, { sys with site })

/-- A state comes back; it is no longer out if the pool has taken it in. -/
def takeBack (sys : System) (id : StateId) : Outcome PoolError Unit × Site → Report × System
  | (result, site) =>
      let out := if sys.site.pool.tookIn site.pool id then sys.out.erase id else sys.out
      (.ofOutcome (fun () => .done) result, { sys with site, out })

def build (sys : System) (parent : Token) (budget idleSeconds : Nat) (options : StateOptions)
    (hook : Option InitHook) : Report × System :=
  match LuaState.create parent budget idleSeconds options hook sys.site.world with
  | (.ok state, world) =>
      (.done, { sys.withWorld world with strangers := state :: sys.strangers })
  | (.error e, world) => (.refused e, sys.withWorld world)
  | (.panic fault, world) => (.panicked fault, sys.withWorld world)

def touch (sys : System) (origin : Origin) (id : StateId) (touch : Touch) : Report × System :=
  match pick id (sys.states origin) with
  | none => (.nothing, sys)
  | some (state, rest) =>
      let (state, world) := state.touch sys.site.world touch
      (.done, (sys.withWorld world).withStates (state :: rest) origin)

def part (sys : System) (origin : Origin) (id : StateId) (parting : Parting) : Report × System :=
  match pick id (sys.states origin) with
  | none => (.nothing, sys)
  | some (state, rest) => (sys.withStates rest origin).takeBack id (parting.perform sys.site state)

/-- One section of a lifecycle call.  Before its first one it takes the lifecycle lock, and behind
its last one it gives the lock up. -/
def advance (sys : System) (index : Nat) : Report × System :=
  match sys.calls[index]? with
  | none => (.nothing, sys)
  | some run =>
      if sys.lock = some index then
        match run.result? with
        | some _ => (.nothing, { sys with lock := none })
        | none =>
            let (run, site) := run.step sys.site
            (run.report, { sys with site, calls := sys.calls.set index run })
      else if sys.lock = none ∧ run.phase = .entering then
        (.nothing, { sys with lock := some index })
      else (.nothing, sys)

def act (sys : System) : Action → Report × System
  | .tick wall monotonic =>
      let world := sys.site.world
      (.nothing, sys.withWorld
        { world with clock := (world.clock.shiftWall wall).shiftMonotonic monotonic })
  | .context action =>
      let world := sys.site.world
      (.nothing, sys.withWorld { world with book := world.book.apply action })
  | .entrust name id token =>
      let world := sys.site.world
      (.nothing, sys.withWorld { world with book := world.book.hold name { id, token } })
  | .cancel token => (.nothing, sys.withWorld (sys.site.world.cancel token))
  | .build parent budget idleSeconds options hook =>
      sys.build parent budget idleSeconds options hook
  | .touch origin id touch => sys.touch origin id touch
  | .get request => sys.ifOpen (sys.grant (sys.site.get request))
  | .checkOut => sys.ifOpen (sys.grant sys.site.checkOut)
  | .part origin id parting => sys.ifOpen (sys.part origin id parting)
  | .setStateOptions options =>
      sys.ifOpen (.done, { sys with site := sys.site.setStateOptions options })
  | .look => sys.ifOpen (.seen sys.site.pool.stats, sys)
  | .call call => sys.ifOpen (.nothing, { sys with calls := sys.calls ++ [{ call }] })
  | .advance index => sys.advance index

/-- Takes note of what happened in the pool since an earlier moment. -/
def note (before after : System) : System :=
  { after with
    log := before.log ++
      (before.site.pool.news after.site.pool).map fun event =>
        (event, after.site.world.clock.monotonic) }

def step (sys : System) (action : Action) : Report × System :=
  let (report, next) := sys.act action
  (report, sys.note next)

/-- All actions, one after the other. -/
def run (sys : System) (actions : List Action) : System :=
  actions.foldl (fun sys action => (sys.step action).2) sys

end System

end StatePool
