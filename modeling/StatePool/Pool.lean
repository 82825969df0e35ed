import StatePool.LuaState

/-!
A bounded pool of states.

The pool hands out the state that came back last, builds a new one while its capacity allows, and
otherwise refuses; it never waits.  `length` counts the states that are idle or checked out.  Each
function here is one section that no other one interrupts.  A section reports what happened in the
pool's journal.
-/

namespace StatePool

structure Pool where
  config : Config
  hook : Option InitHook := none
  status : Status := .ready
  /-- The states that wait, the one that came back last in front. -/
  idle : List LuaState := []
  length : Nat := 0
  /-- How many checkouts have not ended. -/
  serving : Nat := 0
  total : Nat := 0
  /-- The token that new states are born from. -/
  root : Token
  /-- Whether a drain sleeps until the last checkout ends. -/
  parked : Bool := false
  /-- All events, in order. -/
  journal : Array Event := #[]

structure Site where
  pool : Pool
  world : World

namespace Pool

def emit (pool : Pool) (event : Event) : Pool :=
  { pool with journal := pool.journal.push event }

/-- Moves to another status; a move to the same one or one that is not allowed changes nothing. -/
def setStatus (pool : Pool) (target : Status) : Pool :=
  if pool.status = target then pool
  else if pool.status.canBecome target then
    { pool with status := target }.emit (.statusChanged pool.status target)
  else pool

theorem setStatus_self (pool : Pool) : pool.setStatus pool.status = pool := by
  simp [setStatus]

theorem setStatus_of_not_canBecome (pool : Pool) {target : Status}
    (h : pool.status.canBecome target = false) : pool.setStatus target = pool := by
  simp [setStatus, h]

theorem setStatus_of_dead (pool : Pool) (h : pool.status = .dead) (target : Status) :
    pool.setStatus target = pool := by
  refine pool.setStatus_of_not_canBecome ?_
  rw [h, ← Bool.not_eq_true, Status.canBecome_iff_mem_successors]
  exact List.not_mem_nil

/-- A status that was reached is never left unnoticed: either nothing changed, or the journal ends
with the change. -/
theorem setStatus_eq (pool : Pool) (target : Status) :
    pool.setStatus target = pool ∨
      pool.status.canBecome target = true ∧
        pool.setStatus target =
          { pool with status := target }.emit (.statusChanged pool.status target) := by
  unfold setStatus
  split
  · exact .inl rfl
  · split
    · next h => exact .inr ⟨h, rfl⟩
    · exact .inl rfl

/-- Why a pool that accepts nothing refuses. -/
def refusal (pool : Pool) : PoolError :=
  if pool.status.isTerminal then .dead else .exiting

/-- Ends one checkout.  The last one wakes a drain that sleeps. -/
def releaseSlot (pool : Pool) : Outcome Empty Pool :=
  if pool.serving = 0 then .panic .noCheckout
  else
    let serving := pool.serving - 1
    .ok { pool with serving, parked := pool.parked && serving != 0 }

def retirementReason (pool : Pool) : CleanupReason :=
  if 0 < pool.config.budget then .requestBudget else .idleTimeout

end Pool

namespace Site

variable {α : Type}

def isCancelled (site : Site) (token : Token) : Bool :=
  site.world.isCancelled token

def emit (site : Site) (event : Event) : Site :=
  { site with pool := site.pool.emit event }

def setStatus (site : Site) (target : Status) : Site :=
  { site with pool := site.pool.setStatus target }

/-- Lets go of a state without a word to the pool. -/
def forget (site : Site) (state : LuaState) : Site :=
  { site with world := site.world.cancel state.token }

/-! ### Checking out -/

def allocate (site : Site) : Outcome PoolError LuaState × Site :=
  let pool := site.pool
  let config := pool.config
  match LuaState.create pool.root config.budget config.idleSeconds config.stateOptions pool.hook
      site.world with
  | (.ok state, world) =>
      (.ok state, ⟨{ pool with length := pool.length + 1 }.emit (.created state.id), world⟩)
  | (result, world) => (result, { site with world })

/-- The state to hand out next: the one that came back last, or a new one. -/
def take (site : Site) : Outcome PoolError LuaState × Site :=
  let pool := site.pool
  match pool.idle with
  | state :: idle => (.ok state, { site with pool := { pool with idle } })
  | [] =>
      let capacity := pool.config.capacity
      if 0 < capacity ∧ capacity ≤ pool.length then
        (.error (.full capacity), site.emit (.poolFull capacity))
      else site.allocate

def lease (site : Site) (state : LuaState) : LuaState × Site :=
  let pool := site.pool
  let state := (state.setServing site.world.clock true).countRequest
  (state,
    { site with
      pool := { pool with serving := pool.serving + 1, total := pool.total + 1 }.emit
        (.acquired state.id) })

def checkOut (site : Site) : Outcome PoolError LuaState × Site :=
  if !site.pool.status.accepts then (.error site.pool.refusal, site)
  else
    match site.take with
    | (.ok state, site) =>
        let (state, site) := site.lease state
        (.ok state, site)
    | (result, site) => (result, site)

/-- Checks out a state for a request, after a look at its token. -/
def get (site : Site) (request : Token) : Outcome PoolError LuaState × Site :=
  if site.isCancelled request then (.error .cancelled, site) else site.checkOut

/-! ### Giving back -/

/-- Closes a state and gives up its place; a checkout of it ends. -/
def retire (site : Site) (state : LuaState) (reason : CleanupReason) :
    Outcome Empty Unit × Site :=
  let released := if state.serving then site.pool.releaseSlot else .ok site.pool
  match released with
  | .panic fault => (.panic fault, site.forget state)
  | .ok pool =>
      if pool.length = 0 then (.panic .emptyPool, { site with pool }.forget state)
      else
        let (_, world) := state.close site.world
        (.ok (), ⟨{ pool with length := pool.length - 1 }.emit (.cleanedUp state.id reason), world⟩)

def recycle (site : Site) (state : LuaState) : Outcome Empty Unit × Site :=
  let released := if state.serving then site.pool.releaseSlot else .ok site.pool
  match released with
  | .panic fault => (.panic fault, site.forget state)
  | .ok pool =>
      let clock := site.world.clock
      let usage := if state.serving then state.servingFor clock else none
      let pool :=
        match usage with
        | some usage => pool.emit (.released state.id usage)
        | none => pool
      let state := state.setServing clock false
      (.ok (), { site with pool := { pool with idle := state :: pool.idle } })

/-- What becomes of a section that cannot fail but by a fault. -/
def conclude (result : Outcome Empty Unit) (otherwise : Outcome PoolError Unit) :
    Outcome PoolError Unit :=
  match result with
  | .ok () => otherwise
  | .panic fault => .panic fault

/-- Gives a state back.  A pool that no longer accepts closes it and says so; one that used up its
budget, outlived its timeout or was cancelled is closed as well, which is no error; any other waits
for its next request. -/
def put (site : Site) (state : LuaState) : Outcome PoolError Unit × Site :=
  if state.closed then (.error .closed, site.forget state)
  else if !site.pool.status.accepts then
    let (result, after) := site.retire state .rejected
    (conclude result (.error site.pool.refusal), after)
  else
    match state.mustTerminate site.world.clock with
    | .error fault => (.panic (.clock fault), site.forget state)
    | .ok true =>
        let (result, after) := site.retire state site.pool.retirementReason
        (conclude result (.ok ()), after)
    | .ok false =>
        if site.isCancelled state.token then
          let (result, after) := site.retire state .cancelled
          (conclude result (.ok ()), after)
        else
          let (result, after) := site.recycle state
          (conclude result (.ok ()), after)

/-- Closes a state instead of giving it back; only one that is checked out may be closed. -/
def close (site : Site) (state : LuaState) (reason : CleanupReason) :
    Outcome Empty Unit × Site :=
  if !state.serving then (.panic (.notCheckedOut state.id), site.forget state)
  else site.retire state reason

/-- Ends the life of a guard: its state is given back, and a refusal is nobody's concern. -/
def dropGuard (site : Site) (state : LuaState) : Outcome Empty Unit × Site :=
  match site.put state with
  | (.panic fault, site) => (.panic fault, site)
  | (_, site) => (.ok (), site)

/-- Ends the life of a guard while a fault unwinds: what ran on its state stopped halfway. -/
def dropGuardUnwinding (site : Site) (state : LuaState) : Outcome Empty Unit × Site :=
  site.close state .scriptFailure

/-! ### Draining and seeding -/

/-- The first section of a drain: nothing is handed out any more. -/
def readyExit (site : Site) : Site :=
  site.setStatus .exiting

/-- Closes the idle states, the one that waits longest first. -/
def closeIdle (site : Site) : List LuaState → Site
  | [] => site
  | state :: idle =>
      let (_, world) := state.close site.world
      closeIdle ⟨site.pool.emit (.cleanedUp state.id .shutdown), world⟩ idle

/-- The second section of a drain: it sleeps while states are checked out, which is told by `none`,
and otherwise closes all idle ones. -/
def exit (site : Site) : Option (Outcome Empty Unit) × Site :=
  let pool := site.pool
  if 0 < pool.serving then (none, { site with pool := { pool with parked := true } })
  else
    let site := { site with pool := { pool with idle := [] } }.closeIdle pool.idle.reverse
    if pool.length = pool.idle.length then
      (some (.ok ()), { site with pool := { site.pool with length := 0 } })
    else (some (.panic (.uneven pool.length pool.idle.length)), site)

/-- Builds a number of states ahead of any request; those built before a failure stay. -/
def seed (site : Site) : Nat → Outcome PoolError Unit × Site
  | 0 => (.ok (), site)
  | count + 1 =>
      match site.allocate with
      | (.ok state, site) =>
          let pool := site.pool
          seed { site with pool := { pool with idle := state :: pool.idle } } count
      | (.error e, site) => (.error e, site)
      | (.panic fault, site) => (.panic fault, site)

/-- Starts a life of the pool under a root token: it runs, and holds its first states. -/
def start (site : Site) (root : Token) : Outcome PoolError Unit × Site :=
  if 0 < site.pool.serving then (.panic (.seedingInUse site.pool.serving), site)
  else
    let site := site.pool.idle.foldl forget site
    let pool := { site.pool with idle := [], length := 0, root }
    ({ site with pool }.setStatus .running).seed pool.config.seeds

/-! ### Options and counters -/

def setStateOptions (site : Site) (options : StateOptions) : Site :=
  let pool := site.pool
  { site with pool := { pool with config := pool.config.withStateOptions options } }

end Site

structure Stats where
  status : Status
  length : Nat
  idle : Nat
  serving : Nat
  total : Nat
  capacity : Nat
  deriving DecidableEq, Repr

namespace Stats

def toJson (stats : Stats) : String :=
  String.ofList <| Json.writeObject
    [("status".toList, Json.quote stats.status.name.toList),
      ("length".toList, Json.writeNat stats.length),
      ("idle".toList, Json.writeNat stats.idle),
      ("serving".toList, Json.writeNat stats.serving),
      ("total_requested".toList, Json.writeNat stats.total),
      ("max_num".toList, Json.writeNat stats.capacity)]

def describe (stats : Stats) : String :=
  "PoolStats \x7b status: " ++ stats.status.name ++
    ", length: " ++ toString stats.length ++
    ", idle: " ++ toString stats.idle ++
    ", serving: " ++ toString stats.serving ++
    ", total_requested: " ++ toString stats.total ++
    ", max_num: " ++ toString stats.capacity ++ " \x7d"

end Stats

namespace Pool

def stats (pool : Pool) : Stats where
  status := pool.status
  length := pool.length
  idle := pool.idle.length
  serving := pool.serving
  total := pool.total
  capacity := pool.config.capacity

def describe (pool : Pool) : String :=
  "Manager \x7b stats: " ++ pool.stats.describe ++ ", config: " ++ pool.config.describe ++ " \x7d"

end Pool

end StatePool
