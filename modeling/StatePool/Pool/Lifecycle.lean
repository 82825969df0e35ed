import StatePool.Pool

/-!
Shutting down, restarting and terminating a pool.

Such a call goes through phases, each of them one section of the pool.  Between two sections other
callers may use the pool; a second lifecycle call waits until the first is done.  A drain sleeps as
long as states are checked out.
-/

namespace StatePool

inductive LifecycleCall where
  | shutdown
  | terminate
  | restart (root : Token)
  deriving DecidableEq, Repr

inductive Phase where
  | entering
  | closing
  | draining
  /-- The root token of the new life is looked at before the pool is. -/
  | starting (root : Token)
  | seeding (root : Token)
  /-- The seeding failed, and the pool is to be drained again. -/
  | undoing (e : PoolError)
  | undoDraining (e : PoolError)
  | sealing
  | done (result : Outcome PoolError Unit)
  deriving DecidableEq, Repr

/-- A lifecycle call on its way. -/
structure LifecycleRun where
  call : LifecycleCall
  phase : Phase := .entering
  deriving DecidableEq, Repr

namespace LifecycleRun

/-- The phase behind a complete drain. -/
def afterDrain : LifecycleCall → Phase
  | .shutdown => .done (.ok ())
  | .terminate => .sealing
  | .restart root => .starting root

def result? (run : LifecycleRun) : Option (Outcome PoolError Unit) :=
  match run.phase with
  | .done result => some result
  | _ => none

/-- The second section of a drain, with the phase that follows a complete one. -/
def drain (run : LifecycleRun) (next : Phase) (site : Site) : LifecycleRun × Site :=
  if site.pool.parked then (run, site)
  else
    match site.exit with
    | (none, site) => (run, site)
    | (some (.ok ()), site) => ({ run with phase := next }, site)
    | (some (.panic fault), site) => ({ run with phase := .done (.panic fault) }, site)

/-- Goes through one section.  A call that is done or asleep stays as it is. -/
def step (run : LifecycleRun) (site : Site) : LifecycleRun × Site :=
  match run.phase with
  | .entering =>
      match run.call with
      | .restart _ =>
          if site.pool.status.canRestart then ({ run with phase := .closing }, site)
          else ({ run with phase := .done (.error .dead) }, site)
      | _ => ({ run with phase := .closing }, site)
  | .closing => ({ run with phase := .draining }, site.readyExit)
  | .draining => run.drain (afterDrain run.call) site
  | .starting root =>
      if site.isCancelled root then ({ run with phase := .done (.error .cancelled) }, site)
      else ({ run with phase := .seeding root }, site)
  | .seeding root =>
      if !site.pool.status.canRestart then ({ run with phase := .done (.error .dead) }, site)
      else
        match site.start root with
        | (.error e, site) => ({ run with phase := .undoing e }, site)
        | (result, site) => ({ run with phase := .done result }, site)
  | .undoing e => ({ run with phase := .undoDraining e }, site.readyExit)
  | .undoDraining e => run.drain (.done (.error e)) site
  | .sealing => ({ run with phase := .done (.ok ()) }, site.setStatus .dead)
  | .done _ => (run, site)

def steps : Nat → LifecycleRun → Site → LifecycleRun × Site
  | 0, run, site => (run, site)
  | count + 1, run, site =>
      let (run, site) := run.step site
      steps count run site

/-- No call has more phases than this. -/
def phaseBound : Nat := 8

/-- Goes on until the call is done or asleep. -/
def advance (run : LifecycleRun) (site : Site) : LifecycleRun × Site :=
  steps phaseBound run site

end LifecycleRun

namespace Site

/-- A pool that has not started. -/
def idle (config : Config) (hook : Option InitHook) (root : Token) (world : World) : Site :=
  ⟨{ config, hook, root }, world⟩

/-- Makes a pool and starts its first life. -/
def new (config : Config) (hook : Option InitHook) (root : Token) (world : World) :
    Outcome PoolError Unit × Site :=
  let run : LifecycleRun := { call := .restart root, phase := .starting root }
  let (run, site) := run.advance (idle config hook root world)
  (run.result?.getD (.ok ()), site)

end Site

end StatePool
