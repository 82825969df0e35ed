import StatePool.Proofs.Slots

/-!
Restarts that nobody disturbs.

When no state is checked out and nobody else acts, a drain waits for nobody and a restart goes
through its sections one after the other.  What comes of it can be said without its phases.
-/

namespace StatePool

/-- A pool that nothing is checked out of. -/
structure Pool.Quiet (pool : Pool) : Prop where
  awake : pool.parked = false
  serving_eq : pool.serving = 0
  length_eq : pool.length = pool.idle.length

theorem Books.quiet {site : Site} {held : List LuaState} {out : List StateId}
    {strangers : List LuaState} (books : Books site held out strangers)
    (hserving : site.pool.serving = 0) : site.pool.Quiet where
  awake := by
    rw [Bool.eq_false_iff]
    intro hparked
    have hpos := books.parked_serving hparked
    omega
  serving_eq := hserving
  length_eq := books.length_of_quiet hserving

/-! ### Draining -/

/-- What a drain reports. -/
def Pool.closingNews (pool : Pool) : List Event :=
  (if pool.status = .exiting then [] else [.statusChanged pool.status .exiting]) ++
    Site.farewells pool.idle.reverse

def Pool.emptied (pool : Pool) : Pool :=
  { pool with
    status := .exiting
    idle := []
    length := 0
    journal := pool.journal ++ pool.closingNews.toArray }

def World.closeAll (world : World) (states : List LuaState) : World :=
  states.foldl (fun world state => (state.close world).2) world

@[simp] theorem World.hookCalls_closeAll (world : World) (states : List LuaState) :
    (world.closeAll states).hookCalls = world.hookCalls := by
  induction states generalizing world with
  | nil => rfl
  | cons state states ih => exact ih (state.close world).2

namespace Site

variable {site : Site} {root : Token}

/-- A pool behind a drain that waited for nobody. -/
def emptied (site : Site) : Site :=
  ⟨site.pool.emptied, site.world.closeAll site.pool.idle.reverse⟩

theorem closeIdle_eq_closeAll (site : Site) (idle : List LuaState) :
    site.closeIdle idle =
      ⟨{ site.pool with journal := site.pool.journal ++ (farewells idle).toArray },
        site.world.closeAll idle⟩ := by
  induction idle generalizing site with
  | nil => simp [closeIdle, farewells, World.closeAll]
  | cons state idle ih =>
      have later := ih ⟨site.pool.emit (.cleanedUp state.id .shutdown), (state.close site.world).2⟩
      refine later.trans ?_
      simp [Pool.emit, farewells, World.closeAll]

theorem pool_readyExit (hstatus : site.pool.status ≠ .dead) :
    site.readyExit.pool =
      { site.pool with
        status := .exiting
        journal := site.pool.journal ++
          (if site.pool.status = .exiting then [] else
            [Event.statusChanged site.pool.status .exiting]).toArray } := by
  obtain ⟨pool, world⟩ := site
  simp only [readyExit, setStatus, Pool.setStatus]
  by_cases hexiting : pool.status = .exiting
  · simp [hexiting]
    rw [← hexiting]
  · have hcan : pool.status.canBecome .exiting = true := by
      cases h : pool.status <;> simp_all [Status.canBecome]
    simp [hexiting, hcan, Pool.emit]

theorem exit_readyExit (quiet : site.pool.Quiet) (hstatus : site.pool.status ≠ .dead) :
    site.readyExit.exit = (some (.ok ()), site.emptied) := by
  have hworld : site.readyExit.world = site.world := rfl
  simp only [exit, pool_readyExit hstatus, quiet.serving_eq, Nat.lt_irrefl, ↓reduceIte,
    quiet.length_eq, closeIdle_eq_closeAll, hworld]
  simp [emptied, Pool.emptied, Pool.closingNews, quiet.serving_eq]

theorem emptied_drained (quiet : site.pool.Quiet) : site.emptied.pool.Drained :=
  ⟨rfl, rfl, quiet.serving_eq⟩

/-! ### Starting -/

/-- A pool that is about to build the seeds of a life. -/
def revived (site : Site) (root : Token) : Site :=
  { site with pool := site.pool.revived root }

/-- What comes of starting a life of a pool that has no states. -/
def begun (site : Site) (root : Token) : Outcome PoolError Unit × Site :=
  if site.isCancelled root then (.error .cancelled, site)
  else
    match (site.revived root).seed site.pool.config.seeds with
    | (.error e, after) => (.error e, after.emptied)
    | (result, after) => (result, after)

/-- What comes of a restart. -/
def restarted (site : Site) (root : Token) : Outcome PoolError Unit × Site :=
  if site.pool.status = .dead then (.error .dead, site)
  else site.emptied.begun root

end Site

namespace LifecycleRun

variable {run : LifecycleRun} {site : Site} {root : Token}

theorem steps_of_step {next : LifecycleRun} {after : Site} (h : run.step site = (next, after))
    (count : Nat) : run.steps (count + 1) site = next.steps count after := by
  rw [steps, h]

theorem steps_done (call : LifecycleCall) (result : Outcome PoolError Unit) (count : Nat)
    (site : Site) :
    steps count { call, phase := .done result } site = ({ call, phase := .done result }, site) := by
  induction count with
  | zero => rfl
  | succ count ih => rw [steps_of_step rfl, ih]

/-- The two sections of a drain, one after the other. -/
theorem steps_closing (quiet : site.pool.Quiet) (hstatus : site.pool.status ≠ .dead)
    {phase next : Phase} (hclosing : run.behindClosing = some phase)
    (hdrain : ({ run with phase } : LifecycleRun).behindDrain = some next) (count : Nat) :
    run.steps (count + 2) site = steps count { run with phase := next } site.emptied := by
  have hawake : site.readyExit.pool.parked = false := by
    rw [Site.pool_readyExit hstatus]
    exact quiet.awake
  have hexit (run : LifecycleRun) :
      run.drain next site.readyExit = ({ run with phase := next }, site.emptied) := by
    simp only [drain, hawake, Bool.false_eq_true, ↓reduceIte, Site.exit_readyExit quiet hstatus]
  obtain ⟨call, before⟩ := run
  cases before with
  | closing | undoing e =>
      cases hclosing
      cases hdrain
      simp only [steps, step, hexit]
  | _ => cases hclosing

theorem steps_starting {call : LifecycleCall} (drained : site.pool.Drained)
    (hawake : site.pool.parked = false)
    (hstatus : site.pool.status = .exiting ∨ site.pool.status = .ready) (count : Nat) :
    steps (count + 4) { call, phase := .starting root } site =
      ({ call, phase := .done (site.begun root).1 }, (site.begun root).2) := by
  have hrestart : site.pool.status.canRestart = true := by
    rcases hstatus with h | h <;> rw [h] <;> rfl
  have hstart : site.start root = (site.revived root).seed site.pool.config.seeds :=
    Site.start_of_drained site root drained hstatus
  have seeded := Site.seed_seeded (site.revived root) site.pool.config.seeds
  unfold Site.begun
  cases hcancelled : site.isCancelled root with
  | true =>
      have hlook : step { call, phase := .starting root } site =
          ({ call, phase := .done (.error .cancelled) }, site) := by
        simp only [step, hcancelled, ↓reduceIte]
      rw [steps_of_step hlook]
      exact steps_done call _ _ site
  | false =>
      have hlook : step { call, phase := .starting root } site =
          ({ call, phase := .seeding root }, site) := by
        simp only [step, hcancelled, Bool.false_eq_true, ↓reduceIte]
      rw [steps_of_step hlook]
      generalize (site.revived root).seed site.pool.config.seeds = result at seeded hstart
      have hseed : step { call, phase := .seeding root } site =
          ({ call, phase := afterSeeding result.1 }, result.2) := by
        obtain ⟨result, after⟩ := result
        cases result <;> simp [step, hrestart, hstart, afterSeeding]
      rw [steps_of_step hseed]
      cases seeded with
      | complete | panicked => exact steps_done call _ _ _
      | @failed cause born world batch =>
          -- The seeds built so far are a quiet pool again, which the drain of the failure closes.
          have quiet : ((site.revived root).pool.withSeeds born).Quiet :=
            ⟨hawake, drained.serving_eq, by
              simp [Site.revived, Pool.revived, Pool.withSeeds, Pool.emit, drained.length_eq,
                drained.idle_eq]⟩
          have hrunning : Status.running ≠ .dead := by decide
          exact (steps_closing quiet hrunning rfl rfl count).trans (steps_done call _ count _)

end LifecycleRun

namespace Site

variable {site : Site} {root : Token}

theorem serving_begun (site : Site) (root : Token) :
    (site.begun root).2.pool.serving = site.pool.serving := by
  have seeded := seed_seeded (site.revived root) site.pool.config.seeds
  unfold begun
  split
  · rfl
  · generalize (site.revived root).seed site.pool.config.seeds = result at seeded
    cases seeded <;> rfl

theorem serving_restarted (site : Site) (root : Token) :
    (site.restarted root).2.pool.serving = site.pool.serving := by
  unfold restarted
  split
  · rfl
  · exact serving_begun site.emptied root

theorem advance_restart (quiet : site.pool.Quiet) (root : Token) :
    LifecycleRun.advance { call := .restart root } site =
      ({ call := .restart root, phase := .done (site.restarted root).1 },
        (site.restarted root).2) := by
  unfold LifecycleRun.advance LifecycleRun.phaseBound restarted
  by_cases hdead : site.pool.status = .dead
  · have hrefused : LifecycleRun.step { call := .restart root } site =
        ({ call := .restart root, phase := .done (.error .dead) }, site) := by
      simp [LifecycleRun.step, hdead, Status.canRestart, Status.isTerminal]
    rw [LifecycleRun.steps_of_step hrefused, if_pos hdead]
    exact LifecycleRun.steps_done _ _ _ site
  · have hentered : LifecycleRun.step { call := .restart root } site =
        ({ call := .restart root, phase := .closing }, site) := by
      simp [LifecycleRun.step, Status.canRestart, Status.isTerminal]
    rw [LifecycleRun.steps_of_step hentered, if_neg hdead]
    exact (LifecycleRun.steps_closing quiet hdead rfl rfl 5).trans
      (LifecycleRun.steps_starting (emptied_drained quiet) quiet.awake (.inl rfl) 1)

theorem new_eq_begun (config : Config) (hook : Option InitHook) (root : Token) (world : World) :
    new config hook root world = (idle config hook root world).begun root := by
  have h : LifecycleRun.advance { call := .restart root, phase := .starting root }
      (idle config hook root world) = _ :=
    LifecycleRun.steps_starting ⟨rfl, rfl, rfl⟩ rfl (.inr rfl) 4
  simp only [new, h]
  rfl

end Site

namespace System

variable {sys : System} {index : Nat} {run last : LifecycleRun} {after : Site}

/-- Nothing is checked out, and no lifecycle call is on its way. -/
structure AtRest (sys : System) : Prop where
  opened : sys.isOpen = true
  unlocked : sys.lock = none
  serving_eq : sys.site.pool.serving = 0

theorem AtRest.quiet (rest : sys.AtRest) (h : sys.Reachable) : sys.site.pool.Quiet :=
  h.sound.books.quiet rest.serving_eq

/-- Somebody makes a lifecycle call, and nobody else acts until it returns. -/
def alone (sys : System) (call : LifecycleCall) : System :=
  sys.run (.call call :: List.replicate (LifecycleRun.phaseBound + 2) (.advance sys.calls.length))

theorem honest_alone (call : LifecycleCall) (index count : Nat) :
    ∀ action ∈ Action.call call :: List.replicate count (.advance index),
      action.honest = true := by
  intro action haction
  rcases List.mem_cons.1 haction with rfl | haction
  · rfl
  · rw [List.eq_of_mem_replicate haction]
    rfl

theorem Reachable.alone (h : sys.Reachable) (call : LifecycleCall) : (sys.alone call).Reachable :=
  h.run (honest_alone call _ _)

theorem run_cons (sys : System) (action : Action) (actions : List Action) :
    sys.run (action :: actions) = (sys.step action).2.run actions := rfl

/-- A call that has returned only has the lock to give up, if it still holds it. -/
theorem step_of_result (hlock : sys.lock = none ∨ sys.lock = some index)
    (hcall : sys.calls[index]? = some run) (hresult : run.result? ≠ none) :
    (sys.step (.advance index)).2 = { sys with lock := none } := by
  obtain ⟨result, hresult⟩ := Option.ne_none_iff_exists'.1 hresult
  have hphase : run.phase ≠ .entering := by
    intro hphase
    simp [LifecycleRun.result?, hphase] at hresult
  rcases hlock with hlock | hlock <;>
    simp [step, act, advance, hcall, hlock, hresult, hphase, note]

theorem run_of_result (hlock : sys.lock = none ∨ sys.lock = some index)
    (hcall : sys.calls[index]? = some run) (hresult : run.result? ≠ none) (count : Nat) :
    sys.run (List.replicate (count + 1) (.advance index)) = { sys with lock := none } := by
  induction count generalizing sys with
  | zero => exact step_of_result hlock hcall hresult
  | succ count ih =>
      have hnone : ({ sys with lock := none } : System).lock = none := rfl
      rw [List.replicate_succ, run_cons, step_of_result hlock hcall hresult]
      exact ih (.inl hnone) hcall

/-- The sections of a call that holds the lifecycle lock, up to the one that gives it up. -/
theorem run_advance (hlock : sys.lock = some index) (hcall : sys.calls[index]? = some run)
    {count : Nat} (hsteps : run.steps count sys.site = (last, after))
    (hlast : last.result? ≠ none) :
    let next := sys.run (List.replicate (count + 1) (.advance index))
    next.site = after ∧ next.calls[index]? = some last ∧ next.lock = none := by
  -- The call may return before its sections are used up; the rest of them only give up the lock.
  induction count generalizing sys run with
  | zero =>
      cases hsteps
      rw [run_of_result (.inr hlock) hcall hlast 0]
      exact ⟨rfl, hcall, rfl⟩
  | succ count ih =>
      cases hresult : run.result? with
      | none =>
          obtain ⟨hsite, hnext, hlock'⟩ := advance_of_lock hlock hcall hresult
          rw [List.replicate_succ, run_cons]
          exact ih hlock' hnext (hsite ▸ hsteps)
      | some result =>
          obtain ⟨call, phase⟩ := run
          cases phase with
          | done result =>
              rw [LifecycleRun.steps_done] at hsteps
              cases hsteps
              rw [run_of_result (.inr hlock) hcall hlast (count + 1)]
              exact ⟨rfl, hcall, rfl⟩
          | _ => cases hresult

theorem isOpen_run (hopen : sys.isOpen = true) (actions : List Action) :
    (sys.run actions).isOpen = true := by
  rw [isOpen_iff] at hopen ⊢
  obtain ⟨first, hfirst, hdone⟩ := hopen
  refine ⟨first, result_run hfirst ?_ actions, hdone⟩
  simp [LifecycleRun.result?, hdone]

theorem AtRest.alone (rest : sys.AtRest) {call : LifecycleCall}
    (hadvance : LifecycleRun.advance { call } sys.site = (last, after))
    (hlast : last.result? ≠ none) :
    let next := sys.alone call
    next.site = after ∧ next.calls[sys.calls.length]? = some last ∧ next.lock = none ∧
      next.isOpen = true := by
  have hcalled : (sys.step (.call call)).2 = { sys with calls := sys.calls ++ [{ call }] } := by
    simp [step, act, ifOpen, rest.opened, note]
  have hcall : (sys.calls ++ [{ call := call }])[sys.calls.length]? = some { call := call } := by simp
  obtain ⟨hsite, hcalls, hlock⟩ :=
    @advance_of_entering { sys with calls := sys.calls ++ [{ call }] } _ _ rest.unlocked hcall rfl
  obtain ⟨hafter, hdone, hfree⟩ := run_advance hlock (hcalls ▸ hcall) (hsite ▸ hadvance) hlast
  have hopen : (sys.alone call).isOpen = true := isOpen_run rest.opened _
  unfold System.alone at hopen ⊢
  rw [run_cons, hcalled, List.replicate_succ, run_cons] at hopen ⊢
  exact ⟨hafter, hdone, hfree, hopen⟩

theorem AtRest.restarted (rest : sys.AtRest) (quiet : sys.site.pool.Quiet) (root : Token) :
    let next := sys.alone (.restart root)
    next.site = (sys.site.restarted root).2 ∧
      next.calls[sys.calls.length]? =
        some { call := .restart root, phase := .done (sys.site.restarted root).1 } ∧
      next.AtRest := by
  obtain ⟨hsite, hcall, hlock, hopen⟩ :=
    rest.alone (Site.advance_restart quiet root) (by simp [LifecycleRun.result?])
  refine ⟨hsite, hcall, hopen, hlock, ?_⟩
  rw [hsite, Site.serving_restarted]
  exact rest.serving_eq

end System

end StatePool
