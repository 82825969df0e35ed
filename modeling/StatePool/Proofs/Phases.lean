import StatePool.Proofs.Books

/-!
What each section of a lifecycle call can do, and what its phase says about the pool.

Only the caller that holds the lifecycle lock moves the pool to another status, so what one of its
sections left behind is still there when the next one begins.
-/

namespace StatePool

def LifecycleCall.restarts : LifecycleCall → Bool
  | .restart _ => true
  | _ => false

namespace LifecycleRun

/-- The phase behind the section that closes the pool for requests. -/
def behindClosing (run : LifecycleRun) : Option Phase :=
  match run.phase with
  | .closing => some .draining
  | .undoing e => some (.undoDraining e)
  | _ => none

/-- The phase behind a drain. -/
def behindDrain (run : LifecycleRun) : Option Phase :=
  match run.phase with
  | .draining => some (afterDrain run.call)
  | .undoDraining e => some (.done (.error e))
  | _ => none

/-- The root token of a life that the next section starts. -/
def seedRoot (run : LifecycleRun) : Option Token :=
  match run.phase with
  | .seeding root => some root
  | _ => none

/-- The phase behind the seeding. -/
def afterSeeding : Outcome PoolError Unit → Phase
  | .error e => .undoing e
  | result => .done result

/-- What holds of the pool while a call in this phase holds the lifecycle lock. -/
def Fits (run : LifecycleRun) (pool : Pool) : Prop :=
  match run.phase with
  | .entering | .done _ => True
  | .closing => run.call.restarts = true → pool.status ≠ .dead
  | .draining =>
      pool.status.accepts = false ∧ (run.call.restarts = true → pool.status ≠ .dead)
  | .starting _ | .seeding _ =>
      pool.Drained ∧ (pool.status = .exiting ∨ pool.status = .ready)
  | .undoing _ => pool.status = .running
  | .undoDraining _ => pool.status = .exiting
  | .sealing => pool.Drained ∧ pool.status.accepts = false

inductive Stepped (run : LifecycleRun) (site : Site) : LifecycleRun × Site → Prop
  | entered (hphase : run.phase = .entering)
      (hstatus : run.call.restarts = true → site.pool.status ≠ .dead) :
      Stepped run site ({ run with phase := .closing }, site)
  | refused {e : PoolError} (hclosing : run.behindClosing = none)
      (hdrain : run.behindDrain = none) :
      Stepped run site ({ run with phase := .done (.error e) }, site)
  | closed {next : Phase} (hnext : run.behindClosing = some next) :
      Stepped run site ({ run with phase := next }, site.readyExit)
  | asleep {next : Phase} (hnext : run.behindDrain = some next) (hserving : 0 < site.pool.serving) :
      Stepped run site (run, { site with pool := { site.pool with parked := true } })
  | drained {next : Phase} {world : World} (hnext : run.behindDrain = some next)
      (hserving : site.pool.serving = 0) (hstates : world.states = site.world.states) :
      Stepped run site
        ({ run with phase := next },
          ⟨{ site.pool with
              idle := []
              length := 0
              journal := site.pool.journal ++ (Site.farewells site.pool.idle.reverse).toArray },
            world⟩)
  | looked {root : Token} (hphase : run.phase = .starting root) :
      Stepped run site ({ run with phase := .seeding root }, site)
  | seeded {root : Token} {result : Outcome PoolError Unit} {after : Site}
      (hphase : run.phase = .seeding root)
      (h : Site.Seeded { site with pool := site.pool.revived root } site.pool.config.seeds
        (result, after)) :
      Stepped run site ({ run with phase := afterSeeding result }, after)
  | sealed (hphase : run.phase = .sealing) :
      Stepped run site ({ run with phase := .done (.ok ()) }, site.setStatus .dead)

variable {run : LifecycleRun} {site : Site} {held : List LuaState} {out : List StateId}
  {strangers : List LuaState}

theorem drain_stepped (books : Books site held out strangers) {next : Phase}
    (hnext : run.behindDrain = some next) : Stepped run site (run.drain next site) := by
  unfold drain
  split
  · next hparked =>
      -- A drain that sleeps already is put to sleep once more.
      have hself : { site with pool := { site.pool with parked := true } } = site := by
        rw [← hparked]
      have slept := Stepped.asleep hnext (books.parked_serving hparked)
      rwa [hself] at slept
  · have exited := Site.exit_exited site books.length_of_quiet
    generalize site.exit = result at exited
    cases exited with
    | asleep hserving => exact .asleep hnext hserving
    | complete hserving hstates => exact .drained hnext hserving hstates

theorem step_stepped (books : Books site held out strangers) (fits : run.Fits site.pool)
    (hresult : run.result? = none) : Stepped run site (run.step site) := by
  obtain ⟨call, phase⟩ := run
  cases phase with
  | entering =>
      cases call with
      | restart root =>
          simp only [step]
          split
          · next hstatus =>
              refine .entered rfl fun _ hdead => ?_
              simp [hdead, Status.canRestart, Status.isTerminal] at hstatus
          · exact .refused rfl rfl
      | shutdown => exact .entered rfl nofun
      | terminate => exact .entered rfl nofun
  | closing => exact .closed rfl
  | draining => exact drain_stepped books rfl
  | starting root =>
      simp only [step]
      split
      · exact .refused rfl rfl
      · exact .looked rfl
  | seeding root =>
      simp only [step]
      split
      · exact .refused rfl rfl
      · have seeded := Site.seed_seeded { site with pool := site.pool.revived root }
          site.pool.config.seeds
        rw [← Site.start_of_drained site root fits.1 fits.2] at seeded
        generalize site.start root = result at seeded
        obtain ⟨result, after⟩ := result
        cases result <;> exact .seeded rfl seeded
  | undoing e => exact .closed rfl
  | undoDraining e => exact drain_stepped books rfl
  | sealing => exact .sealed rfl
  | done result => cases hresult

theorem behindDrain_of_closing {next : Phase} (h : run.behindClosing = some next) :
    run.behindDrain = none := by
  obtain ⟨call, phase⟩ := run
  cases phase with
  | closing | undoing e => rfl
  | _ => cases h

theorem behindDrain_eq_none {phase : Phase} (h : run.behindDrain = some phase) :
    ({ run with phase } : LifecycleRun).behindDrain = none := by
  obtain ⟨call, phase⟩ := run
  cases phase with
  | draining =>
      cases h
      cases call <;> rfl
  | undoDraining e =>
      cases h
      rfl
  | _ => cases h

/-- The first section of a drain. -/
theorem Stepped.of_closing {next : LifecycleRun} {after : Site} {phase : Phase}
    (h : Stepped run site (next, after)) (hclosing : run.behindClosing = some phase) :
    next = { run with phase } ∧ after = site.readyExit := by
  cases h with
  | closed hnext =>
      cases hclosing.symm.trans hnext
      exact ⟨rfl, rfl⟩
  | refused hnone => cases hclosing.symm.trans hnone
  | asleep hnext => cases hnext.symm.trans (behindDrain_of_closing hclosing)
  | drained hnext => cases hnext.symm.trans (behindDrain_of_closing hclosing)
  | entered hphase => simp [behindClosing, hphase] at hclosing
  | looked hphase => simp [behindClosing, hphase] at hclosing
  | seeded hphase => simp [behindClosing, hphase] at hclosing
  | sealed hphase => simp [behindClosing, hphase] at hclosing

/-- The second section of a drain: it waits, or it leaves an empty pool behind. -/
theorem Stepped.of_drain {next : LifecycleRun} {after : Site} {phase : Phase}
    (h : Stepped run site (next, after)) (hdrain : run.behindDrain = some phase) :
    next = run ∧ 0 < site.pool.serving ∨
      next = { run with phase } ∧ site.pool.serving = 0 ∧ after.pool.Drained := by
  cases h with
  | asleep _ hserving => exact .inl ⟨rfl, hserving⟩
  | drained hnext hserving =>
      cases hdrain.symm.trans hnext
      exact .inr ⟨rfl, hserving, ⟨rfl, rfl, hserving⟩⟩
  | refused _ hnone => cases hdrain.symm.trans hnone
  | closed hclosing => cases hdrain.symm.trans (behindDrain_of_closing hclosing)
  | entered hphase => simp [behindDrain, hphase] at hdrain
  | looked hphase => simp [behindDrain, hphase] at hdrain
  | seeded hphase => simp [behindDrain, hphase] at hdrain
  | sealed hphase => simp [behindDrain, hphase] at hdrain

/-! ### What a phase says about the pool -/

theorem accepts_readyExit (site : Site) : site.readyExit.pool.status.accepts = false := by
  unfold Site.readyExit Site.setStatus Pool.setStatus
  cases h : site.pool.status <;> simp [h, Status.canBecome, Status.accepts, Pool.emit]

theorem status_readyExit (hstatus : site.pool.status ≠ .dead) :
    site.readyExit.pool.status = .exiting := by
  unfold Site.readyExit Site.setStatus Pool.setStatus
  cases h : site.pool.status <;> simp_all [Status.canBecome, Pool.emit]

theorem exiting_of_not_accepts {status : Status} (haccepts : status.accepts = false)
    (hdead : status ≠ .dead) : status = .exiting := by
  cases status <;> simp_all [Status.accepts]

theorem accepts_setStatus_dead {pool : Pool} (h : pool.status.accepts = false) :
    (pool.setStatus .dead).status.accepts = false := by
  rcases pool.setStatus_eq .dead with heq | ⟨-, heq⟩
  · rw [heq]
    exact h
  · rw [heq]
    rfl

theorem Fits.accepts_of_drain {next : Phase} {pool : Pool} (fits : run.Fits pool)
    (hnext : run.behindDrain = some next) : pool.status.accepts = false := by
  obtain ⟨call, phase⟩ := run
  cases phase with
  | draining => exact fits.1
  | undoDraining e =>
      simp only [Fits] at fits
      rw [fits]
      rfl
  | _ => cases hnext

/-- Sections of other callers leave the status as it is, and find nothing in a drained pool. -/
theorem Fits.mono {pool next : Pool} (fits : run.Fits pool) (hready : pool.status ≠ .ready)
    (hstatus : next.status = pool.status)
    (hdrained : pool.status.accepts = false → pool.Drained → next.Drained) : run.Fits next := by
  obtain ⟨call, phase⟩ := run
  cases phase with
  | starting root | seeding root =>
      obtain ⟨drained, h⟩ := fits
      have hexiting : pool.status = .exiting := h.resolve_right hready
      exact ⟨hdrained (by rw [hexiting]; rfl) drained, .inl (hstatus.trans hexiting)⟩
  | sealing => exact ⟨hdrained fits.2 fits.1, by rw [hstatus]; exact fits.2⟩
  | entering | done result => trivial
  | closing | draining | undoing e | undoDraining e =>
      simp only [Fits, hstatus] at fits ⊢
      exact fits

/-- What one section leaves behind is what the next one counts on. -/
theorem Stepped.fits {next : LifecycleRun} {after : Site} (h : Stepped run site (next, after))
    (fits : run.Fits site.pool) : next.Fits after.pool := by
  obtain ⟨call, phase⟩ := run
  cases h with
  | entered hphase hstatus => exact hstatus
  | refused hclosing hdrain => trivial
  | closed hnext =>
      cases phase with
      | closing =>
          cases hnext
          refine ⟨accepts_readyExit site, fun hcall => ?_⟩
          rw [status_readyExit (fits hcall)]
          nofun
      | undoing e =>
          cases hnext
          refine status_readyExit ?_
          simp only [Fits] at fits
          rw [fits]
          nofun
      | _ => cases hnext
  | asleep hnext hserving =>
      cases phase with
      | draining | undoDraining e => exact fits
      | _ => cases hnext
  | drained hnext hserving hstates =>
      cases phase with
      | draining =>
          cases hnext
          cases call with
          | shutdown => trivial
          | terminate => exact ⟨⟨rfl, rfl, hserving⟩, fits.1⟩
          | restart root =>
              exact ⟨⟨rfl, rfl, hserving⟩, .inl (exiting_of_not_accepts fits.1 (fits.2 rfl))⟩
      | undoDraining e =>
          cases hnext
          trivial
      | _ => cases hnext
  | looked hphase =>
      cases hphase
      exact fits
  | seeded hphase seeded =>
      cases hphase
      cases seeded with
      | complete => trivial
      | failed => exact rfl
      | panicked => trivial
  | sealed hphase => trivial

end LifecycleRun

end StatePool
