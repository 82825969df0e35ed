import StatePool.Proofs.Sound

/-!
What others see of a pool while it is restarted.

The pool is closed from the first section of a restart on, and its seeds are built in one section.
If a seed cannot be built, that section ends with the pool running and fewer seeds than it should
have, and only the next one closes it again.
-/

namespace StatePool

namespace LifecycleRun

/-- A restart that has closed the pool and has not returned. -/
def isUnderway (run : LifecycleRun) : Bool :=
  match run.phase with
  | .draining | .starting _ | .seeding _ | .undoing _ | .undoDraining _ => true
  | _ => false

variable {run : LifecycleRun} {pool : Pool} {site : Site} {root : Token}

/-- A restart that is underway has the pool run only while its seeding waits to be undone. -/
theorem Fits.running_iff (fits : run.Fits pool) (hrestart : run.call.restarts = true)
    (hway : run.isUnderway = true) :
    pool.status = .running ↔ ∃ e, run.phase = .undoing e := by
  obtain ⟨call, phase⟩ := run
  cases phase with
  | draining =>
      have hexiting := exiting_of_not_accepts fits.1 (fits.2 hrestart)
      simp [hexiting]
  | starting root | seeding root =>
      obtain ⟨-, h | h⟩ := fits <;> simp [h]
  | undoing e => exact ⟨fun _ => ⟨e, rfl⟩, fun _ => fits⟩
  | undoDraining e =>
      have hexiting : pool.status = .exiting := fits
      simp [hexiting]
  | entering | closing | sealing | done result => cases hway

/-- A seeding that fails leaves the pool running with fewer states than it should have. -/
theorem start_of_failed (fits : run.Fits site.pool) (hphase : run.phase = .seeding root)
    {e : PoolError} {after : Site} (hstart : site.start root = (.error e, after)) :
    run.step site = ({ run with phase := .undoing e }, after) ∧ after.pool.status = .running ∧
      after.pool.idle.length < after.pool.config.seeds := by
  simp only [Fits, hphase] at fits
  obtain ⟨drained, hstatus⟩ := fits
  have hrestart : site.pool.status.canRestart = true := by
    rcases hstatus with h | h <;> rw [h] <;> rfl
  refine ⟨by simp [step, hphase, hrestart, hstart], ?_⟩
  have seeded := Site.seed_seeded { site with pool := site.pool.revived root }
    site.pool.config.seeds
  rw [← Site.start_of_drained site root drained hstatus, hstart] at seeded
  cases seeded with
  | failed batch hstates hcount =>
      refine ⟨rfl, ?_⟩
      simp only [Pool.withSeeds, Pool.revived, Pool.emit, drained.idle_eq, List.append_nil]
      exact hcount

end LifecycleRun

namespace Site

variable {site after : Site}

theorem checkOut_of_idle (haccepts : site.pool.status.accepts = true)
    (hidle : site.pool.idle ≠ []) :
    ∃ state after, site.checkOut = (.ok state, after) := by
  cases h : site.pool.idle with
  | nil => exact absurd h hidle
  | cons state idle =>
      simp only [checkOut, haccepts, Bool.not_true, Bool.false_eq_true, ↓reduceIte, take, h]
      exact ⟨_, _, rfl⟩

end Site

namespace System

variable {sys : System}

/-- What others can see and get while a restart is underway. -/
structure Exposed (sys : System) (index : Nat) (run : LifecycleRun) : Prop where
  seen : ∀ stats, (sys.step .look).1 = .seen stats →
    (stats.status = .running ↔ ∃ e, run.phase = .undoing e)
  granted : ∀ request, (sys.step (.get request)).1.isGrant = true → ∃ e, run.phase = .undoing e
  /-- While its seeding waits to be undone, whatever it has built is there for everybody. -/
  handed : ∀ e, run.phase = .undoing e → sys.isOpen = true → sys.site.pool.idle ≠ [] →
    ∀ request, sys.site.isCancelled request = false → (sys.step (.get request)).1.isGrant = true
  /-- This comes after every seeding that fails. -/
  failed : ∀ root e after, run.phase = .seeding root → sys.site.start root = (.error e, after) →
    let next := (sys.step (.advance index)).2
    next.calls[index]? = some { run with phase := .undoing e } ∧
      next.site.pool.status = .running ∧
      next.site.pool.idle.length < next.site.pool.config.seeds

theorem isOpen_of_grant {request : Token} (h : (sys.step (.get request)).1.isGrant = true) :
    sys.isOpen = true ∧ sys.site.pool.status.accepts = true := by
  simp only [step, act, ifOpen] at h
  split at h
  · next hopen =>
      refine ⟨hopen, ?_⟩
      unfold Site.get at h
      split at h
      · cases h
      · have checked := Site.checkOut_checkedOut sys.site
        generalize sys.site.checkOut = result at checked h
        cases checked with
        | refused | full | failed | panicked => cases h
        | reused haccepts => exact haccepts
        | built haccepts => exact haccepts
  · cases h

theorem reachable_exposed (h : sys.Reachable) {index : Nat} {run : LifecycleRun}
    (hcall : sys.calls[index]? = some run) (hrestart : run.call.restarts = true)
    (hway : run.isUnderway = true) : sys.Exposed index run := by
  have sound := h.sound
  have hresult : run.result? = none := by
    obtain ⟨call, phase⟩ := run
    cases phase with
    | done result => cases hway
    | _ => rfl
  have hlock : sys.lock = some index := by
    refine Decidable.byContradiction fun hlock => ?_
    rcases sound.waits index run hlock hcall with hphase | hdone
    · simp [LifecycleRun.isUnderway, hphase] at hway
    · exact hdone hresult
  have fits := sound.fits index run hlock hcall
  have hrunning := fits.running_iff hrestart hway
  exact
    { seen := fun stats hlook => by
        simp only [step, act, ifOpen] at hlook
        split at hlook
        · cases hlook
          exact hrunning
        · cases hlook
      granted := fun request hgrant => by
        obtain ⟨hopen, haccepts⟩ := isOpen_of_grant hgrant
        rcases (Status.accepts_iff _).1 haccepts with hready | hstatus
        · exact absurd hready (sound.opened hopen)
        · exact hrunning.1 hstatus
      handed := fun e hphase hopen hidle request hcancelled => by
        have haccepts : sys.site.pool.status.accepts = true := by
          rw [hrunning.2 ⟨e, hphase⟩]
          rfl
        obtain ⟨state, after, hcheck⟩ := Site.checkOut_of_idle haccepts hidle
        simp [step, act, ifOpen, hopen, Site.get, hcancelled, hcheck, grant, Report.isGrant]
      failed := fun root e after hphase hstart => by
        obtain ⟨hstep, hafter⟩ := LifecycleRun.start_of_failed fits hphase hstart
        have hlt := (List.getElem?_eq_some_iff.1 hcall).1
        have hadvance : (sys.advance index).2 =
            { sys with
              site := after
              calls := sys.calls.set index { run with phase := .undoing e } } := by
          simp only [advance, hcall, if_pos hlock, hresult, hstep]
        simp only [step, act, note, hadvance]
        exact ⟨List.getElem?_set_self hlt, hafter⟩ }

/-- A hook that fails once, at its fourth call. -/
def fourthFails : InitHook := fun call _ interp =>
  { result := if call = 4 then .failed (.runtime "hook failed") else .ready interp }

/-- A pool of two seeds is restarted, and its second new seed cannot be built. -/
def halfSeeded : System :=
  (make .small (some fourthFails) ⟨0⟩ clean).run
    [.advance 0, .advance 0, .advance 0, .call (.restart ⟨0⟩), .advance 1, .advance 1, .advance 1,
      .advance 1, .advance 1, .advance 1]

theorem reachable_halfSeeded : halfSeeded.Reachable :=
  (Reachable.made Config.built_small (some fourthFails) ⟨0⟩ clean).run (by decide)

/-- The restart of that pool, between its failed seeding and the drain that undoes it. -/
def failedRestart : LifecycleRun where
  call := .restart ⟨0⟩
  phase := .undoing (.initialization "init hook failed" (.runtime "hook failed"))

theorem halfSeeded_exposed :
    (halfSeeded.calls[1]? = some failedRestart ∧ failedRestart.isUnderway = true) ∧
      halfSeeded.Exposed 1 failedRestart := by
  have hcall : halfSeeded.calls[1]? = some failedRestart := by decide +kernel
  exact ⟨⟨hcall, rfl⟩, reachable_exposed reachable_halfSeeded hcall rfl rfl⟩

/-- A restart does not hide the pool until it returns. -/
theorem not_restart_hidden :
    ¬ ∀ sys : System, sys.Reachable → ∀ (index : Nat) (run : LifecycleRun),
      sys.calls[index]? = some run → run.call.restarts = true → run.isUnderway = true →
      sys.site.pool.status ≠ .running ∧
        ∀ request, (sys.step (.get request)).1.isGrant = false := by
  intro hidden
  have hcall : halfSeeded.calls[1]? = some failedRestart := by decide +kernel
  obtain ⟨-, hget⟩ := hidden halfSeeded reachable_halfSeeded 1 failedRestart hcall rfl rfl
  have hgrant : (halfSeeded.step (.get ⟨0⟩)).1.isGrant = true := by decide +kernel
  exact absurd (hgrant.symm.trans (hget ⟨0⟩)) nofun

end System

end StatePool
