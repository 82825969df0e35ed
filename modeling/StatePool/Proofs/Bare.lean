import StatePool.Proofs.Effects
import StatePool.Proofs.Capacity

/-!
A pool without what is in its interpreters.

The pool hands interpreters on and never looks into them, and without a hook it builds them without
looking at the options.  So each of its sections does the same to a bare pool, in which every
interpreter is as good as new and the options are the default ones, as it does to the pool itself.
-/

namespace StatePool

/-! ### States -/

namespace LuaState

/-- The interpreter, if there is one, is as good as new and has the default options. -/
def bare (state : LuaState) : LuaState :=
  { state with interpreter := state.interpreter.map fun _ => default }

@[simp] theorem bare_bare (state : LuaState) : state.bare.bare = state.bare := by
  simp [bare, Function.comp_def]

theorem touch_bare (state : LuaState) (world : World) (touch : Touch) :
    (state.bare.touch world touch).1.bare = (state.touch world touch).1.bare ∧
      (state.bare.touch world touch).2 = (state.touch world touch).2 := by
  cases touch with
  | count | cancel | setServing serving | run code =>
      refine ⟨?_, rfl⟩
      simp [LuaState.touch, countRequest, setServing, bare, Function.comp_def]
  | close => exact ⟨rfl, rfl⟩

/-- Without a hook, the options are seen in the interpreter only. -/
theorem create_bare (parent : Token) (budget idleSeconds : Nat) (options : StateOptions)
    (world : World) :
    create parent budget idleSeconds {} none world =
      ((create parent budget idleSeconds options none world).1.map bare,
        (create parent budget idleSeconds options none world).2) := by
  simp only [create, prepare]
  cases world.clock.now <;> rfl

end LuaState

/-! ### Pools -/

namespace Pool

/-- The pool with bare states, and with the default options. -/
def bare (pool : Pool) : Pool :=
  { pool with
    config := pool.config.withStateOptions {}
    idle := pool.idle.map LuaState.bare }

@[simp] theorem bare_bare (pool : Pool) : pool.bare.bare = pool.bare := by
  simp [bare, Config.withStateOptions]

@[simp] theorem stats_bare (pool : Pool) : pool.bare.stats = pool.stats := by
  simp [stats, bare, Config.withStateOptions]

theorem setStatus_bare (pool : Pool) (target : Status) :
    pool.bare.setStatus target = (pool.setStatus target).bare := by
  simp only [setStatus, apply_ite bare]
  rfl

theorem releaseSlot_bare (pool : Pool) : pool.bare.releaseSlot = pool.releaseSlot.map bare := by
  simp only [releaseSlot, apply_ite (Outcome.map bare)]
  rfl

theorem tookIn_bare (before after : Pool) (id : StateId) :
    before.bare.tookIn after.bare id = before.tookIn after id := by
  simp only [tookIn, bare, news, List.any_map]
  rfl

end Pool

/-! ### Sections -/

namespace Site

variable {site other : Site} {α : Type}

def bare (site : Site) : Site :=
  { site with pool := site.pool.bare }

@[simp] theorem bare_bare (site : Site) : site.bare.bare = site.bare := by
  simp [bare]

theorem birth_bare (h : site.pool.hook = none) :
    site.bare.birth = (site.birth.1.map LuaState.bare, site.birth.2) := by
  have hbare : site.bare.pool.hook = none := h
  simp only [birth, h, hbare]
  exact LuaState.create_bare _ _ _ _ _

theorem allocate_bare (h : site.pool.hook = none) :
    site.bare.allocate = site.allocate.map (Outcome.map LuaState.bare) bare := by
  have hbirth := birth_bare h
  simp only [birth] at hbirth
  simp only [allocate, hbirth]
  rcases LuaState.create _ _ _ _ _ _ with ⟨_ | _ | _, world⟩ <;> rfl

theorem take_bare (h : site.pool.hook = none) :
    site.bare.take = site.take.map (Outcome.map LuaState.bare) bare := by
  have hallocate := allocate_bare h
  cases hidle : site.pool.idle with
  | cons state idle =>
      simp only [take, bare, Pool.bare, hidle, List.map_cons]
      rfl
  | nil =>
      have hbare : site.bare.pool.idle = [] := by simp [bare, Pool.bare, hidle]
      simp only [take, hidle, hbare, apply_ite (Prod.map (Outcome.map LuaState.bare) bare),
        ← hallocate]
      rfl

theorem checkOut_bare (h : site.pool.hook = none) :
    site.bare.checkOut = site.checkOut.map (Outcome.map LuaState.bare) bare := by
  have htake := take_bare h
  simp only [checkOut, htake, apply_ite (Prod.map (Outcome.map LuaState.bare) bare)]
  rcases site.take with ⟨_ | _ | _, after⟩ <;> rfl

theorem get_bare (h : site.pool.hook = none) (request : Token) :
    site.bare.get request = (site.get request).map (Outcome.map LuaState.bare) bare := by
  have hcheck := checkOut_bare h
  simp only [get, hcheck, apply_ite (Prod.map (Outcome.map LuaState.bare) bare)]
  rfl

/-- A state gives up its place if it has one. -/
theorem released_bare (site : Site) (state : LuaState) :
    (if state.bare.serving then site.bare.pool.releaseSlot else .ok site.bare.pool) =
      (if state.serving then site.pool.releaseSlot else .ok site.pool).map Pool.bare := by
  simp only [apply_ite (Outcome.map Pool.bare), ← Pool.releaseSlot_bare]
  rfl

theorem retire_bare (site : Site) (state : LuaState) (reason : CleanupReason) :
    site.bare.retire state.bare reason = (site.retire state reason).map id bare := by
  simp only [retire, released_bare]
  rcases (if state.serving then site.pool.releaseSlot else .ok site.pool) with pool | e | fault
  · simp only [Outcome.map, apply_ite (Prod.map id bare)]
    rfl
  · exact e.elim
  · rfl

theorem recycle_bare (site : Site) (state : LuaState) :
    site.bare.recycle state.bare = (site.recycle state).map id bare := by
  simp only [recycle, released_bare]
  rcases (if state.serving then site.pool.releaseSlot else .ok site.pool) with pool | e | fault
  · have husage : (if state.bare.serving then state.bare.servingFor site.bare.world.clock else none) =
        if state.serving then state.servingFor site.world.clock else none := rfl
    simp only [Outcome.map, husage]
    rcases (if state.serving then state.servingFor site.world.clock else none) with _ | usage <;> rfl
  · exact e.elim
  · rfl

theorem put_bare (site : Site) (state : LuaState) :
    site.bare.put state.bare = (site.put state).map id bare := by
  have hjudged : state.bare.mustTerminate site.bare.world.clock =
      state.mustTerminate site.world.clock := rfl
  have hrecycle := recycle_bare site state
  have hretire := retire_bare site state
  simp only [put, apply_ite (Prod.map id bare), hrecycle, hretire, hjudged]
  rcases state.mustTerminate site.world.clock with fault | _ | _
  · rfl
  · simp only [apply_ite (Prod.map id bare)]
    rfl
  · rfl

theorem close_bare (site : Site) (state : LuaState) (reason : CleanupReason) :
    site.bare.close state.bare reason = (site.close state reason).map id bare := by
  have hretire := retire_bare site state
  simp only [close, hretire, apply_ite (Prod.map id bare)]
  rfl

theorem dropGuard_bare (site : Site) (state : LuaState) :
    site.bare.dropGuard state.bare = (site.dropGuard state).map id bare := by
  have hput := put_bare site state
  simp only [dropGuard, hput]
  rcases site.put state with ⟨_ | _ | _, after⟩ <;> rfl

theorem closeIdle_bare (site : Site) (idle : List LuaState) :
    site.bare.closeIdle (idle.map LuaState.bare) = (site.closeIdle idle).bare := by
  induction idle generalizing site with
  | nil => rfl
  | cons state idle ih =>
      exact ih ⟨site.pool.emit (.cleanedUp state.id .shutdown), (state.close site.world).2⟩

theorem exit_bare (site : Site) : site.bare.exit = site.exit.map id bare := by
  have hclose := closeIdle_bare { site with pool := { site.pool with idle := [] } }
    site.pool.idle.reverse
  have hlength : site.bare.pool.idle.length = site.pool.idle.length := List.length_map _
  have hreverse : site.bare.pool.idle.reverse = site.pool.idle.reverse.map LuaState.bare :=
    List.map_reverse.symm
  simp only [exit, hlength, hreverse, apply_ite (Prod.map id bare)]
  have hsite : { site.bare with pool := { site.bare.pool with idle := [] } } =
      bare { site with pool := { site.pool with idle := [] } } := rfl
  rw [hsite, hclose]
  rfl

theorem forget_bare (site : Site) (states : List LuaState) :
    (states.map LuaState.bare).foldl forget site.bare = (states.foldl forget site).bare := by
  induction states generalizing site with
  | nil => rfl
  | cons state states ih => exact ih (site.forget state)

end Site

theorem Parting.perform_bare (parting : Parting) (site : Site) (state : LuaState) :
    parting.perform site.bare state.bare = (parting.perform site state).map id Site.bare := by
  cases parting with
  | put => exact site.put_bare state
  | close =>
      simp only [perform, site.close_bare state]
      rfl
  | dropGuard =>
      simp only [perform, site.dropGuard_bare state]
      rfl
  | unwindGuard | fail =>
      simp only [perform, Site.dropGuardUnwinding, site.close_bare state]
      rfl
  | drop => rfl

/-! ### The hook -/

namespace Site

variable {site : Site} {state : LuaState}

theorem hook_releaseSlot {pool next : Pool}
    (h : (if state.serving then pool.releaseSlot else .ok pool) = .ok next) :
    next.hook = pool.hook := by
  split at h
  · unfold Pool.releaseSlot at h
    split at h
    · cases h
    · cases h
      rfl
  · cases h
    rfl

theorem hook_retire (site : Site) (state : LuaState) (reason : CleanupReason) :
    (site.retire state reason).2.pool.hook = site.pool.hook := by
  unfold retire
  simp only
  split
  · rfl
  · next hreleased =>
      rw [← hook_releaseSlot hreleased]
      split <;> rfl

theorem hook_recycle (site : Site) (state : LuaState) :
    (site.recycle state).2.pool.hook = site.pool.hook := by
  unfold recycle
  simp only
  split
  · rfl
  · next hreleased =>
      rw [← hook_releaseSlot hreleased]
      split <;> rfl

theorem hook_put (site : Site) (state : LuaState) :
    (site.put state).2.pool.hook = site.pool.hook := by
  unfold put
  split
  · rfl
  · split
    · exact site.hook_retire state _
    · split
      · rfl
      · exact site.hook_retire state _
      · split
        · exact site.hook_retire state _
        · exact site.hook_recycle state

theorem hook_close (site : Site) (state : LuaState) (reason : CleanupReason) :
    (site.close state reason).2.pool.hook = site.pool.hook := by
  unfold close
  split
  · rfl
  · exact site.hook_retire state reason

theorem hook_exit (site : Site) : site.exit.2.pool.hook = site.pool.hook := by
  unfold exit
  simp only
  split
  · rfl
  · obtain ⟨world, -, heq⟩ := closeIdle_eq { site with pool := { site.pool with idle := [] } }
      site.pool.idle.reverse
    rw [heq]
    split <;> rfl

theorem hook_seed (site : Site) (count : Nat) :
    (site.seed count).2.pool.hook = site.pool.hook := by
  have seeded := site.seed_seeded count
  generalize site.seed count = result at seeded
  cases seeded <;> rfl

end Site

theorem Parting.hook_perform (parting : Parting) (site : Site) (state : LuaState) :
    (parting.perform site state).2.pool.hook = site.pool.hook := by
  cases parting with
  | put => exact site.hook_put state
  | dropGuard =>
      simp only [perform, Site.pool_dropGuard]
      exact site.hook_put state
  | close | unwindGuard | fail => exact site.hook_close state _
  | drop => rfl

theorem Site.hook_start (site : Site) (root : Token) :
    (site.start root).2.pool.hook = site.pool.hook := by
  unfold start
  split
  · rfl
  · simp only [Slots.pool_forget, hook_seed]
    exact Pool.hook_setStatus _ .running

theorem LifecycleRun.hook_step (run : LifecycleRun) (site : Site) :
    (run.step site).2.pool.hook = site.pool.hook := by
  have hdrain (next : Phase) : (run.drain next site).2.pool.hook = site.pool.hook := by
    have hexit := site.hook_exit
    unfold drain
    split
    · rfl
    · generalize site.exit = result at hexit
      rcases result with ⟨_ | (_ | e | fault), after⟩
      · exact hexit
      · exact hexit
      · exact e.elim
      · exact hexit
  obtain ⟨call, phase⟩ := run
  cases phase with
  | entering =>
      cases call with
      | restart root =>
          simp only [step]
          split <;> rfl
      | shutdown | terminate => rfl
  | closing | undoing e => exact site.pool.hook_setStatus .exiting
  | draining | undoDraining e => exact hdrain _
  | starting root =>
      simp only [step]
      split <;> rfl
  | seeding root =>
      simp only [step]
      split
      · rfl
      · have hstart := site.hook_start root
        generalize site.start root = result at hstart
        rcases result with ⟨_ | e | fault, after⟩ <;> exact hstart
  | sealing => exact site.pool.hook_setStatus .dead
  | done result => rfl

/-- A pool keeps its hook for good. -/
theorem Pool.hook_kept (hook : Option InitHook) : Pool.Kept fun pool => pool.hook = hook where
  checkOut site h := by
    have checked := site.checkOut_checkedOut
    generalize site.checkOut = result at checked
    cases checked <;> exact h
  part parting site state h := (parting.hook_perform site state).trans h
  configured site options h := h
  stepped run site h := (run.hook_step site).trans h

/-! ### Requests -/

/-- What work sees, but for what is in the interpreters; what is hooked into its own is kept. -/
def Scene.bare (scene : Scene) : Scene :=
  ⟨scene.site.bare, { (default : Script.Interpreter) with hook := scene.interp.hook }⟩

/-- Work that comes to the same, and looks at the same, whatever is in the interpreters of a pool
without a hook. -/
def Task.Blind {α : Type} (task : Task α) : Prop :=
  ∀ scene other : Scene, scene.site.pool.hook = none → scene.bare = other.bare →
    (task scene).embed Scene.bare = (task other).embed Scene.bare

/-- Work that does not touch its interpreter is blind. -/
example {α : Type} (result : Outcome ScriptError α) : (Task.done result).Blind := by
  intro scene other _ h
  simp only [Task.done, Work.embed, h]

namespace Site

variable {site other : Site} {α : Type} {task : Task α}

/-- A watchdog sees nothing of what is in an interpreter but whether it is hooked in. -/
theorem run_blind (blind : task.Blind) {scene next : Scene} (hhook : scene.site.pool.hook = none)
    (h : scene.bare = next.bare) (watch : Watch) (last : Option Trip) :
    let ran := (task scene).run watch.tick last
    let again := (task next).run watch.tick last
    ran.1.bare = again.1.bare ∧ ran.2 = again.2 := by
  intro ran again
  have hlook : (fun scene : Scene => watch.tick scene.bare) = watch.tick := rfl
  have hran := Work.run_embed Scene.bare watch.tick (task scene) last
  have hagain := Work.run_embed Scene.bare watch.tick (task next) last
  rw [blind scene next hhook h, hagain, hlook] at hran
  obtain ⟨hscene, hrest⟩ := Prod.mk.inj hran
  exact ⟨hscene.symm, (Prod.ext (Prod.mk.inj hrest).1 (Prod.mk.inj hrest).2).symm⟩

theorem runWatched_blind (blind : task.Blind) (hhook : site.pool.hook = none)
    (h : site.bare = other.bare) {state twin : LuaState} (hstate : state.bare = twin.bare)
    (request : Token) :
    let ran := site.runWatched request state task
    let again := other.runWatched request twin task
    ran.1 = again.1 ∧ ran.2.1.bare = again.2.1.bare ∧ ran.2.2.bare = again.2.2.bare := by
  have hworld : site.world = other.world := congrArg (fun site => site.world) h
  have hseconds : site.pool.config.requestTimeout = other.pool.config.requestTimeout :=
    congrArg (fun site => site.pool.config.requestTimeout) h
  have htoken : state.token = twin.token := congrArg (fun state => state.token) hstate
  have hinterp : (state.interpreter.map fun _ => default) =
      (twin.interpreter.map fun _ => (default : Script.Interpreter)) :=
    congrArg (fun state => state.interpreter) hstate
  simp only [runWatched, ← hworld, ← hseconds, ← htoken]
  cases hfirst : state.interpreter with
  | none =>
      cases hsecond : twin.interpreter with
      | none => exact ⟨rfl, hstate, h⟩
      | some interp => simp [hfirst, hsecond] at hinterp
  | some interp =>
      cases hsecond : twin.interpreter with
      | none => simp [hfirst, hsecond] at hinterp
      | some twinned =>
          simp only
          cases Watch.deadlineFrom site.world.clock site.pool.config.requestTimeout with
          | panic fault => exact ⟨rfl, hstate, h⟩
          | error e => exact e.elim
          | ok deadline =>
              let watch : Watch := { request, own := state.token, deadline }
              have hscene : Scene.bare ⟨site, interp.hookIn watch⟩ =
                  Scene.bare ⟨other, twinned.hookIn watch⟩ := by
                simp only [Scene.bare, h, Script.Interpreter.hookIn]
              obtain ⟨hran, hrest⟩ := run_blind blind hhook hscene watch none
              simp only
              generalize (task ⟨site, interp.hookIn watch⟩).run watch.tick none = ran
                at hran hrest ⊢
              generalize (task ⟨other, twinned.hookIn watch⟩).run watch.tick none = again
                at hran hrest ⊢
              obtain ⟨scene, result, trip⟩ := ran
              obtain ⟨next, _, _⟩ := again
              cases hrest
              refine ⟨rfl, ?_, congrArg (fun scene => scene.site) hran⟩
              change { state.bare with interpreter := some default } =
                { twin.bare with interpreter := some default, token := state.token }
              rw [htoken, hstate]
              rfl

theorem partAfter_bare (site : Site) (state : LuaState) (result : Outcome PoolError α) :
    site.bare.partAfter state.bare result = (site.partAfter state result).map id bare := by
  cases result with
  | ok a =>
      simp only [partAfter, site.dropGuard_bare state]
      rcases site.dropGuard state with ⟨_ | e | _, after⟩
      · rfl
      · exact e.elim
      · rfl
  | error e =>
      simp only [partAfter, site.close_bare state]
      rcases site.close state .scriptFailure with ⟨_ | e | _, after⟩
      · rfl
      · exact e.elim
      · rfl
  | panic fault =>
      simp only [partAfter, dropGuardUnwinding, site.close_bare state]
      rfl

/-- A request whose work is blind is told the same, whatever is in the interpreters. -/
theorem withState_blind (blind : task.Blind) (hhook : site.pool.hook = none)
    (h : site.bare = other.bare) (request : Token) :
    (site.withState request task).map id bare = (other.withState request task).map id bare := by
  have hother : other.pool.hook = none :=
    (congrArg (fun site => site.pool.hook) h).symm.trans hhook
  have hget : (site.get request).map (Outcome.map LuaState.bare) bare =
      (other.get request).map (Outcome.map LuaState.bare) bare := by
    rw [← get_bare hhook, ← get_bare hother, h]
  have hkept : (site.get request).2.pool.hook = none := by
    unfold get
    split
    · exact hhook
    · exact (Pool.hook_kept none).checkOut site hhook
  cases hfirst : site.get request with
  | mk result after =>
      cases hsecond : other.get request with
      | mk twin later =>
          rw [hfirst, hsecond] at hget
          rw [hfirst] at hkept
          obtain ⟨hresult, hsite⟩ := Prod.mk.inj hget
          cases result with
          | ok state =>
              cases twin with
              | ok twin =>
                  obtain ⟨htold, hstate, hleft⟩ :=
                    runWatched_blind blind hkept hsite (Outcome.ok.inj hresult) request
                  rw [withState_eq_partAfter site request task hfirst,
                    withState_eq_partAfter other request task hsecond]
                  simp only [← partAfter_bare, htold, hstate, hleft]
              | error e | panic fault => cases hresult
          | error e =>
              cases twin with
              | error e =>
                  cases hresult
                  simp only [withState, hfirst, hsecond, Prod.map, hsite]
              | ok twin | panic fault => cases hresult
          | panic fault =>
              cases twin with
              | panic fault =>
                  cases hresult
                  simp only [withState, hfirst, hsecond, Prod.map, hsite]
              | ok twin | error e => cases hresult

end Site

end StatePool
