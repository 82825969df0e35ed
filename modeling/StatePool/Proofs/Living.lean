import StatePool.Proofs.Sound
import StatePool.Session.Request

/-!
No closed state is used again.

Nothing is asked of callers here.  They may close, mark and give back any states in any order, those
that the pool never built among them, and sections may end with a fault.  What is closed stays out of
the pool all the same, since only open states are taken in and only their holder could close them.
-/

namespace StatePool

namespace LuaState

def Consistent (state : LuaState) : Prop :=
  state.closed = true ↔ state.interpreter = none

structure Alive (state : LuaState) : Prop where
  closed_eq : state.closed = false
  interpreter_ne : state.interpreter ≠ none

variable {state : LuaState} {world : World}

theorem Alive.consistent (alive : state.Alive) : state.Consistent := by
  simp [Consistent, alive.closed_eq, alive.interpreter_ne]

theorem Consistent.alive (consistent : state.Consistent) (hclosed : state.closed = false) :
    state.Alive := by
  refine ⟨hclosed, fun hnone => ?_⟩
  rw [consistent.2 hnone] at hclosed
  cases hclosed

theorem Newborn.alive (newborn : state.Newborn world) : state.Alive :=
  ⟨newborn.closed_eq, newborn.interpreter_ne⟩

theorem Batch.alive {first : Nat} {states : List LuaState} (batch : Batch first states)
    (h : state ∈ states) : state.Alive := by
  induction batch with
  | nil => cases h
  | cons _ newborn _ ih =>
      rcases List.mem_cons.1 h with rfl | h
      · exact newborn.alive
      · exact ih h

theorem Consistent.touch (consistent : state.Consistent) (world : World) (touch : Touch) :
    (state.touch world touch).1.Consistent := by
  cases touch with
  | count | cancel | setServing serving => exact consistent
  | close => exact ⟨fun _ => rfl, fun _ => rfl⟩
  | run code => simpa [Consistent, LuaState.touch] using consistent

end LuaState

/-! ### Sections -/

namespace Pool

variable {pool : Pool}

theorem idle_setStatus (pool : Pool) (target : Status) : (pool.setStatus target).idle = pool.idle := by
  rcases pool.setStatus_eq target with h | ⟨-, h⟩
  · rw [h]
  · rw [h]
    rfl

theorem idle_releaseSlot {next : Pool} (h : pool.releaseSlot = .ok next) : next.idle = pool.idle := by
  unfold releaseSlot at h
  split at h
  · cases h
  · cases h
    rfl

end Pool

namespace Site

def Usable (site : Site) : Prop :=
  ∀ state ∈ site.pool.idle, state.Alive

variable {site after : Site} {state : LuaState}

theorem Usable.of_idle_eq (usable : site.Usable) (h : after.pool.idle = site.pool.idle) :
    after.Usable := by
  intro state hstate
  rw [h] at hstate
  exact usable state hstate

theorem Usable.of_idle_cons (usable : site.Usable) (alive : state.Alive)
    (h : after.pool.idle = state :: site.pool.idle) : after.Usable := by
  intro other hother
  rw [h] at hother
  rcases List.mem_cons.1 hother with rfl | hother
  · exact alive
  · exact usable other hother

theorem CheckedOut.usable {result : Outcome PoolError LuaState}
    (h : CheckedOut site (result, after)) (usable : site.Usable) : after.Usable := by
  cases h with
  | refused | full | failed | panicked => exact usable
  | reused _ hidle =>
      intro other hother
      exact usable other (by rw [hidle]; exact List.mem_cons_of_mem _ hother)
  | built => exact usable

theorem CheckedOut.alive (h : CheckedOut site (.ok state, after)) (usable : site.Usable) :
    state.Alive ∧ state.serving = true := by
  cases h with
  | reused _ hidle =>
      have alive := usable _ (by rw [hidle]; exact List.mem_cons_self)
      exact ⟨⟨alive.closed_eq, alive.interpreter_ne⟩, rfl⟩
  | built _ _ _ newborn => exact ⟨⟨newborn.closed_eq, newborn.interpreter_ne⟩, rfl⟩

theorem CheckedOut.ne_closed {result : Outcome PoolError LuaState}
    (h : CheckedOut site (result, after)) : result ≠ .error .closed := by
  cases h with
  | refused =>
      unfold Pool.refusal
      split <;> nofun
  | full | failed | panicked | reused | built => nofun

theorem idle_retire (site : Site) (state : LuaState) (reason : CleanupReason) :
    (site.retire state reason).2.pool.idle = site.pool.idle := by
  unfold retire
  simp only
  split
  · rfl
  · next pool hreleased =>
      have hidle : pool.idle = site.pool.idle := by
        split at hreleased
        · exact Pool.idle_releaseSlot hreleased
        · cases hreleased
          rfl
      split <;> exact hidle

theorem Usable.recycle (usable : site.Usable) (alive : state.Alive) :
    (site.recycle state).2.Usable := by
  unfold Site.recycle
  simp only
  split
  · exact usable
  · next pool hreleased =>
      have hidle : pool.idle = site.pool.idle := by
        split at hreleased
        · exact Pool.idle_releaseSlot hreleased
        · cases hreleased
          rfl
      have hmarked : (state.setServing site.world.clock false).Alive :=
        ⟨alive.closed_eq, alive.interpreter_ne⟩
      refine usable.of_idle_cons hmarked ?_
      simp only
      split <;> simp [Pool.emit, hidle]

theorem Usable.put (usable : site.Usable) (consistent : state.Consistent) :
    (site.put state).2.Usable := by
  have hretire (reason : CleanupReason) : (site.retire state reason).2.Usable :=
    usable.of_idle_eq (idle_retire site state reason)
  unfold Site.put
  cases hclosed : state.closed with
  | true => exact usable
  | false =>
      simp only [Bool.false_eq_true, ↓reduceIte]
      split
      · exact hretire .rejected
      · split
        · exact usable
        · exact hretire _
        · split
          · exact hretire .cancelled
          · exact usable.recycle (consistent.alive hclosed)

theorem idle_close (site : Site) (state : LuaState) (reason : CleanupReason) :
    (site.close state reason).2.pool.idle = site.pool.idle := by
  unfold close
  split
  · rfl
  · exact idle_retire site state reason

theorem Usable.close (usable : site.Usable) (state : LuaState) (reason : CleanupReason) :
    (site.close state reason).2.Usable :=
  usable.of_idle_eq (idle_close site state reason)

theorem pool_dropGuard (site : Site) (state : LuaState) :
    (site.dropGuard state).2 = (site.put state).2 := by
  unfold dropGuard
  split
  · next h => rw [h]
  · next h => rw [h]

theorem Usable.perform (usable : site.Usable) (consistent : state.Consistent) (parting : Parting) :
    (parting.perform site state).2.Usable := by
  cases parting with
  | put => exact usable.put consistent
  | dropGuard =>
      simp only [Parting.perform, pool_dropGuard]
      exact usable.put consistent
  | close => exact usable.close state .discarded
  | unwindGuard | fail => exact usable.close state .scriptFailure
  | drop => exact usable

theorem pool_closeIdle (site : Site) (idle : List LuaState) :
    (site.closeIdle idle).pool.idle = site.pool.idle := by
  obtain ⟨world, -, h⟩ := closeIdle_eq site idle
  rw [h]

theorem Usable.exit (usable : site.Usable) : site.exit.2.Usable := by
  unfold Site.exit
  simp only
  split
  · exact usable
  · split <;> exact fun state hstate => by simp [pool_closeIdle] at hstate

theorem Usable.seed (usable : site.Usable) (count : Nat) : (site.seed count).2.Usable := by
  have seeded := seed_seeded site count
  have hborn {born : List LuaState} {world : World}
      (batch : LuaState.Batch site.world.states born) :
      Usable ⟨site.pool.withSeeds born, world⟩ := by
    intro state hstate
    rcases List.mem_append.1 hstate with h | h
    · exact batch.alive h
    · exact usable state h
  generalize site.seed count = result at seeded
  cases seeded with
  | complete batch | failed batch => exact hborn batch
  | panicked _ batch => exact hborn batch

theorem Usable.start (usable : site.Usable) (root : Token) : (site.start root).2.Usable := by
  unfold Site.start
  split
  · exact usable
  · refine Usable.seed (fun state hstate => ?_) _
    simp only [setStatus, Pool.idle_setStatus] at hstate
    cases hstate

end Site

theorem LifecycleRun.usable_step {site : Site} (run : LifecycleRun) (usable : site.Usable) :
    (run.step site).2.Usable := by
  have hmoved (target : Status) : (site.setStatus target).Usable :=
    usable.of_idle_eq (Pool.idle_setStatus site.pool target)
  have hdrain (next : Phase) : (run.drain next site).2.Usable := by
    have hexit := usable.exit
    unfold drain
    split
    · exact usable
    · generalize site.exit = result at hexit
      obtain ⟨result, after⟩ := result
      rcases result with _ | (_ | e | fault)
      · exact hexit
      · exact hexit
      · exact e.elim
      · exact hexit
  obtain ⟨call, phase⟩ := run
  cases phase with
  | entering =>
      cases call with
      | restart root =>
          simp only [step]
          split <;> exact usable
      | shutdown | terminate => exact usable
  | closing | undoing e => exact hmoved .exiting
  | draining | undoDraining e => exact hdrain _
  | starting root =>
      simp only [step]
      split <;> exact usable
  | seeding root =>
      simp only [step]
      split
      · exact usable
      · have hstart := usable.start root
        generalize site.start root = result at hstart
        obtain ⟨result, after⟩ := result
        cases result <;> exact hstart
  | sealing => exact hmoved .dead
  | done result => exact usable

/-! ### Running work -/

namespace Site

variable {α : Type} {site : Site}

theorem runWatched_ne_closed (site : Site) (request : Token) {state : LuaState}
    (alive : state.Alive) (task : Task α) :
    (site.runWatched request state task).1 ≠ .error .closed := by
  unfold runWatched
  split
  · next hnone => exact absurd hnone alive.interpreter_ne
  · simp only
    split
    · nofun
    · next interp hinterp deadline hdeadline =>
        generalize Work.run _ _ _ = ran
        obtain ⟨scene, result, trip⟩ := ran
        cases result with
        | ok a | panic fault => nofun
        | error e =>
            simp only [judge]
            split <;> nofun

theorem get_ne_closed (site : Site) (request : Token) : (site.get request).1 ≠ .error .closed := by
  unfold get
  split
  · nofun
  · exact (checkOut_checkedOut site).ne_closed

theorem Usable.get_alive (usable : site.Usable) {request : Token} {state : LuaState} {after : Site}
    (h : site.get request = (.ok state, after)) : state.Alive ∧ state.serving = true := by
  unfold get at h
  split at h
  · cases h
  · have checked := checkOut_checkedOut site
    rw [h] at checked
    exact checked.alive usable

theorem Usable.withState_ne_closed (usable : site.Usable) (request : Token) (task : Task α) :
    (site.withState request task).1 ≠ .error .closed := by
  unfold withState
  split
  · next e after hget =>
      have hne := site.get_ne_closed request
      rw [hget] at hne
      simpa using hne
  · nofun
  · next state after hget =>
      have hne := after.runWatched_ne_closed request (usable.get_alive hget).1 task
      split
      · split <;> nofun
      · next hran =>
          rw [hran] at hne
          split
          · simpa using hne
          · nofun
      · nofun

/-- Reading a file fails in its own way, and nothing else is added to running the work. -/
theorem Usable.perform_ne_closed (usable : site.Usable) (files : Files) (request : Request) :
    (request.perform files site).1 ≠ .error .closed := by
  have hask {α : Type} (context : Option String) (task : Task α) :
      (site.ask context task).1 ≠ .error .closed := by
    have later : Usable { site with world := (site.world.requestToken context).2 } := usable
    exact later.withState_ne_closed _ task
  have hfile {α : Type} (context : Option String) (path : String) (task : String → Task α) :
      (site.askWithFile files context path task).1 ≠ .error .closed := by
    unfold Site.askWithFile
    split
    · nofun
    · exact hask context _
  cases request with
  | doString | eval | loadString | withState => exact hask _ _
  | doFile | loadFile => exact hfile _ _ _
  | load context name source plan =>
      simp only [Request.perform]
      split
      · nofun
      · exact hask _ _

end Site

/-! ### Everybody at once -/

namespace System

variable {sys : System}

/-- What can come of making a pool and of any actions at all. -/
inductive Possible : System → Prop
  | made (config : Config) (hook : Option InitHook) (root : Token) (world : World) :
      Possible (make config hook root world)
  | step {sys : System} (h : Possible sys) (action : Action) : Possible (sys.step action).2

theorem Possible.run (h : sys.Possible) (actions : List Action) : (sys.run actions).Possible := by
  induction actions generalizing sys with
  | nil => exact h
  | cons action actions ih => exact ih (h.step action)

structure Living (sys : System) : Prop where
  usable : sys.site.Usable
  consistent : ∀ origin, ∀ state ∈ sys.states origin, state.Consistent

theorem Living.used (living : sys.Living) {next : System} (usable : next.site.Usable)
    (hstates : ∀ origin, ∀ state ∈ next.states origin, state ∈ sys.states origin) :
    next.Living :=
  ⟨usable, fun origin state hstate => living.consistent origin state (hstates origin state hstate)⟩

theorem Living.grant (living : sys.Living) {result : Outcome PoolError LuaState} {site : Site}
    (h : Site.CheckedOut sys.site (result, site)) : (sys.grant (result, site)).2.Living := by
  have usable := h.usable living.usable
  cases result with
  | ok state =>
      refine ⟨usable, fun origin other hother => ?_⟩
      cases origin with
      | pool =>
          rcases List.mem_cons.1 hother with rfl | hother
          · exact (h.alive living.usable).1.consistent
          · exact living.consistent .pool other hother
      | caller => exact living.consistent .caller other hother
  | error e => exact living.used usable fun _ _ h => h
  | panic fault => exact living.used usable fun _ _ h => h

theorem states_withStates (sys : System) (states : List LuaState) (origin other : Origin) :
    (sys.withStates states origin).states other = states ∨
      (sys.withStates states origin).states other = sys.states other := by
  cases origin <;> cases other
  · exact .inl rfl
  · exact .inr rfl
  · exact .inr rfl
  · exact .inl rfl

theorem Living.withStates (living : sys.Living) (origin : Origin) {states : List LuaState}
    (h : ∀ state ∈ states, state.Consistent) : (sys.withStates states origin).Living where
  usable := by cases origin <;> exact living.usable
  consistent other state hstate := by
    rcases sys.states_withStates states origin other with heq | heq
    · exact h state (heq ▸ hstate)
    · exact living.consistent other state (heq ▸ hstate)

theorem Living.touch (living : sys.Living) (origin : Origin) (id : StateId) (touch : Touch) :
    (sys.touch origin id touch).2.Living := by
  unfold System.touch
  split
  · exact living
  · next state rest hpick =>
      obtain ⟨-, hperm⟩ := perm_of_pick hpick
      have hmem := living.consistent origin
      have later : (sys.withWorld (state.touch sys.site.world touch).2).Living :=
        living.used living.usable fun origin state hstate => by cases origin <;> exact hstate
      refine later.withStates origin (List.forall_mem_cons.2 ⟨?_, fun other hother => ?_⟩)
      · exact (hmem state (hperm.mem_iff.2 List.mem_cons_self)).touch _ _
      · exact hmem other (hperm.mem_iff.2 (List.mem_cons_of_mem _ hother))

theorem Living.part (living : sys.Living) (origin : Origin) (id : StateId) (parting : Parting) :
    (sys.part origin id parting).2.Living := by
  unfold System.part
  split
  · exact living
  · next state rest hpick =>
      obtain ⟨-, hperm⟩ := perm_of_pick hpick
      have hmem := living.consistent origin
      have hrest : ∀ other ∈ rest, other.Consistent := fun other hother =>
        hmem other (hperm.mem_iff.2 (List.mem_cons_of_mem _ hother))
      have usable := living.usable.perform
        (hmem state (hperm.mem_iff.2 List.mem_cons_self)) parting
      refine (living.withStates origin hrest).used usable fun other state hstate => ?_
      cases other <;> exact hstate

theorem Living.act (living : sys.Living) (action : Action) : (sys.act action).2.Living := by
  have hopen {next : Report × System} (h : next.2.Living) : (sys.ifOpen next).2.Living := by
    unfold ifOpen
    split
    · exact h
    · exact living
  have hself {next : System} (hidle : next.site.pool.idle = sys.site.pool.idle)
      (hstates : ∀ origin, next.states origin = sys.states origin) : next.Living :=
    living.used (living.usable.of_idle_eq hidle) fun origin state h => hstates origin ▸ h
  cases action with
  | tick | context | entrust | cancel => exact hself rfl fun origin => by cases origin <;> rfl
  | build parent budget idleSeconds options hook =>
      have created := LuaState.create_created parent budget idleSeconds options hook sys.site.world
      simp only [System.act, System.build]
      generalize LuaState.create _ _ _ _ _ _ = result at created
      cases created with
      | born newborn =>
          refine (living.withStates .caller (List.forall_mem_cons.2
            ⟨newborn.alive.consistent, living.consistent .caller⟩)).used living.usable ?_
          intro origin state hstate
          cases origin <;> exact hstate
      | failed | panicked => exact hself rfl fun origin => by cases origin <;> rfl
  | touch origin id touch => exact living.touch origin id touch
  | get request =>
      refine hopen ?_
      unfold Site.get
      split
      · exact hself rfl fun origin => by cases origin <;> rfl
      · exact living.grant (Site.checkOut_checkedOut sys.site)
  | checkOut => exact hopen (living.grant (Site.checkOut_checkedOut sys.site))
  | part origin id parting => exact hopen (living.part origin id parting)
  | setStateOptions options => exact hopen (hself rfl fun origin => by cases origin <;> rfl)
  | look => exact hopen living
  | call call => exact hopen (hself rfl fun origin => by cases origin <;> rfl)
  | advance index =>
      simp only [System.act, System.advance]
      split
      · exact living
      · next run hcall =>
          split
          · split
            · exact hself rfl fun origin => by cases origin <;> rfl
            · refine living.used (run.usable_step living.usable) fun origin state hstate => ?_
              cases origin <;> exact hstate
          · split <;> exact hself rfl fun origin => by cases origin <;> rfl

theorem Living.step (living : sys.Living) (action : Action) : (sys.step action).2.Living := by
  refine (living.act action).used (living.act action).usable fun origin state hstate => ?_
  cases origin <;> exact hstate

theorem living_make (config : Config) (hook : Option InitHook) (root : Token) (world : World) :
    (make config hook root world).Living :=
  ⟨nofun, fun origin => by cases origin <;> nofun⟩

theorem Possible.living (h : sys.Possible) : sys.Living := by
  induction h with
  | made config hook root world => exact living_make config hook root world
  | step _ action ih => exact ih.step action

/-- Closed states are out of the way of everybody. -/
structure Unspoiled (sys : System) : Prop where
  idle_open : ∀ state ∈ sys.site.pool.idle, state.closed = false
  closed_iff : ∀ state, (state ∈ sys.site.pool.idle ∨ ∃ origin, state ∈ sys.states origin) →
    (state.closed = true ↔ state.interpreter = none)
  granted : ∀ action state, (sys.step action).1 = .granted state →
    state.closed = false ∧ state.serving = true ∧ state.interpreter ≠ none
  /-- A state that was just handed out is not found closed by the work that is to run on it. -/
  watched : ∀ action state, (sys.step action).1 = .granted state →
    ∀ (site : Site) (request : Token) {α : Type} (task : Task α),
      (site.runWatched request state task).1 ≠ .error .closed
  withState : ∀ (request : Token) {α : Type} (task : Task α),
    (sys.site.withState request task).1 ≠ .error .closed
  performed : ∀ (files : Files) (request : Request),
    (request.perform files sys.site).1 ≠ .error .closed

/-- Nothing but a checkout hands a state out. -/
theorem checkOut_of_granted {action : Action} {state : LuaState}
    (h : (sys.step action).1 = .granted state) :
    sys.isOpen = true ∧ ∃ site, sys.site.checkOut = (.ok state, site) ∧
      (sys.step action).2 = sys.note (sys.grant (.ok state, site)).2 := by
  have hgrant {answer : Outcome PoolError LuaState × Site}
      (h : (sys.grant answer).1 = .granted state) : ∃ site, answer = (.ok state, site) := by
    obtain ⟨result, site⟩ := answer
    cases result with
    | ok other =>
        cases h
        exact ⟨site, rfl⟩
    | error e | panic fault => cases h
  have hopen {next : Report × System} (h : (sys.ifOpen next).1 = .granted state) :
      sys.isOpen = true ∧ next.1 = .granted state := by
    unfold ifOpen at h
    split at h
    · next hopen => exact ⟨hopen, h⟩
    · cases h
  have hreport {result : Outcome PoolError Unit}
      (h : Report.ofOutcome (fun () => .done) result = .granted state) : False := by
    cases result <;> cases h
  simp only [System.step] at h ⊢
  cases action with
  | get request =>
      obtain ⟨hmade, h⟩ := hopen h
      obtain ⟨site, hget⟩ := hgrant h
      have hlive : sys.site.isCancelled request = false := by
        cases hcancelled : sys.site.isCancelled request with
        | false => rfl
        | true => simp [Site.get, hcancelled] at hget
      rw [Site.get, hlive, if_neg Bool.false_ne_true] at hget
      refine ⟨hmade, site, hget, ?_⟩
      simp only [System.act, ifOpen, hmade, Site.get, hlive, hget, Bool.false_eq_true, ↓reduceIte]
  | checkOut =>
      obtain ⟨hmade, h⟩ := hopen h
      obtain ⟨site, hcheck⟩ := hgrant h
      refine ⟨hmade, site, hcheck, ?_⟩
      simp only [System.act, ifOpen, hmade, hcheck, ↓reduceIte]
  | build =>
      simp only [System.act, System.build] at h
      split at h <;> cases h
  | touch =>
      simp only [System.act, System.touch] at h
      split at h <;> cases h
  | part =>
      replace h := (hopen h).2
      unfold System.part at h
      split at h
      · cases h
      · exact (hreport h).elim
  | advance index =>
      simp only [System.act, System.advance] at h
      split at h
      · cases h
      · split at h
        · split at h
          · cases h
          · simp only [LifecycleRun.report] at h
            split at h
            · exact (hreport h).elim
            · cases h
        · split at h <;> cases h
  | tick | context | entrust | cancel => cases h
  | setStateOptions | look | call => cases (hopen h).2

theorem Living.granted (living : sys.Living) {action : Action} {state : LuaState}
    (h : (sys.step action).1 = .granted state) : state.Alive ∧ state.serving = true := by
  obtain ⟨-, site, hcheck, -⟩ := checkOut_of_granted h
  have checked := Site.checkOut_checkedOut sys.site
  rw [hcheck] at checked
  exact checked.alive living.usable

theorem possible_unspoiled (h : sys.Possible) : sys.Unspoiled where
  idle_open state hstate := (h.living.usable state hstate).closed_eq
  closed_iff state hstate := by
    rcases hstate with hstate | ⟨origin, hstate⟩
    · exact (h.living.usable state hstate).consistent
    · exact h.living.consistent origin state hstate
  granted action state hgrant := by
    obtain ⟨alive, hserving⟩ := h.living.granted hgrant
    exact ⟨alive.closed_eq, hserving, alive.interpreter_ne⟩
  watched action state hgrant site request _ task :=
    site.runWatched_ne_closed request (h.living.granted hgrant).1 task
  withState request _ task := h.living.usable.withState_ne_closed request task
  performed files request := h.living.usable.perform_ne_closed files request

/-- A state is closed by its holder and given back, and one that the pool never built is put into it
in its stead. -/
def misused : System :=
  (make .small none ⟨0⟩ clean).run
    [.advance 0, .advance 0, .advance 0, .get ⟨0⟩, .touch .pool ⟨1⟩ .close, .part .pool ⟨1⟩ .put,
      .build ⟨0⟩ 0 0 {} none, .touch .caller ⟨2⟩ (.setServing true), .part .caller ⟨2⟩ .put]

theorem misused_unspoiled :
    (misused.Possible ∧ misused.site.pool.idle.map (·.id) = [⟨2⟩, ⟨0⟩]) ∧ misused.Unspoiled := by
  have h : misused.Possible := (Possible.made .small none ⟨0⟩ clean).run _
  exact ⟨⟨h, by decide +kernel⟩, possible_unspoiled h⟩

end System

end StatePool
