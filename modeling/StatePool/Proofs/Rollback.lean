import StatePool.Proofs.Births
import StatePool.Proofs.Restart
import StatePool.Proofs.Undisturbed

/-!
What is left of a pool that cannot be seeded.

If the hook returns an error, the restart undoes all that it did, and the pool can be restarted
again.  If the hook panics, the seeding unwinds and nothing is undone: the pool goes on with the
seeds that it has.
-/

namespace StatePool

namespace World

variable {world : World} {token : Token}

theorem isCancelled_closeAll (h : world.isCancelled token = true) (states : List LuaState) :
    (world.closeAll states).isCancelled token = true := by
  induction states generalizing world with
  | nil => exact h
  | cons state states ih => exact ih (TokenForest.isCancelled_cancel_of_isCancelled state.token h)

@[simp] theorem hookCalls_undergoAll (world : World) (effects : List HostEffect) :
    (world.undergoAll effects).hookCalls = world.hookCalls := by
  unfold undergoAll
  induction effects generalizing world with
  | nil => rfl
  | cons effect effects ih =>
      refine (ih (world.undergo effect)).trans ?_
      cases effect <;> rfl

end World

namespace LuaState

theorem hookCalls_prepare (hook : InitHook) (interp : Script.Interpreter) (world : World) :
    (prepare (some hook) interp world).2.hookCalls = world.hookCalls + 1 := by
  simp [prepare]

theorem hookCalls_create (parent : Token) (budget idleSeconds : Nat) (options : StateOptions)
    (hook : InitHook) (world : World) :
    (create parent budget idleSeconds options (some hook) world).2.hookCalls =
      world.hookCalls + 1 := by
  have prepared := hookCalls_prepare hook { options } world
  unfold create
  split
  · next h => rwa [h] at prepared
  · next h => rwa [h] at prepared
  · next h =>
      rw [h] at prepared
      split <;> exact prepared

/-- What a caller is told when a call of the hook decides. -/
def told (result : Outcome ScriptError Script.Interpreter) : Outcome PoolError Unit :=
  (result.mapError (.initialization "init hook failed")).map fun _ => ()

end LuaState

/-! ### The calls of the hook -/

namespace Site

variable {site before after : Site} {result : Outcome ScriptError Script.Interpreter}
  {world : World} {index count : Nat}

/-- The call of the hook for one of the seeds, the first of them being number zero.  There is none
if the seeding ends before it. -/
def seedCall? (site : Site) (index : Nat) :
    Option (Outcome ScriptError Script.Interpreter × World) :=
  match site.seed index with
  | (.ok (), before) => some before.hookCall
  | _ => none

theorem seedCall?_eq_some {call : Outcome ScriptError Script.Interpreter × World} :
    site.seedCall? index = some call ↔
      ∃ before, site.seed index = (.ok (), before) ∧ before.hookCall = call := by
  unfold seedCall?
  split
  · next before h => simp [h]
  · next h =>
      constructor
      · nofun
      · rintro ⟨before, hseed, -⟩
        exact absurd hseed (h before)

theorem seed_succ_of_birth {first : LuaState} (h : site.birth = (.ok first, world)) (count : Nat) :
    site.seed (count + 1) = (site.sown first world).seed count := by
  rcases site.seed_succ count with ⟨_, _, hbirth, heq⟩ | ⟨result, _, hbirth, hresult, -⟩
  · cases h.symm.trans hbirth
    exact heq
  · cases h.symm.trans hbirth
    exact absurd rfl (hresult first)

theorem birth_of_seed (h : site.seed (count + 1) = (.ok (), after)) :
    ∃ first world, site.birth = (.ok first, world) := by
  simp only [seed] at h
  rcases site.allocate_eq with ⟨first, world, hbirth, -⟩ | ⟨result, world, -, hresult, heq⟩
  · exact ⟨first, world, hbirth⟩
  · rw [heq] at h
    cases result with
    | ok first => exact absurd rfl (hresult first)
    | error e | panic fault => cases h

/-- Seeds are built one after the other. -/
theorem seed_add {first : Nat} (h : site.seed first = (.ok (), before)) (count : Nat) :
    site.seed (first + count) = before.seed count := by
  induction first generalizing site with
  | zero =>
      cases h
      rw [Nat.zero_add]
  | succ first ih =>
      obtain ⟨state, world, hbirth⟩ := birth_of_seed h
      rw [seed_succ_of_birth hbirth] at h
      rw [Nat.succ_add, seed_succ_of_birth hbirth]
      exact ih h

theorem seed_of_hookCall (h : site.hookCall = (result, world))
    (hresult : ∀ interp, result ≠ .ok interp) (count : Nat) :
    site.seed (count + 1) = (LuaState.told result, { site with world }) := by
  rw [← prepare_eq_hookCall] at h
  cases result with
  | ok interp => exact absurd rfl (hresult interp)
  | error cause | panic fault =>
      simp [seed, allocate, LuaState.create, h, LuaState.told, Outcome.map, Outcome.mapError]

theorem hook_of_hookCall (h : site.hookCall = (result, world))
    (hresult : ∀ interp, result ≠ .ok interp) : ∃ hook, site.pool.hook = some hook := by
  rw [← prepare_eq_hookCall] at h
  unfold LuaState.prepare at h
  split at h
  · cases h
    exact absurd rfl (hresult _)
  · next hook hhook => exact ⟨hook, hhook⟩

theorem hookCalls_hookCall {hook : InitHook} (hhook : site.pool.hook = some hook) :
    site.hookCall.2.hookCalls = site.world.hookCalls + 1 := by
  rw [← prepare_eq_hookCall, hhook]
  exact LuaState.hookCalls_prepare hook _ site.world

theorem hookCalls_birth {hook : InitHook} (hhook : site.pool.hook = some hook) :
    site.birth.2.hookCalls = site.world.hookCalls + 1 := by
  rw [birth, hhook]
  exact LuaState.hookCalls_create _ _ _ _ hook site.world

theorem hookCalls_seed {hook : InitHook} (hhook : site.pool.hook = some hook)
    (h : site.seed count = (.ok (), after)) :
    after.world.hookCalls = site.world.hookCalls + count := by
  induction count generalizing site with
  | zero =>
      cases h
      rfl
  | succ count ih =>
      obtain ⟨first, world, hbirth⟩ := birth_of_seed h
      have hcalls := hookCalls_birth hhook
      rw [hbirth] at hcalls
      rw [seed_succ_of_birth hbirth] at h
      have hsown : (site.sown first world).pool.hook = some hook := hhook
      rw [ih hsown h, sown, hcalls]
      omega

/-- A seeding that a call of the hook ends keeps what was built before. -/
theorem seed_of_seedCall (h : site.seedCall? index = some (result, world))
    (hresult : ∀ interp, result ≠ .ok interp) (hlt : index < count) :
    ∃ born, LuaState.Batch site.world.states born ∧ born.length = index ∧
      site.seed count = (LuaState.told result, ⟨site.pool.withSeeds born, world⟩) ∧
      world.hookCalls = site.world.hookCalls + (index + 1) := by
  obtain ⟨before, hseed, hcall⟩ := seedCall?_eq_some.1 h
  have hcount : count = index + (count - index - 1 + 1) := by omega
  have hends := seed_add hseed (count - index - 1 + 1)
  rw [← hcount, seed_of_hookCall hcall hresult] at hends
  obtain ⟨hook, hhook⟩ := hook_of_hookCall hcall hresult
  have hcalls := hookCalls_hookCall hhook
  rw [hcall] at hcalls
  have seeded := seed_seeded site index
  rw [hseed] at seeded
  cases seeded with
  | @complete born last batch hstates hlength =>
      have hsame : site.pool.hook = some hook := hhook
      refine ⟨born, batch, hlength, hends, ?_⟩
      rw [hcalls, hookCalls_seed hsame hseed]
      omega

/-- As far as the hook is called for a number of seeds, it prepares their interpreters. -/
def Prepares (site : Site) (count : Nat) : Prop :=
  ∀ index < count, (site.seedCall? index).all (fun call => call.1.isOk) = true

/-- As far as the hook is called for a number of seeds, the wall clock can be read after it. -/
def TellsTime (site : Site) (count : Nat) : Prop :=
  ∀ index < count, (site.seedCall? index).all (fun call => call.2.clock.now.isOk) = true

instance (site : Site) (count : Nat) : Decidable (site.Prepares count) :=
  inferInstanceAs (Decidable (∀ index < count, _))

instance (site : Site) (count : Nat) : Decidable (site.TellsTime count) :=
  inferInstanceAs (Decidable (∀ index < count, _))

theorem seed_of_prepares (hprepares : site.Prepares count) (htime : site.TellsTime count) :
    ∃ after, site.seed count = (.ok (), after) := by
  -- By induction on the seeds built so far: the call for the next one is `before.hookCall`.
  have hfirst (first : Nat) (hle : first ≤ count) : ∃ after, site.seed first = (.ok (), after) := by
    induction first with
    | zero => exact ⟨site, rfl⟩
    | succ first ih =>
        obtain ⟨before, hseed⟩ := ih (by omega)
        have hcall : site.seedCall? first = some before.hookCall :=
          seedCall?_eq_some.2 ⟨before, hseed, rfl⟩
        have hready := hprepares first hle
        have hreads := htime first hle
        rw [hcall, Option.all_some] at hready hreads
        obtain ⟨state, next, hbirth⟩ := birth_of_hookCall hready hreads
        refine ⟨before.sown state next, ?_⟩
        rw [seed_add hseed 1, seed_succ_of_birth hbirth]
        rfl
  exact hfirst count (Nat.le_refl count)

/-! ### What is left -/

/-- What a seeding undone by the next drain leaves.  What is reported behind the opening of the life
is the seeds that were built, and the drain that closed just those. -/
structure RolledBack (before : Site) (opening : List Event) (index : Nat) (after : Site) :
    Prop where
  status_eq : after.pool.status = .exiting
  drained : after.pool.Drained
  total_eq : after.pool.total = before.pool.total
  hookCalls_eq : after.world.hookCalls = before.world.hookCalls + (index + 1)
  journal_eq : ∃ ids : List StateId, ids.length = index ∧ ids.Nodup ∧
    after.pool.journal = before.pool.journal ++
      (opening ++ ids.map Event.created ++ Event.statusChanged .running .exiting ::
        ids.map fun id => Event.cleanedUp id .shutdown).toArray

/-- What a seeding leaves that nothing undoes. -/
structure HalfSeeded (before : Site) (opening : List Event) (index : Nat) (after : Site) :
    Prop where
  status_eq : after.pool.status = .running
  length_eq : after.pool.length = index
  idle_length : after.pool.idle.length = index
  serving_eq : after.pool.serving = 0
  total_eq : after.pool.total = before.pool.total
  hookCalls_eq : after.world.hookCalls = before.world.hookCalls + (index + 1)
  journal_eq : after.pool.journal = before.pool.journal ++
    (opening ++ after.pool.idle.reverse.map fun state => Event.created state.id).toArray

variable {root : Token}

theorem idle_withSeeds_revived (drained : site.pool.Drained) (root : Token)
    (born : List LuaState) : ((site.revived root).pool.withSeeds born).idle = born := by
  simp [Pool.withSeeds, revived, Pool.revived, Pool.emit, drained.idle_eq]

theorem begun_of_error {cause : ScriptError} (drained : site.pool.Drained)
    (hlive : site.isCancelled root = false) (hlt : index < site.pool.config.seeds)
    (hcall : (site.revived root).seedCall? index = some (.error cause, world)) :
    (site.begun root).1 = .error (.initialization "init hook failed" cause) ∧
      site.RolledBack [.statusChanged site.pool.status .running] index (site.begun root).2 := by
  obtain ⟨born, batch, hborn, hseed, hcalls⟩ := seed_of_seedCall hcall nofun hlt
  have hbegun : site.begun root =
      (.error (.initialization "init hook failed" cause),
        emptied ⟨(site.revived root).pool.withSeeds born, world⟩) := by
    simp [begun, hlive, hseed, LuaState.told, Outcome.map, Outcome.mapError]
  rw [hbegun]
  refine ⟨rfl,
    { status_eq := rfl
      drained := ⟨rfl, rfl, drained.serving_eq⟩
      total_eq := rfl
      hookCalls_eq := ?_
      journal_eq := ⟨born.reverse.map (·.id), ?_, ?_, ?_⟩ }⟩
  · rw [emptied, World.hookCalls_closeAll]
    exact hcalls
  · rw [List.length_map, List.length_reverse, hborn]
  · rw [List.map_reverse, List.nodup_iff_count]
    intro id
    rw [List.count_reverse]
    exact batch.count_le id
  · have hnil : site.pool.idle = [] := drained.idle_eq
    simp [emptied, Pool.emptied, Pool.closingNews, Pool.withSeeds, revived, Pool.revived, Pool.emit,
      farewells, hnil, Function.comp_def]

theorem begun_of_panic {fault : Fault} (drained : site.pool.Drained)
    (hlive : site.isCancelled root = false) (hlt : index < site.pool.config.seeds)
    (hcall : (site.revived root).seedCall? index = some (.panic fault, world)) :
    (site.begun root).1 = .panic fault ∧
      site.HalfSeeded [.statusChanged site.pool.status .running] index (site.begun root).2 := by
  obtain ⟨born, batch, hborn, hseed, hcalls⟩ := seed_of_seedCall hcall nofun hlt
  have hbegun : site.begun root =
      (.panic fault, ⟨(site.revived root).pool.withSeeds born, world⟩) := by
    simp [begun, hlive, hseed, LuaState.told, Outcome.map, Outcome.mapError]
  rw [hbegun]
  have hidle := idle_withSeeds_revived drained root born
  refine ⟨rfl,
    { status_eq := rfl
      length_eq := ?_
      idle_length := ?_
      serving_eq := drained.serving_eq
      total_eq := rfl
      hookCalls_eq := hcalls
      journal_eq := ?_ }⟩
  · simp [Pool.withSeeds, revived, Pool.revived, Pool.emit, drained.length_eq, hborn]
  · rw [hidle, hborn]
  · rw [hidle]
    simp [Pool.withSeeds, revived, Pool.revived, Pool.emit]

theorem begun_of_prepares (drained : site.pool.Drained) (hlive : site.isCancelled root = false)
    (hprepares : (site.revived root).Prepares site.pool.config.seeds)
    (htime : (site.revived root).TellsTime site.pool.config.seeds) :
    (site.begun root).1 = .ok () ∧ (site.begun root).2.pool.status = .running ∧
      (site.begun root).2.pool.idle.length = site.pool.config.seeds := by
  obtain ⟨after, hseed⟩ := seed_of_prepares hprepares htime
  have hbegun : site.begun root = (.ok (), after) := by
    simp only [begun, hlive, hseed, Bool.false_eq_true, ↓reduceIte]
  have seeded := seed_seeded (site.revived root) site.pool.config.seeds
  rw [hseed] at seeded
  rw [hbegun]
  cases seeded with
  | complete batch hstates hcount =>
      refine ⟨rfl, rfl, ?_⟩
      rw [idle_withSeeds_revived drained, hcount]

theorem begun_running (drained : site.pool.Drained) (hclosed : site.pool.status ≠ .running)
    (hpanic : ∀ fault, (site.begun root).1 ≠ .panic fault)
    (hrunning : (site.begun root).2.pool.status = .running) :
    (site.begun root).2.pool.idle.length = site.pool.config.seeds := by
  have seeded := seed_seeded (site.revived root) site.pool.config.seeds
  unfold begun at hpanic hrunning ⊢
  cases hcancelled : site.isCancelled root with
  | true =>
      simp only [hcancelled, ↓reduceIte] at hrunning
      exact absurd hrunning hclosed
  | false =>
      simp only [hcancelled, Bool.false_eq_true, ↓reduceIte] at hpanic hrunning ⊢
      generalize (site.revived root).seed site.pool.config.seeds = result at *
      cases seeded with
      | complete batch hstates hcount => rw [idle_withSeeds_revived drained, hcount]
      | failed => cases hrunning
      | panicked => exact absurd rfl (hpanic _)

theorem restarted_of_ne_dead (hstatus : site.pool.status ≠ .dead) (root : Token) :
    site.restarted root = site.emptied.begun root := by
  rw [restarted, if_neg hstatus]

theorem RolledBack.emptied {opening : List Event}
    (h : site.emptied.RolledBack opening index after) :
    site.RolledBack (site.pool.closingNews ++ opening) index after where
  status_eq := h.status_eq
  drained := h.drained
  total_eq := h.total_eq
  hookCalls_eq := by
    rw [h.hookCalls_eq, Site.emptied, World.hookCalls_closeAll]
  journal_eq := by
    obtain ⟨ids, hlength, hnodup, hjournal⟩ := h.journal_eq
    refine ⟨ids, hlength, hnodup, hjournal.trans ?_⟩
    simp [Site.emptied, Pool.emptied]

theorem HalfSeeded.emptied {opening : List Event}
    (h : site.emptied.HalfSeeded opening index after) :
    site.HalfSeeded (site.pool.closingNews ++ opening) index after where
  status_eq := h.status_eq
  length_eq := h.length_eq
  idle_length := h.idle_length
  serving_eq := h.serving_eq
  total_eq := h.total_eq
  hookCalls_eq := by
    rw [h.hookCalls_eq, Site.emptied, World.hookCalls_closeAll]
  journal_eq := by
    rw [h.journal_eq]
    simp [Site.emptied, Pool.emptied]

end Site

namespace System

variable {sys : System} {root : Token}

/-- What a lifecycle call is told that nobody disturbs. -/
def answer (sys : System) (call : LifecycleCall) : Option (Outcome PoolError Unit) :=
  (sys.alone call).calls[sys.calls.length]?.bind (·.result?)

theorem AtRest.answer (rest : sys.AtRest) (quiet : sys.site.pool.Quiet) (root : Token) :
    sys.answer (.restart root) = some (sys.site.restarted root).1 ∧
      (sys.alone (.restart root)).site = (sys.site.restarted root).2 ∧
      (sys.alone (.restart root)).AtRest := by
  obtain ⟨hsite, hcall, later⟩ := rest.restarted quiet root
  refine ⟨?_, hsite, later⟩
  rw [System.answer, hcall]
  rfl

/-- What becomes of a pool that nobody uses when it is restarted and that does not succeed. -/
structure Restorable (sys : System) (root : Token) : Prop where
  failed : sys.site.pool.status ≠ .dead → sys.site.emptied.isCancelled root = false →
    ∀ index cause world, index < sys.site.pool.config.seeds →
    (sys.site.emptied.revived root).seedCall? index = some (.error cause, world) →
    sys.answer (.restart root) = some (.error (.initialization "init hook failed" cause)) ∧
      sys.site.RolledBack (sys.site.pool.closingNews ++ [.statusChanged .exiting .running]) index
        (sys.alone (.restart root)).site
  cancelled : sys.site.pool.status ≠ .dead → sys.site.isCancelled root = true →
    sys.answer (.restart root) = some (.error .cancelled) ∧
      (sys.alone (.restart root)).site.pool = sys.site.pool.emptied
  dead : sys.site.pool.status = .dead →
    sys.answer (.restart root) = some (.error .dead) ∧
      (sys.alone (.restart root)).site = sys.site
  rests : (sys.alone (.restart root)).AtRest
  /-- Whatever came of the restart, a later one gets a pool going that was not terminated. -/
  recovers : ∀ actions : List Action, (∀ action ∈ actions, action.honest = true) →
    let later := (sys.alone (.restart root)).run actions
    later.AtRest → later.site.pool.status ≠ .dead →
    ∀ next, later.site.emptied.isCancelled next = false →
    (later.site.emptied.revived next).Prepares later.site.pool.config.seeds →
    (later.site.emptied.revived next).TellsTime later.site.pool.config.seeds →
    later.answer (.restart next) = some (.ok ()) ∧
      (later.alone (.restart next)).site.pool.status = .running ∧
      (later.alone (.restart next)).site.pool.idle.length = later.site.pool.config.seeds

theorem AtRest.restorable (rest : sys.AtRest) (h : sys.Reachable) (root : Token) :
    sys.Restorable root := by
  have quiet := rest.quiet h
  obtain ⟨hanswer, hsite, later⟩ := rest.answer quiet root
  have drained := Site.emptied_drained quiet
  constructor
  · intro hstatus hlive index cause world hlt hcall
    obtain ⟨htold, rolled⟩ := Site.begun_of_error drained hlive hlt hcall
    rw [hanswer, hsite, Site.restarted_of_ne_dead hstatus, htold]
    exact ⟨rfl, rolled.emptied⟩
  · intro hstatus hcancelled
    have hstill : sys.site.emptied.isCancelled root = true :=
      World.isCancelled_closeAll hcancelled _
    rw [hanswer, hsite, Site.restarted_of_ne_dead hstatus, Site.begun, if_pos hstill]
    exact ⟨rfl, rfl⟩
  · intro hdead
    rw [hanswer, hsite, Site.restarted, if_pos hdead]
    exact ⟨rfl, rfl⟩
  · exact later
  · intro actions honest again hagain hstatus next hlive hprepares htime
    have quiet := hagain.quiet ((h.alone _).run honest)
    obtain ⟨hanswer, hsite, -⟩ := hagain.answer quiet next
    obtain ⟨htold, hrunning, hcount⟩ :=
      Site.begun_of_prepares (Site.emptied_drained quiet) hlive hprepares htime
    rw [hanswer, hsite, Site.restarted_of_ne_dead hstatus, htold]
    exact ⟨rfl, hrunning, hcount⟩

/-- A seeding that fails is undone, be it that of the first life or that of a restart. -/
theorem reachable_restorable :
    (∀ (config : Config) (hook : Option InitHook) (root : Token) (world : World),
      let site := Site.idle config hook root world
      site.isCancelled root = false →
      ∀ index cause next, index < config.seeds →
      (site.revived root).seedCall? index = some (.error cause, next) →
      (Site.new config hook root world).1 =
          .error (.initialization "init hook failed" cause) ∧
        site.RolledBack [.statusChanged .ready .running] index
          (Site.new config hook root world).2) ∧
      ∀ sys : System, sys.Reachable → sys.AtRest → ∀ root, sys.Restorable root := by
  constructor
  · intro config hook root world site hlive index cause next hlt hcall
    rw [Site.new_eq_begun]
    exact Site.begun_of_error ⟨rfl, rfl, rfl⟩ hlive hlt hcall
  · intro sys h rest root
    exact rest.restorable h root

/-- A pool whose hook fails when it is called for the second seed of the next life. -/
def frail : System :=
  (make .small (some fourthFails) ⟨0⟩ clean).run [.advance 0, .advance 0, .advance 0]

theorem reachable_frail : frail.Reachable :=
  (Reachable.made Config.built_small (some fourthFails) ⟨0⟩ clean).run (by decide)

/-- That pool behind the restart that failed. -/
def mended : System := (frail.alone (.restart ⟨0⟩)).run []

theorem frail_restorable :
    (frail.Reachable ∧ frail.AtRest) ∧
      frail.answer (.restart ⟨0⟩) =
        some (.error (.initialization "init hook failed" (.runtime "hook failed"))) ∧
      frail.site.RolledBack (frail.site.pool.closingNews ++ [.statusChanged .exiting .running]) 1
        (frail.alone (.restart ⟨0⟩)).site ∧
      mended.answer (.restart ⟨0⟩) = some (.ok ()) := by
  have rest : frail.AtRest := ⟨by decide, by decide, by decide⟩
  have restorable := reachable_restorable.2 frail reachable_frail rest ⟨0⟩
  have hlive : frail.site.emptied.isCancelled ⟨0⟩ = false := by decide +kernel
  obtain ⟨htold, rolled⟩ :=
    restorable.failed (by decide) hlive 1 (.runtime "hook failed") _ (by decide) rfl
  have later : mended.AtRest := ⟨by decide +kernel, by decide +kernel, by decide +kernel⟩
  have hstatus : mended.site.pool.status ≠ .dead := by decide +kernel
  have hstill : mended.site.emptied.isCancelled ⟨0⟩ = false := by decide +kernel
  have hprepares : (mended.site.emptied.revived ⟨0⟩).Prepares mended.site.pool.config.seeds := by
    decide +kernel
  have htime : (mended.site.emptied.revived ⟨0⟩).TellsTime mended.site.pool.config.seeds := by
    decide +kernel
  have again := restorable.recovers [] nofun
  rw [← mended] at again
  exact ⟨⟨reachable_frail, rest⟩, htold, rolled, (again later hstatus ⟨0⟩ hstill hprepares htime).1⟩

/-- A pool that is to be restarted under a token that was cancelled. -/
def spurned : System :=
  (make .default none ⟨0⟩ clean).run
    [.advance 0, .advance 0, .advance 0, .context (.create "c" "c"), .cancel ⟨2⟩]

/-- That restart has returned, and since then the wall clock was set to before the epoch. -/
def backdated : System := (spurned.alone (.restart ⟨2⟩)).run [.tick (-1700000000001) 0]

/-- A hook that prepares every interpreter is not enough for a later restart to succeed. -/
theorem not_recovery_certain :
    ¬ ∀ sys : System, sys.Reachable → sys.AtRest → ∀ root,
      sys.answer (.restart root) = some (.error .cancelled) →
      ∀ actions : List Action, (∀ action ∈ actions, action.honest = true) →
      let later := (sys.alone (.restart root)).run actions
      later.AtRest → later.site.pool.status ≠ .dead →
      ∀ next, later.site.emptied.isCancelled next = false →
      (later.site.emptied.revived next).Prepares later.site.pool.config.seeds →
      (later.alone (.restart next)).site.pool.status = .running ∧
        (later.alone (.restart next)).site.pool.idle.length = later.site.pool.config.seeds := by
  intro hcertain
  have h : spurned.Reachable := (Reachable.made .default none ⟨0⟩ clean).run (by decide)
  have rest : spurned.AtRest := ⟨by decide, by decide, by decide⟩
  have htold : spurned.answer (.restart ⟨2⟩) = some (.error .cancelled) := by decide +kernel
  have again := hcertain spurned h rest ⟨2⟩ htold [.tick (-1700000000001) 0] (by decide)
  rw [← backdated] at again
  have later : backdated.AtRest := ⟨by decide +kernel, by decide +kernel, by decide +kernel⟩
  have hstatus : backdated.site.pool.status ≠ .dead := by decide +kernel
  have hlive : backdated.site.emptied.isCancelled ⟨0⟩ = false := by decide +kernel
  have hprepares :
      (backdated.site.emptied.revived ⟨0⟩).Prepares backdated.site.pool.config.seeds := by
    decide +kernel
  obtain ⟨-, hcount⟩ := again later hstatus ⟨0⟩ hlive hprepares
  have hnone : (backdated.alone (.restart ⟨0⟩)).site.pool.idle.length = 0 := by decide +kernel
  have hseeds : backdated.site.pool.config.seeds = 1 := by decide +kernel
  omega

/-! ### Panics of the hook -/

/-- What becomes of a pool that nobody uses when a restart of it panics. -/
structure Unwound (sys : System) (root : Token) : Prop where
  panicked : sys.site.pool.status ≠ .dead → sys.site.emptied.isCancelled root = false →
    ∀ index fault world, index < sys.site.pool.config.seeds →
    (sys.site.emptied.revived root).seedCall? index = some (.panic fault, world) →
    sys.answer (.restart root) = some (.panic fault) ∧
      sys.site.HalfSeeded (sys.site.pool.closingNews ++ [.statusChanged .exiting .running]) index
        (sys.alone (.restart root)).site
  /-- No other restart leaves a running pool that lacks seeds. -/
  only : (∀ fault, sys.answer (.restart root) ≠ some (.panic fault)) →
    (sys.alone (.restart root)).site.pool.status = .running →
    (sys.alone (.restart root)).site.pool.idle.length = sys.site.pool.config.seeds
  /-- Both locks are free, so that others go on with the pool. -/
  rests : (sys.alone (.restart root)).AtRest

/-- The books of a pool agree when its callers are honest, and may agree when they are not. -/
theorem resting_unwound (rest : sys.AtRest) (h : sys.Reachable ∨ sys.site.pool.Quiet)
    (root : Token) : sys.Unwound root := by
  have quiet : sys.site.pool.Quiet := h.elim rest.quiet id
  obtain ⟨hanswer, hsite, later⟩ := rest.answer quiet root
  have drained := Site.emptied_drained quiet
  constructor
  · intro hstatus hlive index fault world hlt hcall
    obtain ⟨htold, half⟩ := Site.begun_of_panic drained hlive hlt hcall
    rw [hanswer, hsite, Site.restarted_of_ne_dead hstatus, htold]
    exact ⟨rfl, half.emptied⟩
  · intro hpanic hrunning
    by_cases hdead : sys.site.pool.status = .dead
    · rw [hsite, Site.restarted, if_pos hdead, hdead] at hrunning
      cases hrunning
    · rw [hsite, Site.restarted_of_ne_dead hdead] at hrunning ⊢
      rw [hanswer, Site.restarted_of_ne_dead hdead] at hpanic
      refine Site.begun_running drained nofun ?_ hrunning
      exact fun fault heq => hpanic fault (congrArg some heq)
  · exact later

/-- A hook that panics once, at its fourth call. -/
def fourthPanics : InitHook := fun call _ interp =>
  { result := if call = 4 then .panicked "hook failed" else .ready interp }

def brittle : System :=
  (make .small (some fourthPanics) ⟨0⟩ clean).run [.advance 0, .advance 0, .advance 0]

theorem reachable_brittle : brittle.Reachable :=
  (Reachable.made Config.built_small (some fourthPanics) ⟨0⟩ clean).run (by decide)

theorem brittle_unwound :
    (brittle.Reachable ∧ brittle.AtRest) ∧ brittle.Unwound ⟨0⟩ ∧
      brittle.site.HalfSeeded
        (brittle.site.pool.closingNews ++ [.statusChanged .exiting .running]) 1
        (brittle.alone (.restart ⟨0⟩)).site := by
  have rest : brittle.AtRest := ⟨by decide, by decide, by decide⟩
  have unwound := resting_unwound rest (.inl reachable_brittle) ⟨0⟩
  have hlive : brittle.site.emptied.isCancelled ⟨0⟩ = false := by decide +kernel
  have half := unwound.panicked (by decide) hlive 1 (.raised "hook failed") _ (by decide) rfl
  exact ⟨⟨reachable_brittle, rest⟩, unwound, half.2⟩

/-- A panic of the hook leaves a pool running that lacks a seed. -/
theorem not_panic_undone :
    ¬ ∀ sys : System, sys.Reachable → sys.AtRest → sys.site.pool.status ≠ .dead →
      ∀ root index fault world, sys.site.emptied.isCancelled root = false →
      index < sys.site.pool.config.seeds →
      (sys.site.emptied.revived root).seedCall? index = some (.panic fault, world) →
      ¬ ((sys.alone (.restart root)).site.pool.status = .running ∧
        (sys.alone (.restart root)).site.pool.length < sys.site.pool.config.seeds) := by
  intro hundone
  have rest : brittle.AtRest := ⟨by decide, by decide, by decide⟩
  have hlive : brittle.site.emptied.isCancelled ⟨0⟩ = false := by decide +kernel
  refine hundone brittle reachable_brittle rest (by decide) ⟨0⟩ 1 (.raised "hook failed") _ hlive
    (by decide) rfl ⟨?_, ?_⟩
  · decide +kernel
  · decide +kernel

end System

end StatePool
