import StatePool.Proofs.Forest
import StatePool.Proofs.Sections

/-!
What a state is born with.

A new state has served nobody, has the budget of its pool, and holds a token right below the root of
the pool.  Where a token stands is not changed by anything that happens to the world later.
-/

namespace StatePool

theorem World.extends_undergoAll (world : World) (effects : List HostEffect) :
    world.book.tokens.Extends (world.undergoAll effects).book.tokens := by
  unfold undergoAll
  induction effects generalizing world with
  | nil => exact .refl _
  | cons effect effects ih =>
      refine TokenForest.Extends.trans ?_ (ih (world.undergo effect))
      cases effect with
      | advance ms => exact .refl _
      | cancel token => exact TokenForest.extends_cancel _ token

/-- How the call of a hook goes on for the one who made it. -/
def HookResult.outcome : HookResult → Outcome ScriptError Script.Interpreter
  | .ready interp => .ok interp
  | .failed e => .error e
  | .panicked message => .panic (.raised message)

namespace LuaState

variable {state : LuaState} {world next : World} {parent : Token} {budget idleSeconds : Nat}
  {options : StateOptions} {hook : Option InitHook} {forest later : TokenForest}

theorem extends_prepare (hook : Option InitHook) (interp : Script.Interpreter) (world : World) :
    world.book.tokens.Extends (prepare hook interp world).2.book.tokens := by
  cases hook with
  | none => exact .refl _
  | some hook => exact World.extends_undergoAll { world with hookCalls := world.hookCalls + 1 } _

theorem create_ok
    (h : create parent budget idleSeconds options hook world = (.ok state, next)) :
    let tokens := (prepare hook { options } world).2.book.tokens
    state.requested = 0 ∧ state.budget = budget ∧ state.token = (tokens.child parent).1 ∧
      next.book.tokens = (tokens.child parent).2 := by
  unfold create at h
  split at h
  · cases h
  · cases h
  · next hprepare =>
      rw [hprepare]
      split at h
      · cases h
      · cases h
        exact ⟨rfl, rfl, rfl, rfl⟩

theorem create_not_ok {result : Outcome PoolError LuaState}
    (h : create parent budget idleSeconds options hook world = (result, next))
    (hresult : ∀ state, result ≠ .ok state) :
    next = (prepare hook { options } world).2 := by
  unfold create at h
  split at h
  · next hprepare =>
      cases h
      rw [hprepare]
  · next hprepare =>
      cases h
      rw [hprepare]
  · next hprepare =>
      rw [hprepare]
      split at h
      · cases h
        rfl
      · cases h
        exact absurd rfl (hresult _)

theorem extends_create (parent : Token) (budget idleSeconds : Nat) (options : StateOptions)
    (hook : Option InitHook) (world : World) :
    world.book.tokens.Extends
      (create parent budget idleSeconds options hook world).2.book.tokens := by
  have prepared := extends_prepare hook { options } world
  cases h : create parent budget idleSeconds options hook world with
  | mk result next =>
      cases result with
      | ok state =>
          rw [(create_ok h).2.2.2]
          exact prepared.trans (TokenForest.extends_child _ parent)
      | error e =>
          rw [create_not_ok h nofun]
          exact prepared
      | panic fault =>
          rw [create_not_ok h nofun]
          exact prepared

/-- A state that has been built below a token and served nobody. -/
structure Raised (state : LuaState) (parent : Token) (budget : Nat) (forest : TokenForest) :
    Prop where
  requested_eq : state.requested = 0
  budget_eq : state.budget = budget
  parent_eq : forest.parent? state.token = some parent

theorem Raised.mono (raised : state.Raised parent budget forest) (h : forest.Extends later) :
    state.Raised parent budget later :=
  { raised with parent_eq := h.parent?_of_some raised.parent_eq }

theorem create_raised
    (h : create parent budget idleSeconds options hook world = (.ok state, next)) :
    state.Raised parent budget next.book.tokens := by
  obtain ⟨hrequested, hbudget, htoken, htokens⟩ := create_ok h
  refine ⟨hrequested, hbudget, ?_⟩
  rw [htoken, htokens, TokenForest.parent?_child, if_pos rfl]

end LuaState

namespace Site

variable {site after : Site} {state : LuaState}

/-- What building a state comes to, before the pool has taken note of it. -/
def birth (site : Site) : Outcome PoolError LuaState × World :=
  LuaState.create site.pool.root site.pool.config.budget site.pool.config.idleSeconds
    site.pool.config.stateOptions site.pool.hook site.world

theorem extends_birth (site : Site) :
    site.world.book.tokens.Extends site.birth.2.book.tokens :=
  LuaState.extends_create _ _ _ _ _ _

theorem birth_raised {world : World} (h : site.birth = (.ok state, world)) :
    state.Raised site.pool.root site.pool.config.budget world.book.tokens :=
  LuaState.create_raised h

/-- The call of the hook for the next state, if the pool has a hook. -/
def hookRun? (site : Site) : Option HookRun :=
  site.pool.hook.map fun hook =>
    let world := { site.world with hookCalls := site.world.hookCalls + 1 }
    hook world.hookCalls world { options := site.pool.config.stateOptions }

/-- The world that the hook leaves to the next state. -/
def afterHook (site : Site) : World :=
  match site.hookRun? with
  | none => site.world
  | some run =>
      { site.world with hookCalls := site.world.hookCalls + 1 }.undergoAll run.effects

/-- The interpreter that the next state is to get: a new one, as the hook leaves it. -/
inductive Readies (site : Site) : Script.Interpreter → Prop
  | plain (hrun : site.hookRun? = none) : Readies site { options := site.pool.config.stateOptions }
  | hooked {run : HookRun} {interp : Script.Interpreter} (hrun : site.hookRun? = some run)
      (hresult : run.result = .ready interp) : Readies site interp

/-- What the hook makes of the interpreter of the next state, and the world it leaves behind. -/
def hookCall (site : Site) : Outcome ScriptError Script.Interpreter × World :=
  let result :=
    match site.hookRun? with
    | none => .ok { options := site.pool.config.stateOptions }
    | some run => run.result.outcome
  (result, site.afterHook)

theorem prepare_eq_hookCall (site : Site) :
    LuaState.prepare site.pool.hook { options := site.pool.config.stateOptions } site.world =
      site.hookCall := by
  unfold hookCall afterHook hookRun? LuaState.prepare
  cases site.pool.hook with
  | none => rfl
  | some hook =>
      simp only [Option.map_some]
      cases (hook _ _ _).result <;> rfl

theorem Readies.hookCall_eq {interp : Script.Interpreter} (h : site.Readies interp) :
    site.hookCall = (.ok interp, site.afterHook) := by
  cases h with
  | plain hrun => simp only [hookCall, hrun]
  | hooked hrun hresult => simp only [hookCall, hrun, hresult, HookResult.outcome]

/-- What comes of the next state if it cannot be built. -/
inductive Unborn (site : Site) : Outcome PoolError LuaState → Prop
  | failed {run : HookRun} {cause : ScriptError} (hrun : site.hookRun? = some run)
      (hresult : run.result = .failed cause) :
      Unborn site (.error (.initialization "init hook failed" cause))
  | panicked {run : HookRun} {message : String} (hrun : site.hookRun? = some run)
      (hresult : run.result = .panicked message) : Unborn site (.panic (.raised message))
  /-- The clock that is to date it cannot be read. -/
  | undated {interp : Script.Interpreter} {fault : ClockFault} (ready : site.Readies interp)
      (hnow : site.afterHook.clock.now = .error fault) : Unborn site (.panic (.clock fault))

/-- What it takes to build the next state. -/
structure Buildable (site : Site) : Prop where
  ready : ∃ interp, site.Readies interp
  dated : ∃ now, site.afterHook.clock.now = .ok now

/-- The next state as it is built, and the world behind that. -/
structure Fresh (site : Site) (born : LuaState) (world : World) : Prop where
  ready : ∃ interp, site.Readies interp ∧ born.interpreter = some interp
  dated : site.afterHook.clock.now = .ok born.createdAt
  id_eq : born.id = ⟨site.world.states⟩
  requested_eq : born.requested = 0
  budget_eq : born.budget = site.pool.config.budget
  idleSeconds_eq : born.idleSeconds = site.pool.config.idleSeconds
  serving_eq : born.serving = false
  closed_eq : born.closed = false
  token_eq : born.token = (site.afterHook.book.tokens.child site.pool.root).1
  world_eq : world =
    { site.afterHook with
      states := site.world.states + 1
      book.tokens := (site.afterHook.book.tokens.child site.pool.root).2 }

theorem states_afterHook (site : Site) : site.afterHook.states = site.world.states := by
  unfold afterHook
  split
  · rfl
  · exact World.states_undergoAll _ _

theorem birth_of_unborn {result : Outcome PoolError LuaState} (h : site.Unborn result) :
    site.birth = (result, site.afterHook) := by
  simp only [birth, LuaState.create, prepare_eq_hookCall]
  cases h with
  | failed hrun hresult | panicked hrun hresult =>
      simp only [hookCall, hrun, hresult, HookResult.outcome]
  | undated ready hnow => simp only [ready.hookCall_eq, hnow]

theorem birth_of_buildable (h : site.Buildable) :
    ∃ born world, site.birth = (.ok born, world) ∧ site.Fresh born world := by
  obtain ⟨⟨interp, ready⟩, now, hnow⟩ := h
  simp only [birth, LuaState.create, prepare_eq_hookCall, ready.hookCall_eq, hnow]
  have hstates := site.states_afterHook
  refine ⟨_, _, rfl, ⟨interp, ready, rfl⟩, hnow, ?_, rfl, rfl, rfl, rfl, rfl, rfl, ?_⟩
  · rw [hstates]
  · rw [hstates]

theorem birth_of_hookCall (hready : site.hookCall.1.isOk = true)
    (hreads : site.hookCall.2.clock.now.isOk = true) :
    ∃ born world, site.birth = (.ok born, world) := by
  simp only [birth, LuaState.create, prepare_eq_hookCall]
  generalize site.hookCall = call at hready hreads
  obtain ⟨result, world⟩ := call
  cases result with
  | ok interp =>
      cases hnow : world.clock.now with
      | ok now =>
          simp only [hnow]
          exact ⟨_, _, rfl⟩
      | error fault => simp [hnow, Except.isOk, Except.toBool] at hreads
  | error cause | panic fault => cases hready

/-- A state is built, or there is something in the way. -/
theorem unborn_or_buildable (site : Site) : (∃ result, site.Unborn result) ∨ site.Buildable := by
  have hdated (interp : Script.Interpreter) (ready : site.Readies interp) :
      (∃ result, site.Unborn result) ∨ site.Buildable := by
    cases hnow : site.afterHook.clock.now with
    | error fault => exact .inl ⟨_, .undated ready hnow⟩
    | ok now => exact .inr ⟨⟨interp, ready⟩, now, hnow⟩
  cases hrun : site.hookRun? with
  | none => exact hdated _ (.plain hrun)
  | some run =>
      cases hresult : run.result with
      | ready interp => exact hdated interp (.hooked hrun hresult)
      | failed cause => exact .inl ⟨_, .failed hrun hresult⟩
      | panicked message => exact .inl ⟨_, .panicked hrun hresult⟩

theorem fresh_of_birth {world : World} (h : site.birth = (.ok state, world)) :
    site.Fresh state world := by
  rcases site.unborn_or_buildable with ⟨result, unborn⟩ | buildable
  · rw [birth_of_unborn unborn] at h
    cases h
    cases unborn
  · obtain ⟨born, next, hbirth, fresh⟩ := birth_of_buildable buildable
    rw [hbirth] at h
    cases h
    exact fresh

theorem allocate_eq (site : Site) :
    (∃ state world, site.birth = (.ok state, world) ∧ site.allocate =
      (.ok state,
        ⟨{ site.pool with length := site.pool.length + 1 }.emit (.created state.id), world⟩)) ∨
    ∃ result world, site.birth = (result, world) ∧ (∀ state, result ≠ .ok state) ∧
      site.allocate = (result, { site with world }) := by
  simp only [allocate]
  cases h : site.birth with
  | mk result world =>
      rw [birth] at h
      rw [h]
      cases result with
      | ok state => exact .inl ⟨state, world, rfl, rfl⟩
      | error e => exact .inr ⟨_, world, rfl, (fun _ h => by cases h), rfl⟩
      | panic fault => exact .inr ⟨_, world, rfl, (fun _ h => by cases h), rfl⟩

/-- Where nothing waits, a state that is checked out has just been born. -/
theorem checkOut_birth (h : site.checkOut = (.ok state, after)) (hidle : site.pool.idle = []) :
    ∃ born : LuaState, site.birth = (.ok born, after.world) ∧
      state = (born.setServing after.world.clock true).countRequest := by
  unfold checkOut at h
  split at h
  · cases h
  · simp only [take, hidle] at h
    by_cases hfull : 0 < site.pool.config.capacity ∧ site.pool.config.capacity ≤ site.pool.length
    · simp only [if_pos hfull] at h
      cases h
    · simp only [if_neg hfull] at h
      rcases site.allocate_eq with ⟨born, world, hbirth, heq⟩ | ⟨result, world, -, hresult, heq⟩
      · rw [heq] at h
        cases h
        exact ⟨born, hbirth, rfl⟩
      · rw [heq] at h
        cases result with
        | ok born => exact absurd rfl (hresult born)
        | error e | panic fault => cases h

theorem checkOut_raised (h : site.checkOut = (.ok state, after)) (hidle : site.pool.idle = []) :
    ∃ born : LuaState, born.Raised site.pool.root site.pool.config.budget after.world.book.tokens ∧
      state = (born.setServing after.world.clock true).countRequest := by
  obtain ⟨born, hbirth, heq⟩ := checkOut_birth h hidle
  exact ⟨born, birth_raised hbirth, heq⟩

/-- A pool with one more state that was built ahead of any request. -/
def sown (site : Site) (first : LuaState) (world : World) : Site :=
  ⟨{ { site.pool with length := site.pool.length + 1 }.emit (.created first.id) with
      idle := first :: site.pool.idle }, world⟩

theorem seed_succ (site : Site) (count : Nat) :
    (∃ first world, site.birth = (.ok first, world) ∧
      site.seed (count + 1) = (site.sown first world).seed count) ∨
    ∃ result world, site.birth = (result, world) ∧ (∀ state, result ≠ .ok state) ∧
      (site.seed (count + 1)).2 = { site with world } := by
  simp only [seed]
  rcases site.allocate_eq with ⟨first, world, hbirth, heq⟩ | ⟨result, world, hbirth, hresult, heq⟩
  · rw [heq]
    exact .inl ⟨first, world, hbirth, rfl⟩
  · rw [heq]
    refine .inr ⟨result, world, hbirth, hresult, ?_⟩
    cases result with
    | ok first => exact absurd rfl (hresult first)
    | error e | panic fault => rfl

/-- A pool with this hook and this configuration has built the state at some time. -/
def Bore (site : Site) (state : LuaState) : Prop :=
  ∃ (before : Site) (world : World), before.birth = (.ok state, world) ∧
    before.pool.hook = site.pool.hook ∧ before.pool.config = site.pool.config

theorem Bore.congr (bore : site.Bore state) (hhook : site.pool.hook = after.pool.hook)
    (hconfig : site.pool.config = after.pool.config) : after.Bore state := by
  obtain ⟨before, world, hbirth, hsame, hlike⟩ := bore
  exact ⟨before, world, hbirth, hsame.trans hhook, hlike.trans hconfig⟩

theorem Bore.fresh (bore : site.Bore state) :
    state.requested = 0 ∧ state.budget = site.pool.config.budget := by
  obtain ⟨before, world, hbirth, -, hconfig⟩ := bore
  have raised := birth_raised hbirth
  exact ⟨raised.requested_eq, by rw [raised.budget_eq, hconfig]⟩

/-- What seeding adds to the idle states was built for them. -/
theorem seed_bore (site : Site) (count : Nat) :
    ∀ state ∈ (site.seed count).2.pool.idle, state ∈ site.pool.idle ∨ site.Bore state := by
  induction count generalizing site with
  | zero => exact fun _ => .inl
  | succ count ih =>
      rcases site.seed_succ count with ⟨first, world, hbirth, heq⟩ | ⟨result, world, -, -, heq⟩
      · rw [heq]
        intro state hstate
        rcases ih (site.sown first world) state hstate with hidle | bore
        · rcases List.mem_cons.1 hidle with rfl | hidle
          · exact .inr ⟨site, world, hbirth, rfl, rfl⟩
          · exact .inl hidle
        · exact .inr (bore.congr rfl rfl)
      · rw [heq]
        exact fun _ => .inl

/-- What seeding adds to the idle states has just been born below the root. -/
theorem seed_raised (site : Site) (count : Nat) :
    site.world.book.tokens.Extends (site.seed count).2.world.book.tokens ∧
      ∀ state ∈ (site.seed count).2.pool.idle, state ∈ site.pool.idle ∨
        state.Raised site.pool.root site.pool.config.budget
          (site.seed count).2.world.book.tokens := by
  induction count generalizing site with
  | zero => exact ⟨.refl _, fun _ => .inl⟩
  | succ count ih =>
      have born := site.extends_birth
      rcases site.seed_succ count with ⟨first, world, hbirth, heq⟩ | ⟨result, world, hbirth, -, heq⟩
      · rw [hbirth] at born
        rw [heq]
        obtain ⟨hextends, hmem⟩ := ih (site.sown first world)
        refine ⟨born.trans hextends, ?_⟩
        intro state hstate
        rcases hmem state hstate with hidle | raised
        · rcases List.mem_cons.1 hidle with rfl | hidle
          · exact .inr ((birth_raised hbirth).mono hextends)
          · exact .inl hidle
        · exact .inr raised
      · rw [hbirth] at born
        rw [heq]
        exact ⟨born, fun _ => .inl⟩

end Site

end StatePool
