import StatePool.Proofs.Capacity
import StatePool.Proofs.Upkeep

/-!
The limits that states carry.

A state is born with the limits of its pool, and its own copy of them decides when it is retired.
Callers may replace the interpreter options of a pool, and a pool may start again; its limits stay
the same, so all of its states have the limits that it was made with.
-/

namespace StatePool

namespace LuaState

variable {state : LuaState} {config : Config}

structure Limited (state : LuaState) (config : Config) : Prop where
  budget_eq : state.budget = config.budget
  idleSeconds_eq : state.idleSeconds = config.idleSeconds

theorem limited_of_create {parent : Token} {options : StateOptions} {hook : Option InitHook}
    {world next : World}
    (h : create parent config.budget config.idleSeconds options hook world = (.ok state, next)) :
    state.Limited config := by
  unfold create at h
  split at h
  · cases h
  · cases h
  · split at h
    · cases h
    · cases h
      exact ⟨rfl, rfl⟩

theorem Limited.touch (limited : state.Limited config) (world : World) (touch : Touch) :
    (state.touch world touch).1.Limited config := by
  cases touch <;> exact ⟨limited.budget_eq, limited.idleSeconds_eq⟩

theorem limited_lasting (config : Config) : Lasting fun state => state.Limited config where
  setServing _ _ _ limited := ⟨limited.budget_eq, limited.idleSeconds_eq⟩
  countRequest _ limited := ⟨limited.budget_eq, limited.idleSeconds_eq⟩

/-- Without a budget, the idle timeout decides. -/
theorem mustTerminate_of_idle {clock : Clock} {now : Int} (hbudget : state.budget = 0)
    (hidle : 0 < state.idleSeconds) (hclock : clock.now = .ok now) :
    state.mustTerminate clock = .ok (signedSeconds state.idleSeconds < state.age now) := by
  simp only [mustTerminate, hbudget, hclock, Nat.lt_irrefl, ↓reduceIte, Nat.pos_iff_ne_zero.1 hidle]

end LuaState

/-- A pool that was made with a configuration, of which only the options may have changed. -/
def Pool.Obeys (pool : Pool) (config : Config) : Prop :=
  ∃ options, pool.config = config.withStateOptions options

theorem Pool.Obeys.of_eq {pool after : Pool} {config : Config} (obeys : pool.Obeys config)
    (h : after.config = pool.config) : after.Obeys config := by
  unfold Obeys
  rwa [h]

theorem Pool.obeys_kept (config : Config) : Pool.Kept fun pool => pool.Obeys config where
  checkOut site obeys := by
    have checked := site.checkOut_checkedOut
    generalize site.checkOut = result at checked
    cases checked <;> exact obeys
  part parting site state obeys := obeys.of_eq (parting.perform_disposed site state).config_eq
  configured site options obeys := by
    obtain ⟨before, h⟩ := obeys
    exact ⟨options, by simp only [Site.setStateOptions, h]; rfl⟩
  stepped run site obeys := obeys.of_eq (run.step_turned site).config_eq

theorem Site.Bore.limited {site : Site} {state : LuaState} {config : Config}
    (bore : site.Bore state) (obeys : site.pool.Obeys config) : state.Limited config := by
  obtain ⟨before, world, hbirth, -, hsame⟩ := bore
  obtain ⟨options, hconfig⟩ := obeys
  have limited : state.Limited before.pool.config := LuaState.limited_of_create hbirth
  rw [hsame, hconfig] at limited
  exact ⟨limited.budget_eq, limited.idleSeconds_eq⟩

namespace System

variable {sys : System} {config : Config} {spared : List StateId}

theorem Common.of_lodger {Q : LuaState → Prop} (common : sys.Common Q) {state : LuaState}
    (h : state ∈ sys.lodgers) : Q state :=
  (List.mem_append.1 h).elim (common.idle state) (common.held state)

/-- A pool whose states all have the limits that it was made with. -/
structure Uniform (sys : System) (config : Config) : Prop where
  obeys : sys.site.pool.Obeys config
  limited : sys.Common fun state => state.Limited config

theorem Uniform.act (uniform : sys.Uniform config) {action : Action}
    (honest : action.honest = true) : (sys.act action).2.Uniform config where
  obeys := pool_act (Pool.obeys_kept config) uniform.obeys action
  limited :=
    uniform.limited.act (LuaState.limited_lasting config)
      (fun _ bore => bore.limited uniform.obeys) honest fun _ touch _ _ limited =>
        limited.touch sys.site.world touch

theorem uniform_made (hook : Option InitHook) (root : Token) (world : World)
    (h : (make config hook root world).Meanwhile spared sys) : sys.Uniform config := by
  induction h with
  | refl => exact ⟨⟨config.stateOptions, rfl⟩, List.forall_mem_nil _, List.forall_mem_nil _⟩
  | act before honest _ ih =>
      have uniform := ih.act honest
      exact ⟨uniform.obeys, uniform.limited.idle, uniform.limited.held⟩
  | stir _ _ ih => exact ⟨ih.obeys, ih.limited.idle, ih.limited.held⟩

/-- Every state that waits or is held carries the limits of its pool. -/
theorem Lived.limited (lived : sys.Lived) {state : LuaState} (h : state ∈ sys.lodgers) :
    state.Limited sys.site.pool.config := by
  obtain ⟨config, hook, root, world, -, later⟩ := lived
  have uniform := uniform_made hook root world later
  obtain ⟨options, hconfig⟩ := uniform.obeys
  obtain ⟨hbudget, hidle⟩ := uniform.limited.of_lodger h
  rw [hconfig]
  exact ⟨hbudget, hidle⟩

end System

end StatePool
