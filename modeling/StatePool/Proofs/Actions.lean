import StatePool.Proofs.Phases

/-!
What one action of an honest caller can do to a pool in order.

`Sound` says that the books are kept, and that everybody who is in the middle of a lifecycle call is
where the lifecycle lock allows.  `Acted` lists what can happen to such a pool.
-/

namespace StatePool

namespace Report

def isBreach : Report → Bool
  | .panicked fault => fault.isBreach
  | _ => false

def isGrant : Report → Bool
  | .granted _ => true
  | _ => false

/-- Neither a checkout nor the end of the pool's good order. -/
structure Quiet (report : Report) : Prop where
  isBreach : report.isBreach = false
  isGrant : report.isGrant = false

theorem isBreach_ofOutcome {result : Outcome PoolError Unit} :
    (ofOutcome (fun () => Report.done) result).isBreach = result.isBreach := by
  cases result <;> rfl

theorem isGrant_ofOutcome {result : Outcome PoolError Unit} :
    (ofOutcome (fun () => Report.done) result).isGrant = false := by
  cases result <;> rfl

end Report

theorem LifecycleRun.isGrant_report (run : LifecycleRun) : run.report.isGrant = false := by
  unfold report
  split
  · exact Report.isGrant_ofOutcome
  · rfl

namespace System

structure Sound (sys : System) : Prop where
  books : Books sys.site sys.held sys.out sys.strangers
  fits : ∀ index run, sys.lock = some index → sys.calls[index]? = some run →
    run.Fits sys.site.pool
  /-- Without the lifecycle lock a call has not begun, or it is over. -/
  waits : ∀ index run, sys.lock ≠ some index → sys.calls[index]? = some run →
    run.phase = .entering ∨ run.result? ≠ none
  /-- A drain that sleeps is one of the holder of the lifecycle lock. -/
  parked : sys.site.pool.parked = true → ∃ index run, sys.lock = some index ∧
    sys.calls[index]? = some run ∧ run.behindDrain ≠ none
  opened : sys.isOpen = true → sys.site.pool.status ≠ .ready
  unopened : sys.isOpen = false → sys.held = [] ∧ sys.out = []

inductive Acted (sys : System) : Action → Report × System → Prop
  | stirred {action : Action} {report : Report} {world : World} (quiet : report.Quiet)
      (hstates : sys.site.world.states ≤ world.states) :
      Acted sys action (report, sys.withWorld world)
  | adopted {action : Action} {state : LuaState} {world : World}
      (newborn : state.Newborn sys.site.world)
      (hstates : world.states = sys.site.world.states + 1) :
      Acted sys action
        (.done, { sys.withWorld world with strangers := state :: sys.strangers })
  | alienated {action : Action} {world : World} {others : List LuaState}
      (hstates : world.states = sys.site.world.states)
      (hcount : ∀ id, (others.map (·.id)).count id ≤ (sys.strangers.map (·.id)).count id) :
      Acted sys action (.done, { sys.withWorld world with strangers := others })
  | touched {id : StateId} {touch : Touch} {state : LuaState} {rest : List LuaState}
      (honest : (Action.touch .pool id touch).honest = true)
      (hperm : sys.held.Perm (state :: rest)) (hid : state.id = id) :
      Acted sys (.touch .pool id touch)
        (.done,
          { sys.withWorld (state.touch sys.site.world touch).2 with
            held := (state.touch sys.site.world touch).1 :: rest })
  | checkedOut {action : Action} {result : Outcome PoolError LuaState} {site : Site}
      (hopen : sys.isOpen = true) (h : Site.CheckedOut sys.site (result, site)) :
      Acted sys action (sys.grant (result, site))
  | parted {id : StateId} {parting : Parting} {state : LuaState} {rest : List LuaState}
      {result : Outcome PoolError Unit} {site : Site} (hopen : sys.isOpen = true)
      (hperm : sys.held.Perm (state :: rest)) (h : Site.Parted sys.site state (result, site))
      (hid : state.id = id) :
      Acted sys (.part .pool id parting)
        ({ sys with held := rest }.takeBack state.id (result, site))
  | configured {options : StateOptions} (hopen : sys.isOpen = true) :
      Acted sys (.setStateOptions options)
        (.done, { sys with site := sys.site.setStateOptions options })
  | called {call : LifecycleCall} (hopen : sys.isOpen = true) :
      Acted sys (.call call) (.nothing, { sys with calls := sys.calls ++ [{ call }] })
  | locked {index : Nat} {run : LifecycleRun} (hlock : sys.lock = none)
      (hcall : sys.calls[index]? = some run) (hphase : run.phase = .entering) :
      Acted sys (.advance index) (.nothing, { sys with lock := some index })
  | unlocked {index : Nat} {run : LifecycleRun} (hlock : sys.lock = some index)
      (hcall : sys.calls[index]? = some run) (hresult : run.result? ≠ none) :
      Acted sys (.advance index) (.nothing, { sys with lock := none })
  | advanced {index : Nat} {run next : LifecycleRun} {site : Site} (hlock : sys.lock = some index)
      (hcall : sys.calls[index]? = some run) (hresult : run.result? = none)
      (h : run.Stepped sys.site (next, site)) :
      Acted sys (.advance index)
        (next.report, { sys with site, calls := sys.calls.set index next })

variable {sys : System}

theorem Acted.still {action : Action} {report : Report} (quiet : report.Quiet) :
    Acted sys action (report, sys) :=
  .stirred quiet (Nat.le_refl _)

/-- What is held is checked out, so the pool can take it in. -/
theorem Sound.parted (sound : sys.Sound) {state : LuaState} {rest : List LuaState}
    (hperm : sys.held.Perm (state :: rest)) (parting : Parting) :
    Site.Parted sys.site state (parting.perform sys.site state) := by
  have hmem := (sound.books.lent_apart hperm).1
  have hserving : 0 < sys.site.pool.serving := by
    rw [sound.books.serving_eq]
    exact List.length_pos_of_mem hmem
  have hlength : 0 < sys.site.pool.length := by
    rw [sound.books.length_eq]
    omega
  have lent := sound.books.held_lent state (hperm.mem_iff.2 List.mem_cons_self)
  exact parting.perform_parted lent hserving hlength

theorem build_acted (sys : System) (parent : Token) (budget idleSeconds : Nat)
    (options : StateOptions) (hook : Option InitHook) {action : Action} :
    Acted sys action (sys.build parent budget idleSeconds options hook) := by
  have created := LuaState.create_created parent budget idleSeconds options hook sys.site.world
  unfold build
  generalize LuaState.create _ _ _ _ _ _ = result at created
  cases created with
  | born newborn hstates => exact .adopted newborn hstates
  | failed hstates => exact .stirred ⟨rfl, rfl⟩ (Nat.le_of_eq hstates.symm)
  | panicked hfault hstates => exact .stirred ⟨hfault, rfl⟩ (Nat.le_of_eq hstates.symm)

theorem touch_acted (sys : System) (origin : Origin) (id : StateId) (touch : Touch)
    (honest : (Action.touch origin id touch).honest = true) :
    Acted sys (.touch origin id touch) (sys.touch origin id touch) := by
  unfold System.touch
  cases hpick : pick id (sys.states origin) with
  | none => exact .still ⟨rfl, rfl⟩
  | some found =>
      obtain ⟨state, rest⟩ := found
      obtain ⟨hid, hperm⟩ := perm_of_pick hpick
      cases origin with
      | pool => exact .touched honest hperm hid
      | caller =>
          have hcount (other : StateId) :
              (((state.touch sys.site.world touch).1 :: rest).map (·.id)).count other ≤
                (sys.strangers.map (·.id)).count other := by
            rw [List.map_cons, LuaState.id_touch, ← List.map_cons]
            exact Nat.le_of_eq ((hperm.map LuaState.id).count_eq other).symm
          exact .alienated (state.states_touch sys.site.world touch) hcount

theorem part_acted (sound : sys.Sound) (origin : Origin) (id : StateId) (parting : Parting)
    (honest : (Action.part origin id parting).honest = true) (hopen : sys.isOpen = true) :
    Acted sys (.part origin id parting) (sys.part origin id parting) := by
  unfold part
  cases hpick : pick id (sys.states origin) with
  | none => exact .still ⟨rfl, rfl⟩
  | some found =>
      obtain ⟨state, rest⟩ := found
      obtain ⟨rfl, hperm⟩ := perm_of_pick hpick
      cases origin with
      | pool => exact .parted hopen hperm (sound.parted hperm parting) rfl
      | caller =>
          simp only [Action.honest, decide_eq_true_eq] at honest
          subst honest
          have hcount := (hperm.map (·.id)).count_eq
          have hidle : state.id ∉ sys.site.pool.idle.map (·.id) := by
            have honce := sound.books.once state.id
            have hstate := hcount state.id
            simp only [List.map_cons, List.count_cons_self] at hstate
            change List.count state.id (sys.strangers.map (·.id)) = _ at hstate
            rw [← List.count_eq_zero]
            omega
          have htook := Pool.tookIn_self hidle
          simp only [takeBack, withStates, Parting.perform, Site.forget, htook, Bool.false_eq_true,
            ↓reduceIte]
          refine .alienated rfl fun id => ?_
          have hid := hcount id
          simp only [List.map_cons, List.count_cons] at hid
          exact hid ▸ Nat.le_add_right _ _

/-- A call that holds the lifecycle lock goes through its next section. -/
theorem Sound.advance_stepped (sound : sys.Sound) {index : Nat} {run : LifecycleRun}
    (hlock : sys.lock = some index) (hcall : sys.calls[index]? = some run)
    (hresult : run.result? = none) :
    ∃ next site, run.Stepped sys.site (next, site) ∧
      sys.advance index = (next.report, { sys with site, calls := sys.calls.set index next }) := by
  have fits := sound.fits index run hlock hcall
  have stepped := LifecycleRun.step_stepped sound.books fits hresult
  refine ⟨(run.step sys.site).1, (run.step sys.site).2, stepped, ?_⟩
  simp only [advance, hcall, if_pos hlock, hresult]

theorem advance_acted (sound : sys.Sound) (index : Nat) :
    Acted sys (.advance index) (sys.advance index) := by
  cases hcall : sys.calls[index]? with
  | none =>
      simp only [advance, hcall]
      exact .still ⟨rfl, rfl⟩
  | some run =>
      by_cases hlock : sys.lock = some index
      · cases hresult : run.result? with
        | some result =>
            simp only [advance, hcall, if_pos hlock, hresult]
            exact .unlocked hlock hcall (by simp [hresult])
        | none =>
            obtain ⟨next, site, stepped, heq⟩ := sound.advance_stepped hlock hcall hresult
            rw [heq]
            exact .advanced hlock hcall hresult stepped
      · simp only [advance, hcall, if_neg hlock]
        split
        · next h => exact .locked h.1 hcall h.2
        · exact .still ⟨rfl, rfl⟩

theorem ifOpen_acted {action : Action} {next : Report × System}
    (h : sys.isOpen = true → Acted sys action next) : Acted sys action (sys.ifOpen next) := by
  unfold ifOpen
  split
  · next hopen => exact h hopen
  · exact .still ⟨rfl, rfl⟩

theorem act_acted (sound : sys.Sound) {action : Action} (honest : action.honest = true) :
    Acted sys action (sys.act action) := by
  cases action with
  | tick | context | entrust | cancel => exact .stirred ⟨rfl, rfl⟩ (Nat.le_refl _)
  | build parent budget idleSeconds options hook =>
      exact build_acted sys parent budget idleSeconds options hook
  | touch origin id touch => exact touch_acted sys origin id touch honest
  | get request =>
      refine ifOpen_acted fun hopen => ?_
      unfold Site.get
      split
      · exact .still ⟨rfl, rfl⟩
      · exact .checkedOut hopen (Site.checkOut_checkedOut sys.site)
  | checkOut =>
      exact ifOpen_acted fun hopen => .checkedOut hopen (Site.checkOut_checkedOut sys.site)
  | part origin id parting =>
      exact ifOpen_acted fun hopen => part_acted sound origin id parting honest hopen
  | setStateOptions options => exact ifOpen_acted fun hopen => .configured hopen
  | look => exact ifOpen_acted fun _ => .still ⟨rfl, rfl⟩
  | call call => exact ifOpen_acted fun hopen => .called hopen
  | advance index => exact advance_acted sound index

end System

end StatePool
