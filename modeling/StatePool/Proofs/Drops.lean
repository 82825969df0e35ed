import StatePool.Proofs.Returns
import StatePool.Proofs.Undisturbed

/-!
The end of a guard.

A guard that is dropped gives its state back, and one that is dropped while a fault unwinds closes
it; another fault of the drop would then be the end of the program.  What a drop comes to is decided
by what the holder did to the state, by the counters of the pool and by the clock.
-/

namespace StatePool

namespace Site

variable {site : Site} {state : LuaState} {reason : CleanupReason} {fault : Fault}

/-- Why a state cannot be retired. -/
inductive Shortfall (site : Site) (state : LuaState) : Fault → Prop
  | noCheckout (hmark : state.serving = true) (hserving : site.pool.serving = 0) :
      Shortfall site state .noCheckout
  | emptyPool (hroom : state.serving = true → 0 < site.pool.serving)
      (hlength : site.pool.length = 0) : Shortfall site state .emptyPool

theorem release_cases (pool : Pool) (state : LuaState) :
    (state.serving = true ∧ pool.serving = 0 ∧
      (if state.serving then pool.releaseSlot else .ok pool) = .panic .noCheckout) ∨
    (state.serving = true → 0 < pool.serving) ∧ ∃ next : Pool, next.length = pool.length ∧
      (if state.serving then pool.releaseSlot else .ok pool) = .ok next := by
  cases hmark : state.serving with
  | false => exact .inr ⟨nofun, pool, rfl, rfl⟩
  | true =>
      by_cases hserving : pool.serving = 0
      · exact .inl ⟨rfl, hserving, by simp [Pool.releaseSlot, hserving]⟩
      · have hpos := Nat.pos_of_ne_zero hserving
        exact .inr ⟨fun _ => hpos, pool.releasedIf true, rfl, Pool.releaseSlot_of_pos hpos⟩

theorem retire_eq_panic_iff :
    (site.retire state reason).1 = .panic fault ↔ site.Shortfall state fault := by
  unfold retire
  rcases release_cases site.pool state with ⟨hmark, hserving, hreleased⟩ |
    ⟨hroom, pool, hlength, hreleased⟩
  · simp only [hreleased]
    constructor
    · intro h
      cases h
      exact .noCheckout hmark hserving
    · rintro (_ | ⟨hroom, -⟩)
      · rfl
      · have := hroom hmark
        omega
  · simp only [hreleased]
    by_cases hempty : site.pool.length = 0
    · rw [if_pos (hlength.trans hempty)]
      constructor
      · intro h
        cases h
        exact .emptyPool hroom hempty
      · rintro (⟨hmark, hserving⟩ | _)
        · have := hroom hmark
          omega
        · rfl
    · rw [if_neg (hlength ▸ hempty)]
      constructor
      · nofun
      · rintro (⟨hmark, hserving⟩ | ⟨-, hlength⟩)
        · have := hroom hmark
          omega
        · exact absurd hlength hempty

theorem recycle_eq_panic_iff :
    (site.recycle state).1 = .panic fault ↔
      fault = .noCheckout ∧ state.serving = true ∧ site.pool.serving = 0 := by
  unfold recycle
  rcases release_cases site.pool state with ⟨hmark, hserving, hreleased⟩ | ⟨hroom, pool, -, hreleased⟩
  · simp only [hreleased, Outcome.panic.injEq]
    exact ⟨fun h => ⟨h.symm, hmark, hserving⟩, fun h => h.1.symm⟩
  · simp only [hreleased]
    constructor
    · nofun
    · rintro ⟨-, hmark, hserving⟩
      have := hroom hmark
      omega

/-- Why the end of a guard panics, and with which fault. -/
inductive Breaks (site : Site) (state : LuaState) : Parting → Fault → Prop
  | timeless {fault : ClockFault} (hclosed : state.closed = false)
      (haccepts : site.pool.status.accepts = true) (h : state.Timeless site.world.clock fault) :
      Breaks site state .dropGuard (.clock fault)
  | retired {reason : CleanupReason} {fault : Fault} (hclosed : state.closed = false)
      (hruling : site.ruling state = .ok (some reason)) (h : site.Shortfall state fault) :
      Breaks site state .dropGuard fault
  | recycled (hclosed : state.closed = false) (hruling : site.ruling state = .ok none)
      (hmark : state.serving = true) (hserving : site.pool.serving = 0) :
      Breaks site state .dropGuard .noCheckout
  | unmarked (hmark : state.serving = false) :
      Breaks site state .unwindGuard (.notCheckedOut state.id)
  | unwound {fault : Fault} (hmark : state.serving = true) (h : site.Shortfall state fault) :
      Breaks site state .unwindGuard fault

theorem conclude_eq_panic_iff {result : Outcome Empty Unit} {otherwise : Outcome PoolError Unit}
    (h : ∀ fault, otherwise ≠ .panic fault) :
    conclude result otherwise = .panic fault ↔ result = .panic fault := by
  cases result with
  | ok => exact ⟨fun heq => absurd heq (h fault), nofun⟩
  | error e => exact e.elim
  | panic other => simp only [conclude, Outcome.panic.injEq]

theorem conclude_ok_eq_panic_iff {result : Outcome Empty Unit} :
    conclude result (.ok ()) = .panic fault ↔ result = .panic fault :=
  conclude_eq_panic_iff fun _ => nofun

theorem dropGuard_eq_panic_iff :
    (site.dropGuard state).1 = .panic fault ↔ (site.put state).1 = .panic fault := by
  unfold dropGuard
  rcases site.put state with ⟨_ | e | other, after⟩ <;> simp

theorem dropGuard_breaks :
    (site.dropGuard state).1 = .panic fault ↔ site.Breaks state .dropGuard fault := by
  rw [dropGuard_eq_panic_iff]
  cases hclosed : state.closed with
  | true =>
      -- The pool does not even look at a state that was closed.
      simp only [put, hclosed, ↓reduceIte]
      constructor
      · intro h
        cases h
      · rintro (⟨hopen, -, -⟩ | ⟨hopen, -, -⟩ | ⟨hopen, -, -, -⟩) <;> cases hclosed.symm.trans hopen
  | false =>
      rw [put_of_open hclosed]
      have hrefused (other : Fault) :
          (if site.pool.status.accepts then .ok () else .error site.pool.refusal :
            Outcome PoolError Unit) ≠ .panic other := by
        split <;> (intro h; cases h)
      constructor
      · cases hruling : site.ruling state with
        | error clock =>
            obtain ⟨haccepts, timeless⟩ := ruling_eq_error hruling
            intro h
            cases h
            exact .timeless hclosed haccepts timeless
        | ok fate =>
            cases fate with
            | none =>
                simp only [conclude_ok_eq_panic_iff, recycle_eq_panic_iff]
                rintro ⟨rfl, hmark, hserving⟩
                exact .recycled hclosed hruling hmark hserving
            | some reason =>
                simp only [conclude_eq_panic_iff hrefused, retire_eq_panic_iff]
                exact .retired hclosed hruling
      · rintro (⟨-, haccepts, timeless⟩ | ⟨-, hruling, short⟩ | ⟨-, hruling, hmark, hserving⟩)
        · rw [ruling_of_ageless haccepts timeless.1 timeless.2.1 timeless.2.2]
        · simp only [hruling, conclude_eq_panic_iff hrefused]
          exact retire_eq_panic_iff.2 short
        · simp only [hruling, conclude_ok_eq_panic_iff]
          exact recycle_eq_panic_iff.2 ⟨rfl, hmark, hserving⟩

theorem dropGuardUnwinding_breaks :
    (site.dropGuardUnwinding state).1 = .panic fault ↔ site.Breaks state .unwindGuard fault := by
  unfold dropGuardUnwinding close
  cases hmark : state.serving with
  | false =>
      simp only [Bool.not_false, ↓reduceIte, Outcome.panic.injEq]
      constructor
      · rintro rfl
        exact .unmarked hmark
      · rintro (_ | _ | _ | _ | ⟨hserving, -⟩)
        · rfl
        · cases hmark.symm.trans hserving
  | true =>
      simp only [Bool.not_true, Bool.false_eq_true, ↓reduceIte, retire_eq_panic_iff]
      constructor
      · exact .unwound hmark
      · rintro (_ | _ | _ | hserving | ⟨-, short⟩)
        · cases hmark.symm.trans hserving
        · exact short

end Site

namespace Parting

variable {site : Site} {state : LuaState} {parting : Parting}

/-- A guard ends in one of two ways. -/
def dropsGuard : Parting → Bool
  | .dropGuard | .unwindGuard => true
  | _ => false

theorem perform_breaks (hguard : parting.dropsGuard = true) {fault : Fault} :
    (parting.perform site state).1 = .panic fault ↔ site.Breaks state parting fault := by
  cases parting with
  | dropGuard =>
      simp only [perform, Site.conclude_ok_eq_panic_iff]
      exact Site.dropGuard_breaks
  | unwindGuard =>
      simp only [perform, Site.conclude_ok_eq_panic_iff]
      exact Site.dropGuardUnwinding_breaks
  | put | close | fail | drop => cases hguard

/-- A refusal of the pool is nobody's concern. -/
theorem perform_cases (hguard : parting.dropsGuard = true) :
    (parting.perform site state).1 = .ok () ∨
      ∃ fault, (parting.perform site state).1 = .panic fault := by
  have hconclude (result : Outcome Empty Unit) :
      Site.conclude result (.ok ()) = .ok () ∨
        ∃ fault, Site.conclude result (.ok ()) = .panic fault := by
    cases result with
    | ok => exact .inl rfl
    | error e => exact e.elim
    | panic fault => exact .inr ⟨fault, rfl⟩
  cases parting with
  | dropGuard | unwindGuard => exact hconclude _
  | put | close | fail | drop => cases hguard

end Parting

/-! ### What a holder did -/

namespace LuaState

theorem treated_append (state : LuaState) (first second : List (World × Touch)) :
    state.treated (first ++ second) = (state.treated first).treated second :=
  List.foldl_append

theorem id_treated (state : LuaState) (touches : List (World × Touch)) :
    (state.treated touches).id = state.id := by
  induction touches generalizing state with
  | nil => rfl
  | cons touch touches ih => exact (ih _).trans (state.id_touch touch.1 touch.2)

end LuaState

/-- What an action does to a state of the pool. -/
def Action.touch? (id : StateId) : Action → Option Touch
  | .touch .pool other how => if other = id then some how else none
  | _ => none

/-- Whether the holder of a state keeps it. -/
def Action.keeps (id : StateId) : Action → Bool
  | .part .pool other _ => other ≠ id
  | _ => true

namespace System

variable {sys : System} {id : StateId}

/-- All states there are: those of the pool, and those that callers built. -/
def everyone (sys : System) : List StateId :=
  sys.ids ++ sys.strangers.map (·.id)

theorem Grows.append {bound next : Nat} {ids later : List StateId} (grows : Grows bound next ids later)
    (others : List StateId) : Grows bound next (ids ++ others) (later ++ others) := by
  obtain ⟨fresh, hfresh, hcount⟩ := grows
  refine ⟨fresh, hfresh, fun id => ⟨(hcount id).1, ?_⟩⟩
  have hle := (hcount id).2
  rw [List.count_append, List.count_append]
  omega

theorem grant_strangers (answer : Outcome PoolError LuaState × Site) :
    (sys.grant answer).2.strangers = sys.strangers := by
  obtain ⟨result, site⟩ := answer
  cases result <;> rfl

theorem ifOpen_strangers {next : Report × System} (h : next.2.strangers = sys.strangers) :
    (sys.ifOpen next).2.strangers = sys.strangers := by
  unfold ifOpen
  split
  · exact h
  · rfl

/-- Between two moments all states went on to be, and none was doubled. -/
structure Grown (sys after : System) : Prop where
  grows : Grows sys.site.world.states after.site.world.states sys.everyone after.everyone
  states_le : sys.site.world.states ≤ after.site.world.states

theorem Grown.of_count_le {after : System}
    (hstates : after.site.world.states = sys.site.world.states)
    (hcount : ∀ id, after.everyone.count id ≤ sys.everyone.count id) : sys.Grown after :=
  ⟨.of_count_le hcount, Nat.le_of_eq hstates.symm⟩

/-- An action that leaves those states alone that callers built. -/
theorem Grown.of_faithful {action : Action} (faithful : action.faithful = true)
    (h : (sys.act action).2.strangers = sys.strangers) : sys.Grown (sys.act action).2 where
  grows := by
    rw [everyone, everyone, h]
    exact (act_dealt faithful).grows.append _
  states_le := (act_dealt faithful).states_le

theorem build_grown (sys : System) (parent : Token) (budget idleSeconds : Nat)
    (options : StateOptions) (hook : Option InitHook) :
    sys.Grown (sys.build parent budget idleSeconds options hook).2 := by
  have created := LuaState.create_created parent budget idleSeconds options hook sys.site.world
  unfold build
  generalize LuaState.create _ _ _ _ _ _ = result at created
  cases created with
  | @born state next newborn hstates =>
      have hid := newborn.id_eq
      refine ⟨⟨[state.id], ?_, fun id => ?_⟩, ?_⟩
      · intro id hmem
        rw [List.mem_singleton.1 hmem, hid]
        simp only [withWorld, hstates]
        omega
      · simp only [everyone, withWorld, ids, List.map_cons, List.count_append, List.count_cons,
          List.count_nil]
        split <;> omega
      · simp only [withWorld, hstates]
        omega
  | failed hstates => exact .of_count_le hstates fun _ => Nat.le_refl _
  | panicked _ hstates => exact .of_count_le hstates fun _ => Nat.le_refl _

theorem touch_stranger_grown (sys : System) (id : StateId) (touch : Touch) :
    sys.Grown (sys.touch .caller id touch).2 := by
  unfold System.touch
  split
  · exact .of_count_le rfl fun _ => Nat.le_refl _
  · next state rest hpick =>
      refine .of_count_le (state.states_touch _ touch) fun id => ?_
      have hcount := ((perm_of_pick hpick).2.map (·.id)).count_eq id
      simp only [everyone, withWorld, withStates, ids, states, List.map_cons, LuaState.id_touch,
        List.count_append] at hcount ⊢
      omega

/-- A state that no pool built may wait in this one afterwards. -/
theorem part_stranger_grown (sys : System) (id : StateId) (parting : Parting) :
    sys.Grown (sys.part .caller id parting).2 := by
  unfold System.part
  split
  · exact .of_count_le rfl fun _ => Nat.le_refl _
  · next state rest hpick =>
      have disposed := parting.perform_disposed sys.site state
      refine .of_count_le disposed.states_eq fun id => ?_
      have hcount := ((perm_of_pick hpick).2.map (·.id)).count_eq id
      simp only [states, List.map_cons, List.count_cons] at hcount
      rcases disposed.idle_cases with hidle | ⟨hidle, -⟩
      · simp only [everyone, ids, takeBack, withStates, hidle, List.count_append]
        omega
      · simp only [everyone, ids, takeBack, withStates, hidle, List.map_cons, List.count_append,
          List.count_cons, LuaState.setServing]
        omega

theorem act_grown (sys : System) (action : Action) : sys.Grown (sys.act action).2 := by
  cases action with
  | build parent budget idleSeconds options hook => exact sys.build_grown _ _ _ _ _
  | touch origin id touch =>
      cases origin with
      | pool =>
          refine .of_faithful rfl ?_
          simp only [act, System.touch]
          split <;> rfl
      | caller => exact sys.touch_stranger_grown id touch
  | part origin id parting =>
      cases origin with
      | pool =>
          refine .of_faithful rfl (ifOpen_strangers ?_)
          simp only [System.part]
          split <;> rfl
      | caller =>
          simp only [act, ifOpen]
          split
          · exact sys.part_stranger_grown id parting
          · exact .of_count_le rfl fun _ => Nat.le_refl _
  | get request => exact .of_faithful rfl (ifOpen_strangers (grant_strangers _))
  | checkOut => exact .of_faithful rfl (ifOpen_strangers (grant_strangers _))
  | tick | context | entrust | cancel => exact .of_faithful rfl rfl
  | setStateOptions | look | call => exact .of_faithful rfl (ifOpen_strangers rfl)
  | advance index =>
      refine .of_faithful rfl ?_
      simp only [act, advance]
      split
      · rfl
      · split
        · split <;> rfl
        · split <;> rfl

/-- Whatever callers do, no state is in two places. -/
theorem Possible.once (h : sys.Possible) : Once sys.site.world.states sys.everyone := by
  induction h with
  | made => exact ⟨fun _ => Nat.zero_le _, List.forall_mem_nil _⟩
  | @step sys _ action ih =>
      have grown := sys.act_grown action
      exact ih.grows grown.grows grown.states_le

theorem Possible.pick_held (h : sys.Possible) {state : LuaState} (hheld : state ∈ sys.held) :
    ∃ rest, pick state.id sys.held = some (state, rest) := by
  refine pick_of_mem hheld ?_
  have honce := h.once.once state.id
  simp only [everyone, ids, List.count_append] at honce
  omega

theorem mem_held_ifOpen {state : LuaState} (hheld : state ∈ sys.held) {next : Report × System}
    (hnext : state ∈ next.2.held) : state ∈ (sys.ifOpen next).2.held := by
  unfold ifOpen
  split
  · exact hnext
  · exact hheld

theorem mem_held_grant {state : LuaState} (hheld : state ∈ sys.held)
    (answer : Outcome PoolError LuaState × Site) : state ∈ (sys.grant answer).2.held := by
  obtain ⟨result, site⟩ := answer
  cases result with
  | ok other => exact List.mem_cons_of_mem _ hheld
  | error e | panic fault => exact hheld

/-- Picking one state leaves the others. -/
theorem mem_rest_of_pick {states rest : List LuaState} {state found : LuaState}
    (hmem : state ∈ states) (hpick : pick id states = some (found, rest)) (hne : id ≠ state.id) :
    state ∈ rest := by
  obtain ⟨hfound, hperm⟩ := perm_of_pick hpick
  rcases List.mem_cons.1 (hperm.mem_iff.1 hmem) with rfl | hrest
  · exact absurd hfound.symm hne
  · exact hrest

/-- A state is among those that callers hold, treated in that way. -/
def Keeps (sys : System) (state : LuaState) (how : List Touch) : Prop :=
  ∃ touches : List (World × Touch), touches.map (·.2) = how ∧ state.treated touches ∈ sys.held

theorem keeps_untouched {state : LuaState} (hheld : state ∈ sys.held) : sys.Keeps state [] :=
  ⟨[], rfl, hheld⟩

theorem keeps_touch (h : sys.Possible) {state : LuaState} (hheld : state ∈ sys.held) (id : StateId)
    (touch : Touch) :
    (sys.touch .pool id touch).2.Keeps state
      ((Action.touch .pool id touch).touch? state.id).toList := by
  by_cases hid : id = state.id
  · obtain ⟨rest, hpick⟩ := h.pick_held hheld
    refine ⟨[(sys.site.world, touch)], by simp [Action.touch?, hid], ?_⟩
    simp only [System.touch, states, hid, hpick]
    exact List.mem_cons_self
  · rw [Action.touch?, if_neg hid]
    refine keeps_untouched ?_
    simp only [System.touch, states]
    split
    · exact hheld
    · next hpick => exact List.mem_cons_of_mem _ (mem_rest_of_pick hheld hpick hid)

theorem mem_held_part {state : LuaState} (hheld : state ∈ sys.held) (hne : id ≠ state.id)
    (parting : Parting) : state ∈ (sys.part .pool id parting).2.held := by
  simp only [System.part, states]
  split
  · exact hheld
  · next hpick => exact mem_rest_of_pick hheld hpick hne

/-- A state is still there behind an action that is not its parting, treated as the action says. -/
theorem keeps_act (h : sys.Possible) {state : LuaState} (hheld : state ∈ sys.held) {action : Action}
    (hkeeps : action.keeps state.id = true) :
    (sys.act action).2.Keeps state (action.touch? state.id).toList := by
  cases action with
  | touch origin id touch =>
      cases origin with
      | pool => exact keeps_touch h hheld id touch
      | caller =>
          refine keeps_untouched ?_
          simp only [act, System.touch]
          split <;> exact hheld
  | part origin id parting =>
      cases origin with
      | pool =>
          have hne : id ≠ state.id := of_decide_eq_true hkeeps
          exact keeps_untouched (mem_held_ifOpen hheld (mem_held_part hheld hne parting))
      | caller =>
          refine keeps_untouched (mem_held_ifOpen hheld ?_)
          simp only [System.part]
          split <;> exact hheld
  | get request => exact keeps_untouched (mem_held_ifOpen hheld (mem_held_grant hheld _))
  | checkOut => exact keeps_untouched (mem_held_ifOpen hheld (mem_held_grant hheld _))
  | tick | context | entrust | cancel => exact keeps_untouched hheld
  | setStateOptions | look | call => exact keeps_untouched (mem_held_ifOpen hheld hheld)
  | build =>
      refine keeps_untouched ?_
      simp only [act, System.build]
      split <;> exact hheld
  | advance index =>
      refine keeps_untouched ?_
      simp only [act, advance]
      split
      · exact hheld
      · split
        · split <;> exact hheld
        · split <;> exact hheld

/-- A state that its holder keeps is there with all that was done to it. -/
theorem keeps_run (h : sys.Possible) {state : LuaState} (hheld : state ∈ sys.held)
    {actions : List Action} (hkeeps : ∀ action ∈ actions, action.keeps state.id = true) :
    (sys.run actions).Keeps state (actions.filterMap (Action.touch? state.id)) := by
  induction actions generalizing sys state with
  | nil => exact keeps_untouched hheld
  | cons action actions ih =>
      rw [List.forall_mem_cons] at hkeeps
      obtain ⟨first, hfirst, hmem⟩ := keeps_act h hheld hkeeps.1
      have hid := state.id_treated first
      obtain ⟨rest, hrest, hlater⟩ := ih (h.step action) hmem (by rw [hid]; exact hkeeps.2)
      refine ⟨first ++ rest, ?_, ?_⟩
      · rw [List.map_append, hfirst, hrest, hid]
        cases htouch : action.touch? state.id <;> simp [htouch]
      · rw [LuaState.treated_append]
        exact hlater

/-! ### The end of a guard -/

/-- What the end of a guard comes to whose holder did this and that to its state. -/
structure Guarded (sys : System) (id : StateId) (touches : List Touch) (state : LuaState) :
    Prop where
  closed_eq : state.closed = touches.any Touch.closes
  /-- The last touch that concerns the serving mark decides about it. -/
  serving_eq : state.serving = touches.foldl Touch.mark true
  panics : ∀ parting : Parting, parting.dropsGuard = true → ∀ fault,
    (sys.step (.part .pool id parting)).1 = .panicked fault ↔ sys.site.Breaks state parting fault
  calm : ∀ parting : Parting, parting.dropsGuard = true →
    (∀ fault, ¬ sys.site.Breaks state parting fault) →
    (sys.step (.part .pool id parting)).1 = .done
  /-- While the pool counts what is checked out of it, a drop in normal flow panics if the age of an
  open state decides and cannot be told, and for no other reason. -/
  dropped : 0 < sys.site.pool.serving → 0 < sys.site.pool.length → ∀ fault,
    (sys.step (.part .pool id .dropGuard)).1 = .panicked fault ↔
      ∃ clock, fault = .clock clock ∧ touches.any Touch.closes = false ∧
        sys.site.pool.status.accepts = true ∧ state.Timeless sys.site.world.clock clock
  /-- A drop while a fault unwinds panics if the serving mark is off, and for no other reason. -/
  unwound : 0 < sys.site.pool.serving → 0 < sys.site.pool.length → ∀ fault,
    (sys.step (.part .pool id .unwindGuard)).1 = .panicked fault ↔
      fault = .notCheckedOut id ∧ touches.foldl Touch.mark true = false

theorem ofOutcome_eq_panicked_iff {result : Outcome PoolError Unit} {fault : Fault} :
    Report.ofOutcome (fun () => .done) result = .panicked fault ↔ result = .panic fault := by
  cases result <;> simp [Report.ofOutcome]

theorem guarded_of_held (hopen : sys.isOpen = true) {state : LuaState}
    {rest : List LuaState} (hpick : pick id sys.held = some (state, rest)) {touches : List Touch}
    (hclosed : state.closed = touches.any Touch.closes)
    (hmark : state.serving = touches.foldl Touch.mark true) : sys.Guarded id touches state := by
  have hid := (perm_of_pick hpick).1
  have hpanics (parting : Parting) (hguard : parting.dropsGuard = true) (fault : Fault) :
      (sys.step (.part .pool id parting)).1 = .panicked fault ↔
        sys.site.Breaks state parting fault := by
    rw [report_part hopen hpick, ofOutcome_eq_panicked_iff, Parting.perform_breaks hguard]
  have hnone (hserving : 0 < sys.site.pool.serving) (hlength : 0 < sys.site.pool.length)
      (fault : Fault) : ¬ sys.site.Shortfall state fault := by
    rintro (⟨-, hnone⟩ | ⟨-, hempty⟩) <;> omega
  constructor
  · exact hclosed
  · exact hmark
  · exact hpanics
  · intro parting hguard hsafe
    rw [report_part hopen hpick]
    rcases parting.perform_cases hguard with hdone | ⟨fault, hpanic⟩
    · rw [hdone]
      rfl
    · exact absurd ((Parting.perform_breaks hguard).1 hpanic) (hsafe fault)
  · intro hserving hlength fault
    rw [hpanics .dropGuard rfl, ← hclosed]
    constructor
    · rintro (⟨hopen, haccepts, timeless⟩ | ⟨-, -, short⟩ | ⟨-, -, -, hzero⟩)
      · exact ⟨_, rfl, hopen, haccepts, timeless⟩
      · exact absurd short (hnone hserving hlength fault)
      · omega
    · rintro ⟨clock, rfl, hopen, haccepts, timeless⟩
      exact .timeless hopen haccepts timeless
  · intro hserving hlength fault
    rw [hpanics .unwindGuard rfl, ← hmark, ← hid]
    constructor
    · rintro (_ | _ | _ | hoff | ⟨-, short⟩)
      · exact ⟨rfl, hoff⟩
      · exact absurd short (hnone hserving hlength fault)
    · rintro ⟨rfl, hoff⟩
      exact .unmarked hoff

/-- A guard that its holder keeps ends with a panic for known reasons only.  Callers that give the
pool nothing but its own states leave it two of them: the clock, and a serving mark that is off. -/
theorem granted_guarded (config : Config) (hook : Option InitHook) (root : Token) (world : World)
    (before : List Action) {action : Action} {state : LuaState}
    (hgrant : (((make config hook root world).run before).step action).1 = .granted state)
    {between : List Action} (hkeeps : ∀ other ∈ between, other.keeps state.id = true) :
    let sys := (make config hook root world).run (before ++ action :: between)
    ∃ last rest, pick state.id sys.held = some (last, rest) ∧
      sys.Guarded state.id (between.filterMap (Action.touch? state.id)) last ∧
      (config.Built → (∀ other ∈ before ++ action :: between, other.faithful = true) →
        0 < sys.site.pool.serving ∧ 0 < sys.site.pool.length) := by
  intro sys
  have possible := (Possible.made config hook root world).run before
  obtain ⟨hopen, site, -, hnext⟩ := checkOut_of_granted hgrant
  obtain ⟨alive, hserving⟩ := possible.living.granted hgrant
  have hheld : state ∈ (((make config hook root world).run before).step action).2.held := by
    rw [hnext]
    exact List.mem_cons_self
  have hrun : sys = (((make config hook root world).run before).step action).2.run between := by
    simp only [sys, System.run, List.foldl_append, List.foldl_cons]
  obtain ⟨touches, htouches, hmem⟩ := keeps_run (possible.step action) hheld hkeeps
  obtain ⟨hclosed, hmark⟩ := state.flags_treated touches
  rw [← hrun] at hmem
  have later : sys.Possible := (Possible.made config hook root world).run _
  obtain ⟨rest, hpick⟩ := later.pick_held hmem
  rw [state.id_treated] at hpick
  have hmade : (((make config hook root world).run before).step action).2.isOpen = true :=
    isOpen_act hopen action
  have hstill : sys.isOpen = true := by
    rw [hrun]
    exact isOpen_run hmade between
  refine ⟨state.treated touches, rest, hpick, ?_, fun built faithful => ?_⟩
  · refine guarded_of_held hstill hpick ?_ ?_
    · rw [hclosed, alive.closed_eq, ← htouches, List.any_map, Bool.false_or]
      rfl
    · rw [hmark, hserving, ← htouches, List.foldl_map]
  · exact (((slotted_make built hook root world).run faithful).room hpick).2

/-- The holder of a state closes it and then counts a request. -/
def slipping : List Action :=
  [.touch .pool ⟨0⟩ .close, .touch .pool ⟨0⟩ .count]

theorem slipping_guarded :
    ∃ state, (((make .default none ⟨0⟩ clean).run
        [.advance 0, .advance 0, .advance 0]).step (.get ⟨0⟩)).1 = .granted state ∧
      (∀ action ∈ slipping, action.keeps state.id = true) ∧
      let sys := (make .default none ⟨0⟩ clean).run
        ([.advance 0, .advance 0, .advance 0] ++ .get ⟨0⟩ :: slipping)
      (∃ last rest, pick state.id sys.held = some (last, rest) ∧
        sys.Guarded state.id [.close, .count] last) ∧
      (sys.step (.part .pool state.id .unwindGuard)).1 = .panicked (.notCheckedOut state.id) ∧
      ∀ fault, (sys.step (.part .pool state.id .dropGuard)).1 ≠ .panicked fault := by
  obtain ⟨state, hgrant, hid⟩ : ∃ state, (((make .default none ⟨0⟩ clean).run
      [.advance 0, .advance 0, .advance 0]).step (.get ⟨0⟩)).1 = .granted state ∧
        state.id = ⟨0⟩ := ⟨_, rfl, rfl⟩
  have hkeeps : ∀ action ∈ slipping, action.keeps state.id = true := by
    rw [hid]
    decide
  obtain ⟨last, rest, hpick, guarded, hroom⟩ :=
    granted_guarded .default none ⟨0⟩ clean _ hgrant hkeeps
  obtain ⟨hserving, hlength⟩ := hroom .default (by decide)
  have htouches : slipping.filterMap (Action.touch? state.id) = [.close, .count] := by
    rw [hid]
    rfl
  rw [htouches] at guarded
  refine ⟨state, hgrant, hkeeps, ⟨last, rest, hpick, guarded⟩, ?_, fun fault hpanic => ?_⟩
  · exact (guarded.unwound hserving hlength _).2 ⟨rfl, rfl⟩
  · obtain ⟨-, -, hopen, -⟩ := (guarded.dropped hserving hlength fault).1 hpanic
    cases hopen

/-- The end of a guard may panic, be it in normal flow or while a fault unwinds, and that although
the callers of the pool are honest. -/
theorem not_drop_safe :
    (¬ ∀ sys : System, sys.Reachable → ∀ state ∈ sys.held, ∀ fault,
      (sys.step (.part .pool state.id .dropGuard)).1 ≠ .panicked fault) ∧
    ¬ ∀ sys : System, sys.Reachable → ∀ state ∈ sys.held, ∀ fault,
      (sys.step (.part .pool state.id .unwindGuard)).1 ≠ .panicked fault := by
  constructor
  · intro safe
    have reachable : (ancient.run [.get ⟨0⟩]).Reachable := reachable_ancient.run (by decide)
    obtain ⟨state, hheld, hpanic⟩ : ∃ state ∈ (ancient.run [.get ⟨0⟩]).held,
        ((ancient.run [.get ⟨0⟩]).step (.part .pool state.id .dropGuard)).1 =
          .panicked (.clock (.beforeEpoch 1)) := ⟨_, List.mem_cons_self, rfl⟩
    exact safe _ reachable state hheld _ hpanic
  · intro safe
    have reachable : ((make .default none ⟨0⟩ clean).run spoiling).Reachable :=
      (Reachable.made .default none ⟨0⟩ clean).run (by decide)
    obtain ⟨state, hheld, hpanic⟩ : ∃ state ∈ ((make .default none ⟨0⟩ clean).run spoiling).held,
        (((make .default none ⟨0⟩ clean).run spoiling).step
          (.part .pool state.id .unwindGuard)).1 =
          .panicked (.notCheckedOut state.id) := ⟨_, List.mem_cons_self, rfl⟩
    exact safe _ reachable state hheld _ hpanic

end System

end StatePool
