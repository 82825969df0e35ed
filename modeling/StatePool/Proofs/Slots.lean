import StatePool.Proofs.Living
import StatePool.Proofs.Stations

/-!
What becomes of the slots of a pool.

Holders may treat their states as they like; they only part with none but those that they have from
the pool.  The pool reads off a state whether its checkout ends, so a parting frees the slot or loses
it for good.  The slots lost so far are the difference between what is held and what is counted.
-/

namespace StatePool

/-- Callers give the pool only what they have from it, however they treated it. -/
def Action.faithful : Action → Bool
  | .part .caller _ parting => parting = .drop
  | _ => true

/-- Whether the pool takes a parting for the end of a checkout. -/
def Parting.ends (parting : Parting) (site : Site) (state : LuaState) : Bool :=
  match parting with
  | .put | .dropGuard =>
      !state.closed && state.serving &&
        (!site.pool.status.accepts || (state.mustTerminate site.world.clock).isOk)
  | .close | .unwindGuard | .fail => state.serving
  | .drop => false

/-- A pool one checkout of which may have ended. -/
def Pool.releasedIf (pool : Pool) (ends : Bool) : Pool :=
  { pool with
    serving := pool.serving - if ends then 1 else 0
    parked := pool.parked && (!ends || pool.serving - 1 != 0) }

/-! ### What holders did to a state -/

namespace Touch

def closes : Touch → Bool
  | .close => true
  | _ => false

/-- The serving mark that is left of an earlier one. -/
def mark (serving : Bool) : Touch → Bool
  | .close => false
  | .setServing serving => serving
  | _ => serving

end Touch

/-- What is left of a state after one touch and another, each of them in a world of its own. -/
def LuaState.treated (state : LuaState) (touches : List (World × Touch)) : LuaState :=
  touches.foldl (fun state touch => (state.touch touch.1 touch.2).1) state

theorem LuaState.flags_treated (state : LuaState) (touches : List (World × Touch)) :
    (state.treated touches).closed = (state.closed || touches.any fun touch => touch.2.closes) ∧
      (state.treated touches).serving =
        touches.foldl (fun serving touch => touch.2.mark serving) state.serving := by
  induction touches generalizing state with
  | nil => simp [treated]
  | cons touch touches ih =>
      obtain ⟨world, touch⟩ := touch
      obtain ⟨hclosed, hserving⟩ := ih (state.touch world touch).1
      simp only [treated, List.foldl_cons, List.any_cons] at hclosed hserving ⊢
      rw [hclosed, hserving]
      cases touch <;> simp [LuaState.touch, LuaState.close, LuaState.countRequest,
        LuaState.setServing, Touch.closes, Touch.mark]

/-! ### Partings of any state -/

namespace Site

variable {site : Site} {state : LuaState}

inductive HandedIn (site : Site) (state : LuaState) : Bool → Outcome PoolError Unit × Site → Prop
  | kept {result : Outcome PoolError Unit} {world : World} :
      HandedIn site state false (result, { site with world })
  | retired {result : Outcome PoolError Unit} {ends : Bool} {event : Event} {world : World} :
      HandedIn site state ends
        (result,
          ⟨{ site.pool.releasedIf ends with length := site.pool.length - 1 }.emit event, world⟩)
  | recycled {result : Outcome PoolError Unit} {ends : Bool} {journal : Array Event} :
      HandedIn site state ends
        (result,
          { site with
            pool := { site.pool.releasedIf ends with
              idle := state.setServing site.world.clock false :: site.pool.idle, journal } })

theorem HandedIn.conclude {ends : Bool} {result : Outcome PoolError Unit} {after : Site}
    (h : HandedIn site state ends (result, after)) (other : Outcome PoolError Unit) :
    HandedIn site state ends (other, after) := by
  cases h with
  | kept => exact .kept
  | retired => exact .retired
  | recycled => exact .recycled

theorem release_eq (state : LuaState) (hserving : 0 < site.pool.serving) :
    (if state.serving then site.pool.releaseSlot else .ok site.pool) =
      .ok (site.pool.releasedIf state.serving) := by
  cases state.serving with
  | true => exact Pool.releaseSlot_of_pos hserving
  | false => simp [Pool.releasedIf]

theorem retire_handedIn (hserving : 0 < site.pool.serving) (hlength : 0 < site.pool.length)
    (reason : CleanupReason) (result : Outcome PoolError Unit) :
    HandedIn site state state.serving (result, (site.retire state reason).2) := by
  have hlength' : (site.pool.releasedIf state.serving).length ≠ 0 := Nat.pos_iff_ne_zero.1 hlength
  simp only [retire, release_eq state hserving, if_neg hlength']
  exact .retired

theorem recycle_handedIn (hserving : 0 < site.pool.serving) (result : Outcome PoolError Unit) :
    HandedIn site state state.serving (result, (site.recycle state).2) := by
  simp only [recycle, release_eq state hserving]
  split <;> exact .recycled

theorem put_handedIn (hserving : 0 < site.pool.serving) (hlength : 0 < site.pool.length)
    (result : Outcome PoolError Unit) :
    HandedIn site state (Parting.put.ends site state) (result, (site.put state).2) := by
  unfold put
  cases hclosed : state.closed with
  | true =>
      simp only [Parting.ends, hclosed, Bool.not_true, Bool.false_and, ↓reduceIte]
      exact .kept
  | false =>
      cases haccepts : site.pool.status.accepts with
      | false =>
          simp only [Parting.ends, hclosed, haccepts, Bool.not_false, Bool.true_and, Bool.true_or,
            Bool.and_true, Bool.false_eq_true, ↓reduceIte]
          exact retire_handedIn hserving hlength .rejected result
      | true =>
          cases hjudged : state.mustTerminate site.world.clock with
          | error fault =>
              simp only [Parting.ends, hclosed, haccepts, hjudged, Except.isOk, Except.toBool,
                Bool.not_true, Bool.or_self, Bool.and_false, Bool.false_eq_true, ↓reduceIte]
              exact .kept
          | ok terminate =>
              simp only [Parting.ends, hclosed, haccepts, hjudged, Except.isOk, Except.toBool,
                Bool.not_false, Bool.not_true, Bool.true_and, Bool.or_true, Bool.and_true,
                Bool.false_eq_true, ↓reduceIte]
              cases terminate with
              | true => exact retire_handedIn hserving hlength _ result
              | false =>
                  simp only
                  split
                  · exact retire_handedIn hserving hlength .cancelled result
                  · exact recycle_handedIn hserving result

theorem close_handedIn (hserving : 0 < site.pool.serving) (hlength : 0 < site.pool.length)
    (reason : CleanupReason) (result : Outcome PoolError Unit) :
    HandedIn site state state.serving (result, (site.close state reason).2) := by
  unfold close
  cases hmark : state.serving with
  | true =>
      have retired := @retire_handedIn site state hserving hlength reason result
      rwa [hmark] at retired
  | false => exact .kept

theorem HandedIn.balanced {result : Outcome PoolError Unit} {after : Site}
    (h : HandedIn site state true (result, after)) (hserving : 0 < site.pool.serving)
    (hlength : site.pool.length = site.pool.idle.length + site.pool.serving) :
    after.pool.length = after.pool.idle.length + after.pool.serving := by
  cases h with
  | retired =>
      simp only [Pool.emit, Pool.releasedIf, ↓reduceIte]
      omega
  | recycled =>
      simp only [Pool.releasedIf, ↓reduceIte, List.length_cons]
      omega

theorem CheckedOut.full_le {capacity : Nat} {after : Site}
    (h : CheckedOut site (.error (.full capacity), after)) :
    site.pool.idle = [] ∧ capacity ≤ site.pool.length := by
  generalize hresult : (.error (.full capacity) : Outcome PoolError LuaState) = result at h
  cases h with
  | refused =>
      unfold Pool.refusal at hresult
      split at hresult <;> cases hresult
  | full hidle _ hlength =>
      cases hresult
      exact ⟨hidle, hlength⟩
  | failed | panicked | reused | built => cases hresult

end Site

theorem Parting.perform_handedIn {site : Site} {state : LuaState} (parting : Parting)
    (hserving : 0 < site.pool.serving) (hlength : 0 < site.pool.length) :
    Site.HandedIn site state (parting.ends site state) (parting.perform site state) := by
  cases parting with
  | put => exact (Site.put_handedIn hserving hlength (.ok ())).conclude (site.put state).1
  | dropGuard =>
      simp only [perform, Site.pool_dropGuard]
      exact Site.put_handedIn hserving hlength _
  | close => exact Site.close_handedIn hserving hlength .discarded _
  | unwindGuard | fail => exact Site.close_handedIn hserving hlength .scriptFailure _
  | drop => exact .kept

/-! ### The counters -/

/-- The slots of a pool whose callers hold a number of states and lost others. -/
structure Slots (pool : Pool) (held lost : Nat) : Prop where
  seeds_le : 0 < pool.config.capacity → pool.config.seeds ≤ pool.config.capacity
  serving_eq : pool.serving = held + lost
  le_length : pool.idle.length + held ≤ pool.length
  length_le : pool.length ≤ pool.idle.length + pool.serving
  length_le_capacity : 0 < pool.config.capacity → pool.length ≤ pool.config.capacity
  parked_serving : pool.parked = true → 0 < pool.serving

namespace Slots

variable {pool : Pool} {site after : Site} {held lost : Nat}

theorem length_of_quiet (slots : Slots pool held lost) (h : pool.serving = 0) :
    pool.length = pool.idle.length := by
  have := slots.le_length
  have := slots.length_le
  omega

theorem setStatus (slots : Slots pool held lost) (target : Status) :
    Slots (pool.setStatus target) held lost := by
  rcases pool.setStatus_eq target with h | ⟨-, h⟩
  · rw [h]
    exact slots
  · rw [h]
    exact { slots with }

theorem withStateOptions (slots : Slots site.pool held lost) (options : StateOptions) :
    Slots (site.setStateOptions options).pool held lost :=
  { slots with }

theorem checkOut (slots : Slots site.pool held lost) {result : Outcome PoolError LuaState}
    (h : Site.CheckedOut site (result, after)) :
    match result with
    | .ok _ => Slots after.pool (held + 1) lost
    | _ => Slots after.pool held lost := by
  have hserving := slots.serving_eq
  have hidle := slots.le_length
  have hlength := slots.length_le
  cases h with
  | refused | failed | panicked => exact slots
  | full => exact { slots with }
  | reused haccepts hcons =>
      rw [hcons, List.length_cons] at hidle hlength
      constructor <;> simp only [Pool.emit]
      · exact slots.seeds_le
      · omega
      · omega
      · omega
      · exact slots.length_le_capacity
      · omega
  | built haccepts hnil hroom =>
      constructor <;> simp only [Pool.emit]
      · exact slots.seeds_le
      · omega
      · omega
      · omega
      · exact hroom
      · omega

theorem releasedIf (slots : Slots pool (held + 1) lost) (ends : Bool) :
    (pool.releasedIf ends).serving = held + (lost + if ends then 0 else 1) ∧
      ((pool.releasedIf ends).parked = true → 0 < (pool.releasedIf ends).serving) := by
  have hserving := slots.serving_eq
  cases ends with
  | false =>
      simp only [Pool.releasedIf, Bool.false_eq_true, ↓reduceIte, Bool.not_false, Bool.true_or,
        Bool.and_true]
      exact ⟨by omega, slots.parked_serving⟩
  | true =>
      simp only [Pool.releasedIf, ↓reduceIte, Bool.not_true, Bool.false_or, Bool.and_eq_true,
        bne_iff_ne]
      constructor <;> omega

theorem part {state : LuaState} {ends : Bool} {result : Outcome PoolError Unit}
    (slots : Slots site.pool (held + 1) lost) (h : Site.HandedIn site state ends (result, after)) :
    Slots after.pool held (lost + if ends then 0 else 1) := by
  have hserving := slots.serving_eq
  have hidle := slots.le_length
  have hlength := slots.length_le
  obtain ⟨hnext, hparked⟩ := slots.releasedIf ends
  cases h with
  | kept =>
      constructor
      · exact slots.seeds_le
      · simp only [Bool.false_eq_true, ↓reduceIte]
        omega
      · simp only
        omega
      · exact hlength
      · exact slots.length_le_capacity
      · exact slots.parked_serving
  | retired =>
      constructor <;> simp only [Pool.emit]
      · exact slots.seeds_le
      · exact hnext
      · exact Nat.le_sub_of_add_le hidle
      · rw [hnext]
        simp only [Pool.releasedIf]
        split <;> omega
      · exact fun h => Nat.le_trans (Nat.sub_le _ _) (slots.length_le_capacity h)
      · exact hparked
  | recycled =>
      constructor <;> simp only [List.length_cons]
      · exact slots.seeds_le
      · exact hnext
      · simp only [Pool.releasedIf]
        omega
      · rw [hnext]
        simp only [Pool.releasedIf]
        split <;> omega
      · exact slots.length_le_capacity
      · exact hparked

theorem exit (slots : Slots site.pool held lost) : Slots site.exit.2.pool held lost := by
  have exited := site.exit_exited slots.length_of_quiet
  generalize site.exit = result at exited
  cases exited with
  | asleep hserving => exact { slots with parked_serving := fun _ => hserving }
  | complete hserving =>
      have := slots.serving_eq
      exact
        { slots with
          le_length := by
            simp only [List.length_nil]
            omega
          length_le := by simp only [Nat.zero_le]
          length_le_capacity := fun _ => Nat.zero_le _ }

theorem pool_forget (states : List LuaState) (site : Site) :
    (states.foldl Site.forget site).pool = site.pool := by
  induction states generalizing site with
  | nil => rfl
  | cons state states ih => exact ih (site.forget state)

theorem seed (slots : Slots site.pool held lost) (hlength : site.pool.length = 0) {count : Nat}
    (hseeds : count ≤ site.pool.config.seeds) : Slots (site.seed count).2.pool held lost := by
  have seeded := site.seed_seeded count
  have hborn {born : List LuaState} (hcount : born.length ≤ count) :
      Slots (site.pool.withSeeds born) held lost := by
    have hidle := slots.le_length
    have hbound := slots.length_le
    constructor <;> simp only [Pool.withSeeds, List.length_append]
    · exact slots.seeds_le
    · exact slots.serving_eq
    · omega
    · omega
    · intro hcapacity
      have := slots.seeds_le hcapacity
      omega
    · exact slots.parked_serving
  generalize site.seed count = result at seeded
  cases seeded with
  | complete _ _ hcount => exact hborn (by omega)
  | failed _ _ hcount => exact hborn (by omega)
  | panicked _ _ _ hcount => exact hborn (by omega)

theorem start (slots : Slots site.pool held lost) (root : Token) :
    Slots (site.start root).2.pool held lost := by
  unfold Site.start
  split
  · exact slots
  · have hserving := slots.serving_eq
    simp only [pool_forget]
    have emptied : Slots { site.pool with idle := [], length := 0, root } held lost :=
      { slots with
        le_length := by
          simp only [List.length_nil]
          omega
        length_le := Nat.zero_le _
        length_le_capacity := fun _ => Nat.zero_le _ }
    have hsame (pool : Pool) : (pool.setStatus .running).length = pool.length ∧
        (pool.setStatus .running).config = pool.config := by
      rcases pool.setStatus_eq .running with h | ⟨-, h⟩ <;> rw [h] <;> exact ⟨rfl, rfl⟩
    refine (emptied.setStatus .running).seed (hsame _).1 (Nat.le_of_eq ?_)
    rw [Site.setStatus, (hsame _).2]

theorem step (slots : Slots site.pool held lost) (run : LifecycleRun) :
    Slots (run.step site).2.pool held lost := by
  have hdrain (next : Phase) : Slots (run.drain next site).2.pool held lost := by
    have exited := slots.exit
    unfold LifecycleRun.drain
    split
    · exact slots
    · generalize site.exit = result at exited
      rcases result with ⟨_ | (_ | e | fault), after⟩
      · exact exited
      · exact exited
      · exact e.elim
      · exact exited
  obtain ⟨call, phase⟩ := run
  cases phase with
  | entering =>
      cases call with
      | restart root =>
          simp only [LifecycleRun.step]
          split <;> exact slots
      | shutdown | terminate => exact slots
  | closing | undoing e => exact slots.setStatus .exiting
  | draining | undoDraining e => exact hdrain _
  | starting root =>
      simp only [LifecycleRun.step]
      split <;> exact slots
  | seeding root =>
      simp only [LifecycleRun.step]
      split
      · exact slots
      · have started := slots.start root
        generalize site.start root = result at started
        rcases result with ⟨_ | e | fault, after⟩ <;> exact started
  | sealing => exact slots.setStatus .dead
  | done result => exact slots

end Slots

/-! ### Everybody at once -/

namespace System

variable {sys : System} {held lost : Nat}

/-- How many slots are lost by an action. -/
def loses (sys : System) : Action → Nat
  | .part .pool id parting =>
      match pick id sys.held with
      | some (state, _) => if parting.ends sys.site state then 0 else 1
      | none => 0
  | _ => 0

def losses (sys : System) : List Action → Nat
  | [] => 0
  | action :: actions => sys.loses action + (sys.step action).2.losses actions

structure Slotted (sys : System) (lost : Nat) : Prop where
  slots : Slots sys.site.pool sys.held.length lost
  opened : sys.held ≠ [] → sys.isOpen = true

theorem isOpen_act (hopen : sys.isOpen = true) (action : Action) :
    (sys.act action).2.isOpen = true := by
  obtain ⟨run, hcall, hphase⟩ := sys.isOpen_iff.1 hopen
  refine (isOpen_iff _).2 ⟨run, call_act hcall (fun hresult => ?_) action, hphase⟩
  simp [LifecycleRun.result?, hphase] at hresult

theorem Slotted.used (slotted : sys.Slotted lost) {action : Action}
    (slots : Slots (sys.act action).2.site.pool sys.held.length lost)
    (hheld : (sys.act action).2.held.length = sys.held.length) :
    (sys.act action).2.Slotted lost where
  slots := hheld ▸ slots
  opened h := by
    refine isOpen_act (slotted.opened fun hnil => h ?_) action
    rw [hnil] at hheld
    exact List.eq_nil_of_length_eq_zero hheld

theorem Slotted.ifOpen (slotted : sys.Slotted lost) {next : Report × System}
    (h : sys.isOpen = true → next.2.Slotted lost) : (sys.ifOpen next).2.Slotted lost := by
  unfold System.ifOpen
  split
  · next hopen => exact h hopen
  · exact slotted

theorem Slotted.grant (slotted : sys.Slotted lost) (hopen : sys.isOpen = true)
    {result : Outcome PoolError LuaState} {site : Site}
    (h : Site.CheckedOut sys.site (result, site)) :
    (sys.grant (result, site)).2.Slotted lost := by
  have slots := slotted.slots.checkOut h
  cases result with
  | ok state => exact ⟨slots, fun _ => hopen⟩
  | error e | panic fault => exact ⟨slots, slotted.opened⟩

theorem Slotted.handedIn (slotted : sys.Slotted lost) {state : LuaState} {rest : List LuaState}
    (hperm : sys.held.Perm (state :: rest)) (parting : Parting) :
    Site.HandedIn sys.site state (parting.ends sys.site state)
      (parting.perform sys.site state) := by
  have hheld := hperm.length_eq
  have hserving := slotted.slots.serving_eq
  have hlength := slotted.slots.le_length
  rw [List.length_cons] at hheld
  apply parting.perform_handedIn <;> omega

theorem Slotted.part (slotted : sys.Slotted lost) (parting : Parting) {id : StateId}
    {state : LuaState} {rest : List LuaState} (hpick : pick id sys.held = some (state, rest)) :
    let next := (sys.step (.part .pool id parting)).2
    next.held = rest ∧
      next.site.pool = (parting.perform sys.site state).2.pool ∧
      next.Slotted (lost + if parting.ends sys.site state then 0 else 1) := by
  have hperm := (perm_of_pick hpick).2
  have hheld := hperm.length_eq
  rw [List.length_cons] at hheld
  have hopen : sys.isOpen = true := by
    apply slotted.opened
    rintro hnil
    rw [hnil] at hheld
    cases hheld
  have handed := slotted.handedIn hperm parting
  have slots := slotted.slots
  rw [hheld] at slots
  simp only [System.step, System.act, note, System.ifOpen, hopen, ↓reduceIte, System.part, states, hpick]
  exact ⟨rfl, rfl, slots.part handed, fun _ => hopen⟩

theorem Slotted.act_part (slotted : sys.Slotted lost) {origin : Origin} {id : StateId}
    {parting : Parting} (faithful : (Action.part origin id parting).faithful = true) :
    (sys.act (.part origin id parting)).2.Slotted
      (lost + sys.loses (.part origin id parting)) := by
  cases hpick : pick id (sys.states origin) with
  | none =>
      have hloses : sys.loses (.part origin id parting) = 0 := by
        cases origin with
        | pool =>
            change pick id sys.held = none at hpick
            simp only [loses, hpick]
        | caller => rfl
      rw [hloses]
      refine slotted.ifOpen fun _ => ?_
      simp only [System.part, hpick]
      exact slotted
  | some found =>
      cases origin with
      | pool =>
          change pick id sys.held = some found at hpick
          simp only [loses, hpick]
          exact { (slotted.part parting hpick).2.2 with }
      | caller =>
          -- A state of its own a caller can only drop, which the pool does not see.
          simp only [Action.faithful, decide_eq_true_eq] at faithful
          subst faithful
          refine slotted.ifOpen fun hopen => ?_
          simp only [System.part, hpick]
          exact ⟨slotted.slots, fun _ => hopen⟩

theorem Slotted.act (slotted : sys.Slotted lost) {action : Action}
    (faithful : action.faithful = true) :
    (sys.act action).2.Slotted (lost + sys.loses action) := by
  cases action with
  | tick | context | entrust | cancel => exact slotted.used slotted.slots rfl
  | build parent budget idleSeconds options hook =>
      refine slotted.used ?_ ?_ <;> simp only [System.act, System.build] <;> split
      · exact slotted.slots
      · exact slotted.slots
      · exact slotted.slots
      · rfl
      · rfl
      · rfl
  | touch origin id touch =>
      cases hpick : pick id (sys.states origin) with
      | none =>
          simp only [System.act, System.touch, hpick]
          exact slotted
      | some found =>
          have hheld := (perm_of_pick hpick).2.length_eq
          apply slotted.used <;> simp only [System.act, System.touch, hpick]
          · cases origin <;> exact slotted.slots
          · cases origin with
            | pool => exact hheld.symm
            | caller => rfl
  | get request =>
      refine slotted.ifOpen fun hopen => ?_
      unfold Site.get
      split
      · exact ⟨slotted.slots, slotted.opened⟩
      · exact slotted.grant hopen (Site.checkOut_checkedOut sys.site)
  | checkOut =>
      exact slotted.ifOpen fun hopen => slotted.grant hopen (Site.checkOut_checkedOut sys.site)
  | part origin id parting => exact slotted.act_part faithful
  | setStateOptions options =>
      exact slotted.ifOpen fun hopen => ⟨slotted.slots.withStateOptions options, fun _ => hopen⟩
  | look => exact slotted.ifOpen fun _ => slotted
  | call call =>
      apply slotted.used <;> simp only [System.act, System.ifOpen] <;> split
      · exact slotted.slots
      · exact slotted.slots
      · rfl
      · rfl
  | advance index =>
      apply slotted.used <;> simp only [System.act, advance] <;> split
      · exact slotted.slots
      · next run hcall =>
          split
          · split
            · exact slotted.slots
            · exact slotted.slots.step run
          · split <;> exact slotted.slots
      · rfl
      · split <;> split <;> rfl

theorem Slotted.step (slotted : sys.Slotted lost) {action : Action}
    (faithful : action.faithful = true) :
    (sys.step action).2.Slotted (lost + sys.loses action) :=
  { slotted.act faithful with }

theorem Slotted.run (slotted : sys.Slotted lost) {actions : List Action}
    (faithful : ∀ action ∈ actions, action.faithful = true) :
    (sys.run actions).Slotted (lost + sys.losses actions) := by
  induction actions generalizing sys lost with
  | nil => exact slotted
  | cons action actions ih =>
      rw [List.forall_mem_cons] at faithful
      rw [losses, ← Nat.add_assoc]
      exact ih (slotted.step faithful.1) faithful.2

theorem slotted_make {config : Config} (h : config.Built) (hook : Option InitHook) (root : Token)
    (world : World) : (make config hook root world).Slotted 0 where
  slots :=
    { seeds_le := h.seeds_le
      serving_eq := rfl
      le_length := Nat.le_refl 0
      length_le := Nat.le_refl 0
      length_le_capacity := fun _ => Nat.zero_le _
      parked_serving := nofun }
  opened := fun h => absurd rfl h

/-! ### Drains -/

theorem draining_act (hserving : 0 < sys.site.pool.serving) {index : Nat}
    (hdraining : sys.Draining index) (action : Action) : (sys.act action).2.Draining index := by
  obtain ⟨run, hcall, hbusy⟩ := hdraining
  -- Its own section is the only one that could move the drain, and that one sleeps.
  refine ⟨run, call_act hcall (fun _ => ?_) action, hbusy⟩
  have hdrain (next : Phase) : (run.drain next sys.site).1 = run := by
    unfold LifecycleRun.drain
    split
    · rfl
    · simp only [Site.exit, if_pos hserving]
  obtain ⟨call, phase⟩ := run
  cases phase with
  | draining | undoDraining e => exact hdrain _
  | _ => exact absurd rfl hbusy

/-- A lost slot is never found again, so whoever drains the pool waits for it forever. -/
theorem Slotted.hangs (slotted : sys.Slotted lost) (hlost : 0 < lost) {index : Nat}
    (hdraining : sys.Draining index) {actions : List Action}
    (faithful : ∀ action ∈ actions, action.faithful = true) :
    (sys.run actions).Draining index := by
  -- Losses only grow, so there is always a slot taken.
  induction actions generalizing sys lost with
  | nil => exact hdraining
  | cons action actions ih =>
      rw [List.forall_mem_cons] at faithful
      have hserving : 0 < sys.site.pool.serving := by
        have := slotted.slots.serving_eq
        omega
      have hlater : 0 < lost + sys.loses action := by omega
      exact ih (slotted.step faithful.1) hlater (draining_act hserving hdraining action) faithful.2

/-- How many sections a shutdown has before it when it waits for nobody. -/
def sectionsLeft : Phase → Nat
  | .entering => 3
  | .closing => 2
  | .draining => 1
  | _ => 0

theorem step_shutdown {run : LifecycleRun} {site : Site} (slots : Slots site.pool held lost)
    (hquiet : site.pool.serving = 0) (hcall : run.call = .shutdown) (proper : run.Proper)
    (hresult : run.result? = none) :
    (run.step site).1.result? = some (.ok ()) ∨
      (run.step site).1.call = .shutdown ∧ (run.step site).1.result? = none ∧
        sectionsLeft (run.step site).1.phase + 1 = sectionsLeft run.phase := by
  obtain ⟨call, phase⟩ := run
  cases hcall
  cases phase with
  | entering | closing => exact .inr ⟨rfl, rfl, rfl⟩
  | draining =>
      have hparked : site.pool.parked = false := by
        rw [Bool.eq_false_iff]
        intro hparked
        have := slots.parked_serving hparked
        omega
      have exited := site.exit_exited slots.length_of_quiet
      refine .inl ?_
      simp only [LifecycleRun.step, LifecycleRun.drain, hparked, Bool.false_eq_true, ↓reduceIte]
      generalize site.exit = result at exited
      cases exited with
      | asleep hserving => omega
      | complete => rfl
  | starting root | seeding root | undoing e | undoDraining e | sealing => cases proper
  | done result => cases hresult

theorem sectionsLeft_pos {run : LifecycleRun} (hcall : run.call = .shutdown) (proper : run.Proper)
    (hresult : run.result? = none) : 0 < sectionsLeft run.phase := by
  obtain ⟨call, phase⟩ := run
  cases hcall
  cases phase with
  | entering | closing | draining => simp only [sectionsLeft, Nat.zero_lt_succ]
  | starting root | seeding root | undoing e | undoDraining e | sealing => cases proper
  | done result => cases hresult

theorem result_run {index : Nat} {run : LifecycleRun} (hcall : sys.calls[index]? = some run)
    (hresult : run.result? ≠ none) (actions : List Action) :
    (sys.run actions).calls[index]? = some run := by
  induction actions generalizing sys with
  | nil => exact hcall
  | cons action actions ih => exact ih (call_act hcall (fun h => absurd h hresult) action)

/-- With no slot taken, a shutdown whose turn it is comes to its end. -/
theorem Slotted.shuts_down (slotted : sys.Slotted lost) (hquiet : sys.site.pool.serving = 0)
    {index : Nat} {run : LifecycleRun} (hlock : sys.lock = some index)
    (hcall : sys.calls[index]? = some run) (hshutdown : run.call = .shutdown)
    (proper : run.Proper) (hresult : run.result? = none) {count : Nat}
    (hcount : sectionsLeft run.phase ≤ count) :
    ∃ done, (sys.run (List.replicate count (.advance index))).calls[index]? = some done ∧
      done.result? = some (.ok ()) := by
  -- Each section leaves one fewer before the shutdown, and takes and loses no slot.
  induction count generalizing sys run with
  | zero => exact absurd hcount (Nat.not_le.2 (sectionsLeft_pos hshutdown proper hresult))
  | succ count ih =>
      obtain ⟨hsite, hnext, hlock'⟩ := advance_of_lock hlock hcall hresult
      have later : (sys.step (.advance index)).2.Slotted lost := slotted.step rfl
      rcases step_shutdown slotted.slots hquiet hshutdown proper hresult with
        hdone | ⟨hshutdown', hresult', hleft⟩
      · refine ⟨_, result_run hnext ?_ (List.replicate count (.advance index)), hdone⟩
        rw [hdone]
        nofun
      · have hquiet' : (sys.step (.advance index)).2.site.pool.serving = 0 := by
          have hserving := (slotted.slots.step run).serving_eq
          rw [hsite, hserving, ← slotted.slots.serving_eq, hquiet]
        exact ih later hquiet' hlock' hnext hshutdown'
          (LifecycleRun.proper_step proper sys.site) hresult' (by omega)

theorem advance_of_entering {index : Nat} {run : LifecycleRun} (hlock : sys.lock = none)
    (hcall : sys.calls[index]? = some run) (hphase : run.phase = .entering) :
    let next := (sys.step (.advance index)).2
    next.site = sys.site ∧ next.calls = sys.calls ∧ next.lock = some index := by
  simp [System.step, System.act, advance, hcall, hlock, hphase, note]

theorem Possible.proper (h : sys.Possible) : ∀ run ∈ sys.calls, run.Proper := by
  induction h with
  | made config hook root world => exact proper_make config hook root world
  | step _ action ih => exact proper_act ih action

/-! ### The account -/

/-- How the slots of a pool stand when a number of them are lost. -/
structure Accounted (sys : System) (lost : Nat) : Prop where
  serving_eq : sys.site.pool.serving = sys.held.length + lost
  le_length : sys.site.pool.idle.length + sys.held.length ≤ sys.site.pool.length
  length_le : sys.site.pool.length ≤ sys.site.pool.idle.length + sys.site.pool.serving
  length_le_capacity : 0 < sys.site.pool.config.capacity →
    sys.site.pool.length ≤ sys.site.pool.config.capacity
  /-- What was handed out shows what its holder did to it since then. -/
  treated : ∀ action state, (sys.step action).1 = .granted state →
    ∀ touches : List (World × Touch),
      (state.treated touches).closed = (touches.any fun touch => touch.2.closes) ∧
      (state.treated touches).serving =
        touches.foldl (fun serving touch => touch.2.mark serving) true
  /-- A parting frees one slot if the pool takes it for the end of a checkout, and else none. -/
  freed : ∀ id state rest parting, pick id sys.held = some (state, rest) →
    let after := (sys.step (.part .pool id parting)).2
    after.held = rest ∧
      if parting.ends sys.site state then
        after.site.pool.serving + 1 = sys.site.pool.serving ∧
          (sys.site.pool.length = sys.site.pool.idle.length + sys.site.pool.serving →
            after.site.pool.length = after.site.pool.idle.length + after.site.pool.serving)
      else after.site.pool.serving = sys.site.pool.serving
  /-- A refusal for want of room finds all of it held or lost. -/
  full : ∀ request capacity, (sys.step (.get request)).1 = .refused (.full capacity) →
    capacity ≤ sys.held.length + lost
  /-- With nothing held and nothing lost, a shutdown whose turn it is succeeds. -/
  shuts_down : sys.held = [] → lost = 0 → ∀ index run, sys.calls[index]? = some run →
    run.call = .shutdown → run.result? = none →
    sys.lock = some index ∨ sys.lock = none ∧ run.phase = .entering →
    ∃ done, (sys.run (List.replicate 4 (.advance index))).calls[index]? = some done ∧
      done.result? = some (.ok ())
  /-- With a slot lost, no drain ever ends. -/
  hangs : 0 < lost → ∀ index, sys.Draining index → ∀ actions : List Action,
    (∀ action ∈ actions, action.faithful = true) → (sys.run actions).Draining index

theorem Slotted.freed (slotted : sys.Slotted lost) {id : StateId} {parting : Parting}
    {state : LuaState} {rest : List LuaState} (hpick : pick id sys.held = some (state, rest)) :
    let after := (sys.step (.part .pool id parting)).2
    after.held = rest ∧
      if parting.ends sys.site state then
        after.site.pool.serving + 1 = sys.site.pool.serving ∧
          (sys.site.pool.length = sys.site.pool.idle.length + sys.site.pool.serving →
            after.site.pool.length = after.site.pool.idle.length + after.site.pool.serving)
      else after.site.pool.serving = sys.site.pool.serving := by
  obtain ⟨hheld, hpool, later⟩ := slotted.part parting hpick
  have hperm := (perm_of_pick hpick).2
  have hcount := hperm.length_eq
  have handed := slotted.handedIn hperm parting
  have hserving := slotted.slots.serving_eq
  have hnext := later.slots.serving_eq
  rw [List.length_cons] at hcount
  rw [hheld] at hnext
  refine ⟨hheld, ?_⟩
  cases hends : parting.ends sys.site state with
  | true =>
      rw [hends] at handed hnext
      simp only [↓reduceIte] at hnext ⊢
      refine ⟨by omega, fun hlength => ?_⟩
      rw [hpool]
      exact handed.balanced (by omega) hlength
  | false =>
      rw [hends] at hnext
      simp only [Bool.false_eq_true, ↓reduceIte] at hnext ⊢
      omega

theorem Slotted.full (slotted : sys.Slotted lost) {request : Token} {capacity : Nat}
    (h : (sys.step (.get request)).1 = .refused (.full capacity)) :
    capacity ≤ sys.held.length + lost := by
  simp only [System.step, System.act, System.ifOpen] at h
  split at h
  · have checked := sys.site.checkOut_checkedOut
    unfold Site.get at h
    split at h
    · cases h
    · generalize sys.site.checkOut = result at checked h
      rcases result with ⟨state | e | fault, after⟩ <;> cases h
      obtain ⟨hidle, hlength⟩ := checked.full_le
      have hbound := slotted.slots.length_le
      rw [hidle, slotted.slots.serving_eq, List.length_nil] at hbound
      omega
  · cases h

theorem Slotted.shutdown (slotted : sys.Slotted lost) (hheld : sys.held = []) (hlost : lost = 0)
    {index : Nat} {run : LifecycleRun} (hcall : sys.calls[index]? = some run)
    (hshutdown : run.call = .shutdown) (proper : run.Proper) (hresult : run.result? = none)
    (hturn : sys.lock = some index ∨ sys.lock = none ∧ run.phase = .entering) :
    ∃ done, (sys.run (List.replicate 4 (.advance index))).calls[index]? = some done ∧
      done.result? = some (.ok ()) := by
  have hquiet : sys.site.pool.serving = 0 := by
    rw [slotted.slots.serving_eq, hheld, hlost]
    rfl
  rcases hturn with hlock | ⟨hlock, hphase⟩
  · refine slotted.shuts_down hquiet hlock hcall hshutdown proper hresult ?_
    cases run.phase <;> simp [sectionsLeft]
  · obtain ⟨hsite, hcalls, hlock'⟩ := advance_of_entering hlock hcall hphase
    have later : (sys.step (.advance index)).2.Slotted lost := slotted.step rfl
    rw [← hcalls] at hcall
    rw [← hsite] at hquiet
    refine later.shuts_down hquiet hlock' hcall hshutdown proper hresult ?_
    simp only [hphase, sectionsLeft, Nat.le_refl]

/-- However callers treat their states, what the pool counts is what they hold and the slots lost by
partings that it took for something else than the end of a checkout. -/
theorem run_accounted {config : Config} (h : config.Built) (hook : Option InitHook) (root : Token)
    (world : World) {actions : List Action}
    (faithful : ∀ action ∈ actions, action.faithful = true) :
    ((make config hook root world).run actions).Accounted
      ((make config hook root world).losses actions) := by
  have slotted := (slotted_make h hook root world).run faithful
  have possible := (Possible.made config hook root world).run actions
  rw [Nat.zero_add] at slotted
  generalize (make config hook root world).losses actions = lost at slotted
  generalize (make config hook root world).run actions = sys at slotted possible
  exact
    { serving_eq := slotted.slots.serving_eq
      le_length := slotted.slots.le_length
      length_le := slotted.slots.length_le
      length_le_capacity := slotted.slots.length_le_capacity
      treated := fun action state hgrant touches => by
        obtain ⟨alive, hserving⟩ := possible.living.granted hgrant
        obtain ⟨hclosed, hmark⟩ := state.flags_treated touches
        rw [hclosed, hmark, alive.closed_eq, hserving, Bool.false_or]
        exact ⟨rfl, rfl⟩
      freed := fun _ _ _ _ hpick => slotted.freed hpick
      full := fun _ _ hfull => slotted.full hfull
      shuts_down := fun hheld hlost _ _ hcall hshutdown hresult hturn =>
        slotted.shutdown hheld hlost hcall hshutdown
          (possible.proper _ (List.mem_of_getElem? hcall)) hresult hturn
      hangs := fun hlost _ hdraining _ later => slotted.hangs hlost hdraining later }

/-- One state is closed and given back, and one is given back with its mark taken off; a third one is
given back as it is. -/
def wasteful : List Action :=
  [.advance 0, .advance 0, .advance 0, .get ⟨0⟩, .get ⟨0⟩, .get ⟨0⟩, .touch .pool ⟨1⟩ .close,
    .part .pool ⟨1⟩ .put, .touch .pool ⟨0⟩ (.setServing false), .part .pool ⟨0⟩ .dropGuard,
    .part .pool ⟨2⟩ .put, .call .shutdown, .advance 0, .advance 1, .advance 1, .advance 1]

theorem wasteful_accounted :
    ((make .small none ⟨0⟩ clean).losses wasteful = 2 ∧
      ((make .small none ⟨0⟩ clean).run wasteful).held = [] ∧
      ((make .small none ⟨0⟩ clean).run wasteful).Draining 1) ∧
      ((make .small none ⟨0⟩ clean).run wasteful).Accounted
        ((make .small none ⟨0⟩ clean).losses wasteful) :=
  ⟨⟨by decide +kernel, by decide +kernel, ⟨⟨.shutdown, .draining⟩, by decide +kernel, by decide⟩⟩,
    run_accounted Config.built_small none ⟨0⟩ clean (by decide)⟩

/-- The only state of a pool is closed by its holder. -/
def spoiling : List Action :=
  [.advance 0, .advance 0, .advance 0, .get ⟨0⟩, .touch .pool ⟨0⟩ .close]

/-- Giving a state back does not always free its slot. -/
theorem not_return_frees :
    ¬ ∀ config : Config, config.Built → ∀ actions : List Action,
      (∀ action ∈ actions, action.faithful = true) →
      let sys := (make config none ⟨0⟩ clean).run actions
      ∀ id state rest parting, parting = .put ∨ parting = .dropGuard →
        pick id sys.held = some (state, rest) →
        (sys.step (.part .pool id parting)).2.site.pool.serving + 1 = sys.site.pool.serving := by
  intro frees
  have hpick : (pick ⟨0⟩ ((make .default none ⟨0⟩ clean).run spoiling).held).isSome = true := by
    decide +kernel
  obtain ⟨⟨state, rest⟩, hpick⟩ := Option.isSome_iff_exists.1 hpick
  have hserving := frees .default .default spoiling (by decide) ⟨0⟩ state rest .put (.inl rfl) hpick
  revert hserving
  decide +kernel

end System

end StatePool
