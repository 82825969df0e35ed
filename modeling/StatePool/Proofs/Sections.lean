import StatePool.Proofs.System

/-!
What each section of the pool can do.

For every section there is a relation that lists its outcomes, with the pool that each of them
leaves behind, and one statement that the section stays within that list.  Partings are described
for a pool that counts the checkout, and draining and starting for one whose counters agree.
-/

namespace StatePool

/-- Whether a fault says that the pool's own books are wrong. -/
def Fault.isBreach : Fault → Bool
  | .emptyPool | .noCheckout | .uneven _ _ | .seedingInUse _ => true
  | _ => false

def Outcome.isBreach {ε α : Type} : Outcome ε α → Bool
  | .panic fault => fault.isBreach
  | _ => false

def Outcome.isOk {ε α : Type} : Outcome ε α → Bool
  | .ok _ => true
  | _ => false

namespace World

@[simp] theorem states_cancel (world : World) (token : Token) :
    (world.cancel token).states = world.states := rfl

@[simp] theorem states_undergo (world : World) (effect : HostEffect) :
    (world.undergo effect).states = world.states := by
  cases effect <;> rfl

@[simp] theorem states_undergoAll (world : World) (effects : List HostEffect) :
    (world.undergoAll effects).states = world.states := by
  unfold undergoAll
  induction effects generalizing world with
  | nil => rfl
  | cons effect effects ih => simp [ih]

end World

theorem Pool.parked_setStatus (pool : Pool) (target : Status) :
    (pool.setStatus target).parked = pool.parked := by
  rcases pool.setStatus_eq target with h | ⟨-, h⟩
  · rw [h]
  · rw [h]
    rfl

/-! ### Building states -/

namespace LuaState

theorem states_touch (state : LuaState) (world : World) (touch : Touch) :
    (state.touch world touch).2.states = world.states := by
  cases touch <;> rfl

theorem id_touch (state : LuaState) (world : World) (touch : Touch) :
    (state.touch world touch).1.id = state.id := by
  cases touch <;> rfl

/-- A state that was built in a world and has not been used. -/
structure Newborn (state : LuaState) (world : World) : Prop where
  id_eq : state.id = ⟨world.states⟩
  serving_eq : state.serving = false
  closed_eq : state.closed = false
  interpreter_ne : state.interpreter ≠ none

inductive Created (world : World) : Outcome PoolError LuaState × World → Prop
  | born {state : LuaState} {next : World} (newborn : state.Newborn world)
      (hstates : next.states = world.states + 1) : Created world (.ok state, next)
  | failed {cause : ScriptError} {next : World} (hstates : next.states = world.states) :
      Created world (.error (.initialization "init hook failed" cause), next)
  | panicked {fault : Fault} {next : World} (hfault : fault.isBreach = false)
      (hstates : next.states = world.states) : Created world (.panic fault, next)

/-- States that were built one after the other, the last one in front; the first of them was built
when there had been `first` states. -/
inductive Batch (first : Nat) : List LuaState → Prop
  | nil : Batch first []
  | cons {state : LuaState} {states : List LuaState} {world : World} (batch : Batch first states)
      (newborn : state.Newborn world) (hworld : world.states = first + states.length) :
      Batch first (state :: states)

theorem Batch.ids_eq {first : Nat} {states : List LuaState} (batch : Batch first states) :
    states.map (·.id) = ((List.range' first states.length).map StateId.mk).reverse := by
  induction batch with
  | nil => rfl
  | cons _ newborn hworld ih =>
      rw [List.map_cons, ih, newborn.id_eq, hworld, List.length_cons, List.range'_concat]
      simp

theorem Batch.rests {first : Nat} {states : List LuaState} (batch : Batch first states)
    {state : LuaState} (h : state ∈ states) : state.serving = false ∧ state.closed = false := by
  induction batch with
  | nil => cases h
  | cons _ newborn _ ih =>
      rcases List.mem_cons.1 h with rfl | h
      · exact ⟨newborn.serving_eq, newborn.closed_eq⟩
      · exact ih h

theorem Batch.count_le {first : Nat} {states : List LuaState} (batch : Batch first states)
    (id : StateId) : (states.map (·.id)).count id ≤ 1 := by
  have hnodup : ((List.range' first states.length).map StateId.mk).Nodup :=
    List.Pairwise.map _ (fun _ _ h heq => h (congrArg StateId.number heq)) List.nodup_range'
  rw [batch.ids_eq, List.count_reverse]
  exact List.nodup_iff_count.1 hnodup id

/-- Its ids are those behind the first one. -/
theorem Batch.mem_range {first : Nat} {states : List LuaState} (batch : Batch first states)
    {state : LuaState} (h : state ∈ states) :
    first ≤ state.id.number ∧ state.id.number < first + states.length := by
  have hmem : state.id ∈ states.map (·.id) := List.mem_map_of_mem h
  rw [batch.ids_eq, List.mem_reverse, List.mem_map] at hmem
  obtain ⟨number, hnumber, heq⟩ := hmem
  rw [← heq]
  simpa using hnumber

theorem states_prepare (hook : Option InitHook) (interp : Script.Interpreter) (world : World) :
    (prepare hook interp world).2.states = world.states := by
  cases hook <;> simp [prepare]

theorem isBreach_prepare (hook : Option InitHook) (interp : Script.Interpreter) (world : World) :
    (prepare hook interp world).1.isBreach = false := by
  cases hook with
  | none => rfl
  | some hook =>
      simp only [prepare]
      split <;> rfl

theorem create_created (parent : Token) (budget idleSeconds : Nat) (options : StateOptions)
    (hook : Option InitHook) (world : World) :
    Created world (create parent budget idleSeconds options hook world) := by
  have hstates := states_prepare hook { options } world
  have hbreach := isBreach_prepare hook { options } world
  unfold create
  split
  · next fault next h =>
      rw [h] at hstates hbreach
      exact .panicked hbreach hstates
  · next cause next h =>
      rw [h] at hstates
      exact .failed hstates
  · next interp next h =>
      replace hstates : next.states = world.states := by simpa [h] using hstates
      split
      · exact .panicked rfl hstates
      · exact .born ⟨by simp [hstates], rfl, rfl, nofun⟩ (by simp [hstates])

end LuaState

namespace Site

inductive Allocated (site : Site) : Outcome PoolError LuaState × Site → Prop
  | born {state : LuaState} {world : World} (newborn : state.Newborn site.world)
      (hstates : world.states = site.world.states + 1) :
      Allocated site
        (.ok state,
          ⟨{ site.pool with length := site.pool.length + 1 }.emit (.created state.id), world⟩)
  | failed {cause : ScriptError} {world : World} (hstates : world.states = site.world.states) :
      Allocated site (.error (.initialization "init hook failed" cause), { site with world })
  | panicked {fault : Fault} {world : World} (hfault : fault.isBreach = false)
      (hstates : world.states = site.world.states) :
      Allocated site (.panic fault, { site with world })

theorem allocate_allocated (site : Site) : Allocated site site.allocate := by
  have created := LuaState.create_created site.pool.root site.pool.config.budget
    site.pool.config.idleSeconds site.pool.config.stateOptions site.pool.hook site.world
  simp only [allocate]
  generalize LuaState.create _ _ _ _ _ _ = result at created
  cases created with
  | born newborn hstates => exact .born newborn hstates
  | failed hstates => exact .failed hstates
  | panicked hfault hstates => exact .panicked hfault hstates

/-! ### Checking out -/

inductive CheckedOut (site : Site) : Outcome PoolError LuaState × Site → Prop
  | refused (haccepts : site.pool.status.accepts = false) :
      CheckedOut site (.error site.pool.refusal, site)
  | full (hidle : site.pool.idle = []) (hcapacity : 0 < site.pool.config.capacity)
      (hlength : site.pool.config.capacity ≤ site.pool.length) :
      CheckedOut site
        (.error (.full site.pool.config.capacity), site.emit (.poolFull site.pool.config.capacity))
  | failed {cause : ScriptError} {world : World} (hstates : world.states = site.world.states) :
      CheckedOut site (.error (.initialization "init hook failed" cause), { site with world })
  | panicked {fault : Fault} {world : World} (hfault : fault.isBreach = false)
      (hstates : world.states = site.world.states) :
      CheckedOut site (.panic fault, { site with world })
  | reused {state : LuaState} {idle : List LuaState}
      (haccepts : site.pool.status.accepts = true) (hidle : site.pool.idle = state :: idle) :
      CheckedOut site
        (.ok ((state.setServing site.world.clock true).countRequest),
          ⟨{ site.pool with
              idle, serving := site.pool.serving + 1, total := site.pool.total + 1 }.emit
              (.acquired state.id), site.world⟩)
  | built {state : LuaState} {world : World}
      (haccepts : site.pool.status.accepts = true) (hidle : site.pool.idle = [])
      (hroom : 0 < site.pool.config.capacity → site.pool.length < site.pool.config.capacity)
      (newborn : state.Newborn site.world) (hstates : world.states = site.world.states + 1) :
      CheckedOut site
        (.ok ((state.setServing world.clock true).countRequest),
          ⟨({ site.pool with
              length := site.pool.length + 1, serving := site.pool.serving + 1,
              total := site.pool.total + 1 }.emit (.created state.id)).emit
              (.acquired state.id), world⟩)

theorem checkOut_checkedOut (site : Site) : CheckedOut site site.checkOut := by
  unfold checkOut
  cases haccepts : site.pool.status.accepts with
  | false => exact .refused haccepts
  | true =>
      simp only [Bool.not_true, Bool.false_eq_true, ↓reduceIte, take]
      cases hidle : site.pool.idle with
      | cons state idle => exact .reused haccepts hidle
      | nil =>
          by_cases hfull : 0 < site.pool.config.capacity ∧
              site.pool.config.capacity ≤ site.pool.length
          · simp only [if_pos hfull]
            exact .full hidle hfull.1 hfull.2
          · simp only [if_neg hfull]
            have allocated := allocate_allocated site
            generalize site.allocate = result at allocated
            cases allocated with
            | born newborn hstates =>
                exact .built haccepts hidle (by omega) newborn hstates
            | failed hstates => exact .failed hstates
            | panicked hfault hstates => exact .panicked hfault hstates

end Site

/-! ### Parting -/

/-- A state as it is between a checkout and its return when nobody touched its serving mark. -/
structure LuaState.Lent (state : LuaState) : Prop where
  serving_eq : state.serving = !state.closed
  since : state.closed = false → ∃ instant, state.servingSince = some instant

theorem LuaState.Lent.touch {state : LuaState} (lent : state.Lent) {id : StateId} {touch : Touch}
    (honest : (Action.touch .pool id touch).honest = true) (world : World) :
    (state.touch world touch).1.Lent := by
  cases touch with
  | close => exact ⟨rfl, nofun⟩
  | count | cancel | run code => exact ⟨lent.serving_eq, lent.since⟩
  | setServing serving => cases honest

theorem LuaState.servingSince_touch (state : LuaState) {id : StateId} {touch : Touch}
    (honest : (Action.touch .pool id touch).honest = true) (world : World)
    (h : (state.touch world touch).1.closed = false) :
    state.closed = false ∧ (state.touch world touch).1.servingSince = state.servingSince := by
  cases touch with
  | close => cases h
  | count | cancel | run code => exact ⟨h, rfl⟩
  | setServing serving => cases honest

/-- A pool one checkout of which has ended. -/
def Pool.released (pool : Pool) : Pool :=
  { pool with
    serving := pool.serving - 1
    parked := pool.parked && pool.serving - 1 != 0 }

theorem Pool.releaseSlot_of_pos {pool : Pool} (h : 0 < pool.serving) :
    pool.releaseSlot = .ok pool.released := by
  simp only [releaseSlot, if_neg (Nat.pos_iff_ne_zero.1 h), released]

namespace Pool

/-- The events of a section are those that it put behind the journal. -/
theorem news_of_append {before after : Pool} {events : List Event}
    (h : after.journal = before.journal ++ events.toArray) : before.news after = events := by
  simp [news, h]

@[simp] theorem news_self (pool : Pool) : pool.news pool = [] :=
  news_of_append (by simp)

theorem tookIn_self {pool : Pool} {id : StateId} (h : id ∉ pool.idle.map (·.id)) :
    pool.tookIn pool id = false := by
  simpa [tookIn] using h

theorem tookIn_of_cleanedUp {before after : Pool} {id : StateId} {reason : CleanupReason}
    (h : after.journal = before.journal.push (.cleanedUp id reason)) :
    before.tookIn after id = true := by
  have hnews : before.news after = [.cleanedUp id reason] := news_of_append (by simp [h])
  simp [tookIn, hnews]

theorem tookIn_of_mem {before after : Pool} {id : StateId} (h : id ∈ after.idle.map (·.id)) :
    before.tookIn after id = true := by
  obtain ⟨state, hstate, rfl⟩ := List.mem_map.1 h
  simp only [tookIn, Bool.or_eq_true, List.any_eq_true, decide_eq_true_eq]
  exact .inl ⟨state, hstate, rfl⟩

end Pool

namespace Site

/-- A pool to which a state came back to be closed. -/
def retired (site : Site) (state : LuaState) (reason : CleanupReason) : Site :=
  ⟨{ site.pool.released with length := site.pool.length - 1 }.emit (.cleanedUp state.id reason),
    (state.close site.world).2⟩

/-- A pool to which a state came back that was checked out at an instant. -/
def requeued (site : Site) (state : LuaState) (instant : Int) : Site :=
  { site with
    pool := { site.pool.released with
      idle := state.setServing site.world.clock false :: site.pool.idle }.emit
        (.released state.id (site.world.clock.since instant)) }

inductive Parted (site : Site) (state : LuaState) : Outcome PoolError Unit × Site → Prop
  | kept {result : Outcome PoolError Unit} {world : World} (hresult : result.isBreach = false)
      (hstates : world.states = site.world.states) :
      Parted site state (result, { site with world })
  | retired {result : Outcome PoolError Unit} {reason : CleanupReason} {world : World}
      (hresult : result.isBreach = false) (hclosed : state.closed = false)
      (hstates : world.states = site.world.states) :
      Parted site state
        (result,
          ⟨{ site.pool.released with length := site.pool.length - 1 }.emit
              (.cleanedUp state.id reason), world⟩)
  | recycled {result : Outcome PoolError Unit} {instant : Int} (hresult : result.isBreach = false)
      (hclosed : state.closed = false) (haccepts : site.pool.status.accepts = true)
      (hsince : state.servingSince = some instant) :
      Parted site state
        (result,
          { site with
            pool := { site.pool.released with
              idle := state.setServing site.world.clock false :: site.pool.idle }.emit
                (.released state.id (site.world.clock.since instant)) })

variable {site : Site} {state : LuaState}

theorem retire_eq (hmark : state.serving = true) (hserving : 0 < site.pool.serving)
    (hlength : 0 < site.pool.length) (reason : CleanupReason) :
    site.retire state reason = (.ok (), site.retired state reason) := by
  have hlength' : site.pool.released.length ≠ 0 := Nat.pos_iff_ne_zero.1 hlength
  simp only [retire, hmark, ↓reduceIte, Pool.releaseSlot_of_pos hserving, if_neg hlength']
  rfl

theorem recycle_eq (hmark : state.serving = true) {instant : Int}
    (hsince : state.servingSince = some instant) (hserving : 0 < site.pool.serving) :
    site.recycle state = (.ok (), site.requeued state instant) := by
  simp only [recycle, hmark, ↓reduceIte, Pool.releaseSlot_of_pos hserving, LuaState.servingFor,
    hsince, Option.map_some]
  rfl

theorem retire_parted (lent : state.Lent) (hclosed : state.closed = false)
    (hserving : 0 < site.pool.serving) (hlength : 0 < site.pool.length) (reason : CleanupReason)
    (otherwise : Outcome PoolError Unit) (hotherwise : otherwise.isBreach = false) :
    Parted site state
      (conclude (site.retire state reason).1 otherwise, (site.retire state reason).2) := by
  have hmark : state.serving = true := by simp [lent.serving_eq, hclosed]
  rw [retire_eq hmark hserving hlength]
  exact .retired hotherwise hclosed rfl

theorem recycle_parted (lent : state.Lent) (hclosed : state.closed = false)
    (haccepts : site.pool.status.accepts = true) (hserving : 0 < site.pool.serving)
    (otherwise : Outcome PoolError Unit) (hotherwise : otherwise.isBreach = false) :
    Parted site state (conclude (site.recycle state).1 otherwise, (site.recycle state).2) := by
  have hmark : state.serving = true := by simp [lent.serving_eq, hclosed]
  obtain ⟨instant, hsince⟩ := lent.since hclosed
  rw [recycle_eq hmark hsince hserving]
  exact .recycled hotherwise hclosed haccepts hsince

theorem put_parted (lent : state.Lent) (hserving : 0 < site.pool.serving)
    (hlength : 0 < site.pool.length) : Parted site state (site.put state) := by
  unfold put
  cases hclosed : state.closed with
  | true => exact .kept rfl rfl
  | false =>
      simp only [Bool.false_eq_true, ↓reduceIte]
      cases haccepts : site.pool.status.accepts with
      | false => exact retire_parted lent hclosed hserving hlength .rejected _ rfl
      | true =>
          simp only [Bool.not_true, Bool.false_eq_true, ↓reduceIte]
          split
          · exact .kept rfl rfl
          · exact retire_parted lent hclosed hserving hlength _ _ rfl
          · split
            · exact retire_parted lent hclosed hserving hlength _ _ rfl
            · exact recycle_parted lent hclosed haccepts hserving _ rfl

theorem close_parted (lent : state.Lent) (hserving : 0 < site.pool.serving)
    (hlength : 0 < site.pool.length) (reason : CleanupReason) :
    Parted site state
      (conclude (site.close state reason).1 (.ok ()), (site.close state reason).2) := by
  unfold close
  cases hclosed : state.closed with
  | true =>
      have hmark : state.serving = false := by simp [lent.serving_eq, hclosed]
      simp only [hmark, Bool.not_false, ↓reduceIte]
      exact .kept rfl rfl
  | false =>
      have hmark : state.serving = true := by simp [lent.serving_eq, hclosed]
      simp only [hmark, Bool.not_true, Bool.false_eq_true, ↓reduceIte]
      exact retire_parted lent hclosed hserving hlength reason _ rfl

/-- A dropped guard gives its state back; only the answer differs. -/
theorem dropGuard_parted (lent : state.Lent) (hserving : 0 < site.pool.serving)
    (hlength : 0 < site.pool.length) :
    Parted site state
      (conclude (site.dropGuard state).1 (.ok ()), (site.dropGuard state).2) := by
  have parted := put_parted lent hserving hlength
  unfold dropGuard
  generalize site.put state = result at parted
  cases parted with
  | kept hresult hstates => cases ‹Outcome PoolError Unit› <;> exact .kept hresult hstates
  | retired hresult hclosed hstates =>
      cases ‹Outcome PoolError Unit› <;> exact .retired hresult hclosed hstates
  | recycled hresult hclosed haccepts hsince =>
      cases ‹Outcome PoolError Unit› <;> exact .recycled hresult hclosed haccepts hsince

end Site

theorem Parting.perform_parted {site : Site} {state : LuaState} (parting : Parting)
    (lent : state.Lent) (hserving : 0 < site.pool.serving) (hlength : 0 < site.pool.length) :
    Site.Parted site state (parting.perform site state) := by
  cases parting with
  | put => exact Site.put_parted lent hserving hlength
  | close => exact Site.close_parted lent hserving hlength .discarded
  | dropGuard => exact Site.dropGuard_parted lent hserving hlength
  | unwindGuard => exact Site.close_parted lent hserving hlength .scriptFailure
  | fail => exact Site.close_parted lent hserving hlength .scriptFailure
  | drop => exact .kept rfl rfl

/-! ### Draining -/

namespace Site

/-- What is reported when idle states are closed. -/
def farewells (idle : List LuaState) : List Event :=
  idle.map fun state => .cleanedUp state.id .shutdown

theorem closeIdle_eq (site : Site) (idle : List LuaState) :
    ∃ world, world.states = site.world.states ∧
      site.closeIdle idle =
        ⟨{ site.pool with journal := site.pool.journal ++ (farewells idle).toArray }, world⟩ := by
  induction idle generalizing site with
  | nil => exact ⟨site.world, rfl, by simp [closeIdle, farewells]⟩
  | cons state idle ih =>
      obtain ⟨world, hstates, heq⟩ :=
        ih ⟨site.pool.emit (.cleanedUp state.id .shutdown), (state.close site.world).2⟩
      refine ⟨world, hstates.trans rfl, heq.trans ?_⟩
      simp [Pool.emit, farewells]

inductive Exited (site : Site) : Option (Outcome Empty Unit) × Site → Prop
  | asleep (hserving : 0 < site.pool.serving) :
      Exited site (none, { site with pool := { site.pool with parked := true } })
  | complete {world : World} (hserving : site.pool.serving = 0)
      (hstates : world.states = site.world.states) :
      Exited site
        (some (.ok ()),
          ⟨{ site.pool with
              idle := []
              length := 0
              journal := site.pool.journal ++ (farewells site.pool.idle.reverse).toArray },
            world⟩)

theorem exit_exited (site : Site)
    (hlength : site.pool.serving = 0 → site.pool.length = site.pool.idle.length) :
    Exited site site.exit := by
  unfold exit
  by_cases hserving : 0 < site.pool.serving
  · simp only [if_pos hserving]
    exact .asleep hserving
  · have hzero : site.pool.serving = 0 := by omega
    have heven := hlength hzero
    obtain ⟨world, hstates, heq⟩ := closeIdle_eq
      { site with pool := { site.pool with idle := [] } } site.pool.idle.reverse
    simp only [if_neg hserving, if_pos heven, heq]
    exact .complete hzero hstates

end Site

/-! ### Seeding -/

/-- A pool after states were built ahead of any request. -/
def Pool.withSeeds (pool : Pool) (born : List LuaState) : Pool :=
  { pool with
    idle := born ++ pool.idle
    length := pool.length + born.length
    journal := pool.journal ++ (born.reverse.map fun state => Event.created state.id).toArray }

namespace Site

/-- The outcomes of building states ahead of any request; those built before a failure stay. -/
inductive Seeded (site : Site) (count : Nat) : Outcome PoolError Unit × Site → Prop
  | complete {born : List LuaState} {world : World} (batch : LuaState.Batch site.world.states born)
      (hstates : world.states = site.world.states + born.length) (hcount : born.length = count) :
      Seeded site count (.ok (), ⟨site.pool.withSeeds born, world⟩)
  | failed {cause : ScriptError} {born : List LuaState} {world : World}
      (batch : LuaState.Batch site.world.states born)
      (hstates : world.states = site.world.states + born.length) (hcount : born.length < count) :
      Seeded site count
        (.error (.initialization "init hook failed" cause), ⟨site.pool.withSeeds born, world⟩)
  | panicked {fault : Fault} {born : List LuaState} {world : World}
      (hfault : fault.isBreach = false) (batch : LuaState.Batch site.world.states born)
      (hstates : world.states = site.world.states + born.length) (hcount : born.length < count) :
      Seeded site count (.panic fault, ⟨site.pool.withSeeds born, world⟩)

theorem allocate_withSeeds (pool : Pool) (born : List LuaState) (state : LuaState) :
    { ({ pool.withSeeds born with length := (pool.withSeeds born).length + 1 }.emit
        (.created state.id)) with idle := state :: (pool.withSeeds born).idle } =
      pool.withSeeds (state :: born) := by
  simp [Pool.withSeeds, Pool.emit, Nat.add_assoc]

/-- The states built so far are carried along the recursion. -/
theorem seed_withSeeds (site : Site) {born : List LuaState} {world : World}
    (batch : LuaState.Batch site.world.states born)
    (hstates : world.states = site.world.states + born.length) (count : Nat) :
    Seeded site (born.length + count) (seed ⟨site.pool.withSeeds born, world⟩ count) := by
  induction count generalizing born world with
  | zero => exact .complete batch hstates rfl
  | succ count ih =>
      simp only [seed]
      have allocated := allocate_allocated ⟨site.pool.withSeeds born, world⟩
      generalize allocate _ = result at allocated
      cases allocated with
      | @born state next newborn hnext =>
          have hcount : born.length + (count + 1) = (state :: born).length + count := by
            simp only [List.length_cons]
            omega
          have hborn : next.states = site.world.states + (state :: born).length := by
            simp only [hnext, hstates, List.length_cons]
            omega
          have rest := ih (batch.cons newborn hstates) hborn
          rw [← allocate_withSeeds] at rest
          rw [hcount]
          exact rest
      | failed hnext => exact .failed batch (hnext.trans hstates) (by omega)
      | panicked hfault hnext => exact .panicked hfault batch (hnext.trans hstates) (by omega)

theorem seed_seeded (site : Site) (count : Nat) : Seeded site count (site.seed count) := by
  have hnone : site.pool.withSeeds [] = site.pool := by simp [Pool.withSeeds]
  have seeded := seed_withSeeds site .nil rfl count
  rw [hnone] at seeded
  simpa using seeded

end Site

/-- A pool without states. -/
structure Pool.Drained (pool : Pool) : Prop where
  idle_eq : pool.idle = []
  length_eq : pool.length = 0
  serving_eq : pool.serving = 0

/-- A pool at the beginning of a life, before its first state is built. -/
def Pool.revived (pool : Pool) (root : Token) : Pool :=
  { pool with root, status := .running }.emit (.statusChanged pool.status .running)

theorem Site.start_of_drained (site : Site) (root : Token) (drained : site.pool.Drained)
    (hstatus : site.pool.status = .exiting ∨ site.pool.status = .ready) :
    site.start root = seed { site with pool := site.pool.revived root } site.pool.config.seeds := by
  obtain ⟨pool, world⟩ := site
  obtain ⟨hidle, hlength, hserving⟩ := drained
  simp only at hidle hlength hserving hstatus
  rcases hstatus with hstatus | hstatus <;>
    simp [start, hidle, hlength, hserving, hstatus, setStatus, Pool.setStatus, Pool.revived,
      Status.canBecome]

end StatePool
