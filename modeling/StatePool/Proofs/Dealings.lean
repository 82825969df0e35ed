import StatePool.Proofs.Births
import StatePool.Proofs.Slots

/-!
Where the states of a pool can go.

Callers give the pool only what they have from it, and treat that as they like.  Whatever they do, a
state that waits was born in the pool or is one that came back with its budget not used up, and only
a pool without a budget closes any for its age.
-/

namespace StatePool

/-- Between two moments of a pool, a state was closed for its age only if there is no budget. -/
def Pool.Ageless (before after : Pool) : Prop :=
  ∀ id, .cleanedUp id .idleTimeout ∈ after.journal →
    before.config.budget = 0 ∨ .cleanedUp id .idleTimeout ∈ before.journal

namespace Pool.Ageless

variable {pool after : Pool}

theorem of_eq (h : after.journal = pool.journal) : pool.Ageless after := by
  intro id hid
  rw [h] at hid
  exact .inr hid

theorem of_append {events : List Event} (h : after.journal = pool.journal ++ events.toArray)
    (hevents : ∀ id, .cleanedUp id .idleTimeout ∈ events → pool.config.budget = 0) :
    pool.Ageless after := by
  intro id hid
  rw [h, Array.mem_append] at hid
  rcases hid with hid | hid
  · exact .inr hid
  · exact .inl (hevents id (by simpa using hid))

theorem of_push {event : Event} (h : after.journal = pool.journal.push event)
    (hevent : ∀ id, event = .cleanedUp id .idleTimeout → pool.config.budget = 0) :
    pool.Ageless after := by
  intro id hid
  rw [h, Array.mem_push] at hid
  rcases hid with hid | heq
  · exact .inr hid
  · exact .inl (hevent id heq.symm)

theorem setStatus (pool : Pool) (target : Status) : pool.Ageless (pool.setStatus target) := by
  rcases pool.setStatus_eq target with h | ⟨-, h⟩
  · rw [h]
    exact of_eq rfl
  · rw [h]
    exact of_push rfl nofun

end Pool.Ageless

theorem Pool.hook_setStatus (pool : Pool) (target : Status) :
    (pool.setStatus target).hook = pool.hook := by
  rcases pool.setStatus_eq target with h | ⟨-, h⟩
  · rw [h]
  · rw [h]
    rfl

namespace Site

variable {site after : Site} {state : LuaState}

/-- What became of a state that was given back, or of one that was let go. -/
structure Disposed (site : Site) (state : LuaState) (after : Site) : Prop where
  config_eq : after.pool.config = site.pool.config
  states_eq : after.world.states = site.world.states
  idle_cases : after.pool.idle = site.pool.idle ∨
    after.pool.idle = state.setServing site.world.clock false :: site.pool.idle ∧
      state.mustTerminate site.world.clock = .ok false
  ageless : site.pool.Ageless after.pool

theorem releaseSlot_same {pool next : Pool}
    (h : (if state.serving then pool.releaseSlot else .ok pool) = .ok next) :
    next.config = pool.config ∧ next.root = pool.root ∧ next.idle = pool.idle ∧
      next.journal = pool.journal := by
  split at h
  · unfold Pool.releaseSlot at h
    split at h
    · cases h
    · cases h
      exact ⟨rfl, rfl, rfl, rfl⟩
  · cases h
    exact ⟨rfl, rfl, rfl, rfl⟩

theorem retire_disposed {reason : CleanupReason}
    (hreason : reason = .idleTimeout → site.pool.config.budget = 0) :
    Disposed site state (site.retire state reason).2 := by
  unfold retire
  simp only
  split
  · exact ⟨rfl, rfl, .inl rfl, .of_eq rfl⟩
  · next pool hreleased =>
      obtain ⟨hconfig, -, hidle, hjournal⟩ := releaseSlot_same hreleased
      split
      · exact ⟨hconfig, rfl, .inl hidle, .of_eq hjournal⟩
      · refine ⟨hconfig, rfl, .inl hidle, .of_push (congrArg (Array.push · _) hjournal) ?_⟩
        intro id heq
        cases heq
        exact hreason rfl

theorem recycle_disposed (hjudged : state.mustTerminate site.world.clock = .ok false) :
    Disposed site state (site.recycle state).2 := by
  unfold recycle
  simp only
  split
  · exact ⟨rfl, rfl, .inl rfl, .of_eq rfl⟩
  · next pool hreleased =>
      obtain ⟨hconfig, -, hidle, hjournal⟩ := releaseSlot_same hreleased
      split
      · exact ⟨hconfig, rfl, .inr ⟨congrArg _ hidle, hjudged⟩,
          .of_push (congrArg (Array.push · _) hjournal) nofun⟩
      · exact ⟨hconfig, rfl, .inr ⟨congrArg _ hidle, hjudged⟩, .of_eq hjournal⟩

theorem put_disposed (site : Site) (state : LuaState) : Disposed site state (site.put state).2 := by
  unfold put
  split
  · exact ⟨rfl, rfl, .inl rfl, .of_eq rfl⟩
  · split
    · exact retire_disposed nofun
    · split
      · exact ⟨rfl, rfl, .inl rfl, .of_eq rfl⟩
      · refine retire_disposed ?_
        unfold Pool.retirementReason
        split
        · nofun
        · intro _
          omega
      · next hjudged =>
          split
          · exact retire_disposed nofun
          · exact recycle_disposed hjudged

theorem close_disposed {reason : CleanupReason} (hreason : reason ≠ .idleTimeout) :
    Disposed site state (site.close state reason).2 := by
  unfold close
  split
  · exact ⟨rfl, rfl, .inl rfl, .of_eq rfl⟩
  · exact retire_disposed fun h => absurd h hreason

/-- All that waits was built for this pool since an earlier moment. -/
structure Stocked (site after : Site) : Prop where
  batch : LuaState.Batch site.world.states after.pool.idle
  states_eq : after.world.states = site.world.states + after.pool.idle.length
  bore : ∀ state ∈ after.pool.idle, site.Bore state

/-- What a section of a lifecycle call does to those that wait: nothing, or there are new ones in
their place, if any. -/
structure Turned (site after : Site) : Prop where
  config_eq : after.pool.config = site.pool.config
  states_le : site.world.states ≤ after.world.states
  idle_cases : after.pool.idle = site.pool.idle ∨ site.Stocked after
  ageless : site.pool.Ageless after.pool

theorem Turned.refl (site : Site) : site.Turned site :=
  ⟨rfl, Nat.le_refl _, .inl rfl, .of_eq rfl⟩

theorem setStatus_turned (site : Site) (target : Status) : site.Turned (site.setStatus target) := by
  refine ⟨?_, Nat.le_refl _, .inl (Pool.idle_setStatus site.pool target), .setStatus _ _⟩
  unfold setStatus
  rcases site.pool.setStatus_eq target with h | ⟨-, h⟩
  · rw [h]
  · rw [h]
    rfl

theorem exit_turned (site : Site) : site.Turned site.exit.2 := by
  unfold exit
  simp only
  split
  · exact ⟨rfl, Nat.le_refl _, .inl rfl, .of_eq rfl⟩
  · obtain ⟨world, hstates, heq⟩ := closeIdle_eq
      { site with pool := { site.pool with idle := [] } } site.pool.idle.reverse
    have hfarewells : ∀ id, Event.cleanedUp id .idleTimeout ∈ farewells site.pool.idle.reverse →
        site.pool.config.budget = 0 := by
      simp [farewells]
    simp only [heq]
    split
    · exact ⟨rfl, Nat.le_of_eq hstates.symm, .inr ⟨.nil, hstates, List.forall_mem_nil _⟩,
        .of_append rfl hfarewells⟩
    · exact ⟨rfl, Nat.le_of_eq hstates.symm, .inr ⟨.nil, hstates, List.forall_mem_nil _⟩,
        .of_append rfl hfarewells⟩

theorem seed_stocked (hidle : site.pool.idle = []) (count : Nat) :
    let next := (site.seed count).2
    next.pool.config = site.pool.config ∧ site.Stocked next ∧ site.pool.Ageless next.pool := by
  have seeded := site.seed_seeded count
  have hbore := site.seed_bore count
  have hborn {born : List LuaState} {world : World}
      (batch : LuaState.Batch site.world.states born)
      (hstates : world.states = site.world.states + born.length)
      (hbore : ∀ state ∈ (site.pool.withSeeds born).idle,
        state ∈ site.pool.idle ∨ site.Bore state) :
      site.Stocked ⟨site.pool.withSeeds born, world⟩ ∧
        site.pool.Ageless (site.pool.withSeeds born) := by
    have hwithSeeds : (site.pool.withSeeds born).idle = born := by
      simp [Pool.withSeeds, hidle]
    refine ⟨⟨by rwa [hwithSeeds], by rwa [hwithSeeds], ?_⟩, .of_append rfl (by simp)⟩
    intro state hstate
    rcases hbore state hstate with h | bore
    · rw [hidle] at h
      cases h
    · exact bore
  generalize site.seed count = result at seeded hbore
  cases seeded with
  | complete batch hstates => exact ⟨rfl, hborn batch hstates hbore⟩
  | failed batch hstates => exact ⟨rfl, hborn batch hstates hbore⟩
  | panicked _ batch hstates => exact ⟨rfl, hborn batch hstates hbore⟩

theorem states_foldl_forget (states : List LuaState) (site : Site) :
    (states.foldl forget site).world.states = site.world.states := by
  induction states generalizing site with
  | nil => rfl
  | cons state states ih => exact ih (site.forget state)

theorem start_turned (site : Site) (root : Token) : site.Turned (site.start root).2 := by
  unfold start
  split
  · exact .refl site
  · simp only
    have hpool := Slots.pool_forget site.pool.idle site
    have hstates := states_foldl_forget site.pool.idle site
    generalize site.pool.idle.foldl forget site = emptied at hpool hstates
    rw [hpool]
    have moved := setStatus_turned
      ⟨{ site.pool with idle := [], length := 0, root }, emptied.world⟩ .running
    have hnil : (Site.setStatus ⟨{ site.pool with idle := [], length := 0, root }, emptied.world⟩
        .running).pool.idle = [] :=
      Pool.idle_setStatus _ _
    have hhook : (Site.setStatus ⟨{ site.pool with idle := [], length := 0, root }, emptied.world⟩
        .running).pool.hook = site.pool.hook :=
      Pool.hook_setStatus _ _
    have hworld : (Site.setStatus ⟨{ site.pool with idle := [], length := 0, root },
      emptied.world⟩ .running).world = emptied.world := rfl
    generalize Site.setStatus _ _ = opened at moved hnil hhook hworld
    obtain ⟨hconfig, stocked, hageless⟩ := seed_stocked hnil site.pool.config.seeds
    generalize (opened.seed site.pool.config.seeds).2 = after at hconfig stocked hageless
    have hopened : opened.pool.config = site.pool.config := moved.config_eq
    have hsame : opened.world.states = site.world.states := by rw [hworld, hstates]
    refine ⟨hconfig.trans hopened, ?_, .inr ⟨?_, ?_, ?_⟩, ?_⟩
    · rw [stocked.states_eq, hsame]
      omega
    · rw [← hsame]
      exact stocked.batch
    · rw [← hsame]
      exact stocked.states_eq
    · exact fun state h => (stocked.bore state h).congr hhook hopened
    · intro id hid
      rcases hageless id hid with hbudget | hid
      · rw [hopened] at hbudget
        exact .inl hbudget
      · exact moved.ageless id hid

end Site

theorem LifecycleRun.step_turned (run : LifecycleRun) (site : Site) :
    site.Turned (run.step site).2 := by
  have hdrain (next : Phase) : site.Turned (run.drain next site).2 := by
    have exited := site.exit_turned
    unfold drain
    split
    · exact .refl site
    · generalize site.exit = result at exited
      rcases result with ⟨_ | (_ | e | fault), after⟩
      · exact exited
      · exact exited
      · exact e.elim
      · exact exited
  obtain ⟨call, phase⟩ := run
  cases phase with
  | entering =>
      cases call with
      | restart root =>
          simp only [step]
          split <;> exact .refl site
      | shutdown | terminate => exact .refl site
  | closing | undoing e => exact site.setStatus_turned .exiting
  | draining | undoDraining e => exact hdrain _
  | starting root =>
      simp only [step]
      split <;> exact .refl site
  | seeding root =>
      simp only [step]
      split
      · exact .refl site
      · have started := site.start_turned root
        generalize site.start root = result at started
        rcases result with ⟨_ | e | fault, after⟩ <;> exact started
  | sealing => exact site.setStatus_turned .dead
  | done result => exact .refl site

theorem Parting.perform_disposed (parting : Parting) (site : Site) (state : LuaState) :
    site.Disposed state (parting.perform site state).2 := by
  cases parting with
  | put => exact site.put_disposed state
  | dropGuard =>
      simp only [perform, Site.pool_dropGuard]
      exact site.put_disposed state
  | close | unwindGuard | fail => exact Site.close_disposed (by decide)
  | drop => exact ⟨rfl, rfl, .inl rfl, .of_eq rfl⟩

/-! ### Everybody at once -/

namespace System

variable {sys : System}

/-- What an action does to the states that wait and to those that are held. -/
inductive Moved (sys : System) : Report × System → Prop
  | still {report : Report} {after : System} (hgrant : report.isGrant = false)
      (hidle : after.site.pool.idle = sys.site.pool.idle) (hheld : after.held = sys.held) :
      Moved sys (report, after)
  | touched {after : System} {state : LuaState} {rest : List LuaState} {touch : Touch}
      (hperm : sys.held.Perm (state :: rest))
      (hidle : after.site.pool.idle = sys.site.pool.idle)
      (hheld : after.held = (state.touch sys.site.world touch).1 :: rest) :
      Moved sys (.done, after)
  | reused {after : System} {state : LuaState}
      (hidle : sys.site.pool.idle = state :: after.site.pool.idle)
      (hheld : after.held =
        (state.setServing sys.site.world.clock true).countRequest :: sys.held) :
      Moved sys (.granted (state.setServing sys.site.world.clock true).countRequest, after)
  | built {after : System} {state : LuaState} (hidle : sys.site.pool.idle = [])
      (hnone : after.site.pool.idle = []) (hid : state.id = ⟨sys.site.world.states⟩)
      (hstates : after.site.world.states = sys.site.world.states + 1)
      (hrequested : state.requested = 1) (hbudget : state.budget = sys.site.pool.config.budget)
      (hheld : after.held = state :: sys.held) : Moved sys (.granted state, after)
  | parted {report : Report} {after : System} {state : LuaState} {rest : List LuaState}
      (hgrant : report.isGrant = false) (hperm : sys.held.Perm (state :: rest))
      (hheld : after.held = rest) (h : sys.site.Disposed state after.site) :
      Moved sys (report, after)
  | turned {report : Report} {after : System} (hgrant : report.isGrant = false)
      (hheld : after.held = sys.held) (h : sys.site.Turned after.site) :
      Moved sys (report, after)

structure Dealt (sys : System) (answer : Report × System) : Prop where
  budget_eq : answer.2.site.pool.config.budget = sys.site.pool.config.budget
  states_le : sys.site.world.states ≤ answer.2.site.world.states
  ageless : sys.site.pool.Ageless answer.2.site.pool
  moved : sys.Moved answer

theorem Dealt.still {report : Report} {after : System} (hgrant : report.isGrant = false)
    (hpool : after.site.pool = sys.site.pool) (hheld : after.held = sys.held)
    (hstates : sys.site.world.states ≤ after.site.world.states) : sys.Dealt (report, after) where
  budget_eq := by rw [hpool]
  states_le := hstates
  ageless := .of_eq (by rw [hpool])
  moved := .still hgrant (by rw [hpool]) hheld

/-- Taking note of an action moves nothing. -/
theorem Dealt.note {answer : Report × System} (dealt : sys.Dealt answer) :
    sys.Dealt (answer.1, sys.note answer.2) where
  budget_eq := dealt.budget_eq
  states_le := dealt.states_le
  ageless := dealt.ageless
  moved := by
    cases dealt.moved with
    | still hgrant hidle hheld => exact .still hgrant hidle hheld
    | touched hperm hidle hheld => exact .touched hperm hidle hheld
    | reused hidle hheld => exact .reused hidle hheld
    | built hidle hnone hid hstates hrequested hbudget hheld =>
        exact .built hidle hnone hid hstates hrequested hbudget hheld
    | parted hgrant hperm hheld disposed =>
        exact .parted hgrant hperm hheld { disposed with }
    | turned hgrant hheld turned =>
        refine .turned hgrant hheld { turned with idle_cases := ?_ }
        rcases turned.idle_cases with h | stocked
        · exact .inl h
        · exact .inr { stocked with }

theorem Dealt.ifOpen {next : Report × System} (h : sys.isOpen = true → sys.Dealt next) :
    sys.Dealt (sys.ifOpen next) := by
  unfold System.ifOpen
  split
  · next hopen => exact h hopen
  · exact .still rfl rfl rfl (Nat.le_refl _)

theorem grant_dealt {result : Outcome PoolError LuaState} {site : Site}
    (hcheck : sys.site.checkOut = (result, site)) : sys.Dealt (sys.grant (result, site)) := by
  have checked := sys.site.checkOut_checkedOut
  have hraised (state : LuaState) (hresult : result = .ok state) :=
    Site.checkOut_raised (hresult ▸ hcheck)
  rw [hcheck] at checked
  cases checked with
  | refused => exact .still rfl rfl rfl (Nat.le_refl _)
  | full hidle =>
      exact ⟨rfl, Nat.le_refl _, .of_push rfl nofun, .still rfl rfl rfl⟩
  | failed hstates | panicked _ hstates =>
      exact .still rfl rfl rfl (Nat.le_of_eq hstates.symm)
  | reused haccepts hidle =>
      exact ⟨rfl, Nat.le_refl _, .of_push rfl nofun, .reused hidle rfl⟩
  | @built state world haccepts hidle _ newborn hstates =>
      obtain ⟨born, raised, heq⟩ := hraised _ rfl hidle
      have hrequested := congrArg LuaState.requested heq
      have hbudget := congrArg LuaState.budget heq
      refine ⟨rfl, ?_, ?_, .built hidle hidle newborn.id_eq hstates ?_ ?_ rfl⟩
      · simp only [grant, hstates]
        exact Nat.le_succ _
      · have hjournal : (sys.site.pool.journal.push (.created state.id)).push (.acquired state.id) =
            sys.site.pool.journal ++ [Event.created state.id, .acquired state.id].toArray :=
          Array.ext' (by simp)
        exact .of_append hjournal (by simp)
      · rw [hrequested]
        simp [LuaState.countRequest, LuaState.setServing, raised.requested_eq]
      · rw [hbudget]
        exact raised.budget_eq

theorem part_dealt {origin : Origin} {id : StateId} {parting : Parting}
    (faithful : (Action.part origin id parting).faithful = true) :
    sys.Dealt (sys.part origin id parting) := by
  unfold part
  split
  · exact .still rfl rfl rfl (Nat.le_refl _)
  · next state rest hpick =>
      cases origin with
      | pool =>
          have disposed := parting.perform_disposed sys.site state
          exact ⟨congrArg Config.budget disposed.config_eq, Nat.le_of_eq disposed.states_eq.symm,
            disposed.ageless,
            .parted Report.isGrant_ofOutcome (perm_of_pick hpick).2 rfl disposed⟩
      | caller =>
          -- A state of its own a caller can only drop, which the pool does not see.
          simp only [Action.faithful, decide_eq_true_eq] at faithful
          subst faithful
          exact .still rfl rfl rfl (Nat.le_refl _)

theorem act_dealt {action : Action} (faithful : action.faithful = true) :
    sys.Dealt (sys.act action) := by
  cases action with
  | tick | context | entrust | cancel => exact .still rfl rfl rfl (Nat.le_refl _)
  | build parent budget idleSeconds options hook =>
      have created := LuaState.create_created parent budget idleSeconds options hook sys.site.world
      simp only [System.act, System.build]
      generalize LuaState.create _ _ _ _ _ _ = result at created
      cases created with
      | born _ hstates =>
          refine .still rfl rfl rfl ?_
          simp only [withWorld, hstates]
          exact Nat.le_succ _
      | failed hstates | panicked _ hstates =>
          exact .still rfl rfl rfl (Nat.le_of_eq hstates.symm)
  | touch origin id touch =>
      simp only [System.act, System.touch]
      split
      · exact .still rfl rfl rfl (Nat.le_refl _)
      · next state rest hpick =>
          have hstates := Nat.le_of_eq (state.states_touch sys.site.world touch).symm
          cases origin with
          | pool =>
              have hperm := (perm_of_pick hpick).2
              exact ⟨rfl, hstates, .of_eq rfl, @Moved.touched _ _ _ _ touch hperm rfl rfl⟩
          | caller => exact .still rfl rfl rfl hstates
  | get request =>
      refine .ifOpen fun _ => ?_
      unfold Site.get
      split
      · exact .still rfl rfl rfl (Nat.le_refl _)
      · exact grant_dealt rfl
  | checkOut => exact .ifOpen fun _ => grant_dealt rfl
  | part origin id parting => exact .ifOpen fun _ => part_dealt faithful
  | setStateOptions options =>
      exact .ifOpen fun _ => ⟨rfl, Nat.le_refl _, .of_eq rfl, .still rfl rfl rfl⟩
  | look | call => exact .ifOpen fun _ => .still rfl rfl rfl (Nat.le_refl _)
  | advance index =>
      simp only [System.act, System.advance]
      split
      · exact .still rfl rfl rfl (Nat.le_refl _)
      · next run hcall =>
          split
          · split
            · exact .still rfl rfl rfl (Nat.le_refl _)
            · have turned := run.step_turned sys.site
              exact ⟨congrArg Config.budget turned.config_eq, turned.states_le, turned.ageless,
                .turned (LifecycleRun.isGrant_report _) rfl turned⟩
          · split <;> exact .still rfl rfl rfl (Nat.le_refl _)

theorem step_dealt {action : Action} (faithful : action.faithful = true) :
    sys.Dealt (sys.step action) :=
  (act_dealt faithful).note

end System

/-! ### What all states of a pool have in common -/

/-- A property of states that handing them out and taking them back does not end. -/
structure LuaState.Lasting (Q : LuaState → Prop) : Prop where
  setServing : ∀ (state : LuaState) (clock : Clock) (serving : Bool), Q state →
    Q (state.setServing clock serving)
  countRequest : ∀ state : LuaState, Q state → Q state.countRequest

namespace System

/-- All states that wait and all that are held have a property. -/
structure Common (sys : System) (Q : LuaState → Prop) : Prop where
  idle : ∀ state ∈ sys.site.pool.idle, Q state
  held : ∀ state ∈ sys.held, Q state

namespace Common

variable {sys : System} {Q : LuaState → Prop}

theorem ifOpen (common : sys.Common Q) {answer : Report × System} (h : answer.2.Common Q) :
    (sys.ifOpen answer).2.Common Q := by
  unfold System.ifOpen
  split
  · exact h
  · exact common

theorem touch (common : sys.Common Q) (origin : Origin) (id : StateId) {touch : Touch}
    (htouch : origin = .pool → ∀ state, Q state → Q (state.touch sys.site.world touch).1) :
    (sys.touch origin id touch).2.Common Q := by
  unfold System.touch
  cases hpick : pick id (sys.states origin) with
  | none => exact common
  | some found =>
      obtain ⟨state, rest⟩ := found
      cases origin with
      | pool =>
          have hperm : sys.held.Perm (state :: rest) := (perm_of_pick hpick).2
          have hheld : ∀ other ∈ state :: rest, Q other :=
            fun other h => common.held other (hperm.mem_iff.2 h)
          rw [List.forall_mem_cons] at hheld
          exact ⟨common.idle, List.forall_mem_cons.2 ⟨htouch rfl state hheld.1, hheld.2⟩⟩
      | caller => exact ⟨common.idle, common.held⟩

theorem grant (common : sys.Common Q) (lasting : LuaState.Lasting Q)
    (hbore : ∀ state, sys.site.Bore state → Q state) :
    (sys.grant sys.site.checkOut).2.Common Q := by
  have hbirth (state : LuaState) (after : Site) (hidle : sys.site.pool.idle = [])
      (h : sys.site.checkOut = (.ok state, after)) := Site.checkOut_birth h hidle
  have checked := sys.site.checkOut_checkedOut
  generalize sys.site.checkOut = answer at checked hbirth
  cases checked with
  | refused | full | failed | panicked => exact ⟨common.idle, common.held⟩
  | @reused state idle _ hidle =>
      have hwaits := common.idle
      rw [hidle, List.forall_mem_cons] at hwaits
      have hgranted :=
        lasting.countRequest _ (lasting.setServing state sys.site.world.clock true hwaits.1)
      exact ⟨hwaits.2, List.forall_mem_cons.2 ⟨hgranted, common.held⟩⟩
  | @built state world _ hidle =>
      obtain ⟨born, hborn, heq⟩ := hbirth _ _ hidle rfl
      have hgranted := lasting.countRequest _
        (lasting.setServing born world.clock true (hbore born ⟨sys.site, _, hborn, rfl, rfl⟩))
      rw [← heq] at hgranted
      exact ⟨common.idle, List.forall_mem_cons.2 ⟨hgranted, common.held⟩⟩

theorem part (common : sys.Common Q) (lasting : LuaState.Lasting Q) {origin : Origin}
    {id : StateId} {parting : Parting}
    (honest : (Action.part origin id parting).honest = true) :
    (sys.part origin id parting).2.Common Q := by
  unfold System.part
  cases hpick : pick id (sys.states origin) with
  | none => exact common
  | some found =>
      obtain ⟨state, rest⟩ := found
      cases origin with
      | pool =>
          have hperm : sys.held.Perm (state :: rest) := (perm_of_pick hpick).2
          have hheld : ∀ other ∈ state :: rest, Q other :=
            fun other h => common.held other (hperm.mem_iff.2 h)
          rw [List.forall_mem_cons] at hheld
          have disposed := parting.perform_disposed sys.site state
          simp only [takeBack, withStates]
          generalize parting.perform sys.site state = answer at disposed
          refine ⟨?_, hheld.2⟩
          rcases disposed.idle_cases with hsame | ⟨hcons, -⟩
          · simpa only [hsame] using common.idle
          · rw [hcons]
            exact List.forall_mem_cons.2 ⟨lasting.setServing state _ false hheld.1, common.idle⟩
      | caller =>
          -- A state of its own a caller can only drop.
          simp only [Action.honest, decide_eq_true_eq] at honest
          subst honest
          exact ⟨common.idle, common.held⟩

theorem advance (common : sys.Common Q) (hbore : ∀ state, sys.site.Bore state → Q state)
    (index : Nat) : (sys.advance index).2.Common Q := by
  unfold System.advance
  split
  · exact common
  · next run hcall =>
      split
      · split
        · exact ⟨common.idle, common.held⟩
        · refine ⟨?_, common.held⟩
          rcases (run.step_turned sys.site).idle_cases with hsame | stocked
          · simpa only [hsame] using common.idle
          · exact fun state h => hbore state (stocked.bore state h)
      · split <;> exact ⟨common.idle, common.held⟩

/-- What new states have, and what holders do not take from theirs, all states have after an action
as they had before. -/
theorem act (common : sys.Common Q) (lasting : LuaState.Lasting Q)
    (hbore : ∀ state, sys.site.Bore state → Q state) {action : Action}
    (honest : action.honest = true)
    (htouch : ∀ id touch, action = .touch .pool id touch → ∀ state, Q state →
      Q (state.touch sys.site.world touch).1) : (sys.act action).2.Common Q := by
  have kept {next : System} (hidle : next.site.pool.idle = sys.site.pool.idle)
      (hheld : next.held = sys.held) : next.Common Q :=
    ⟨by simpa only [hidle] using common.idle, by simpa only [hheld] using common.held⟩
  cases action with
  | tick | context | entrust | cancel => exact kept rfl rfl
  | build =>
      simp only [System.act, System.build]
      split <;> exact kept rfl rfl
  | touch origin id touch =>
      exact common.touch origin id fun hpool => htouch id touch (by rw [hpool])
  | get request =>
      refine common.ifOpen ?_
      unfold Site.get
      split
      · exact kept rfl rfl
      · exact common.grant lasting hbore
  | checkOut => exact common.ifOpen (common.grant lasting hbore)
  | part origin id parting => exact common.ifOpen (common.part lasting honest)
  | setStateOptions | look | call => exact common.ifOpen (kept rfl rfl)
  | advance index => exact common.advance hbore index

end Common

end System

end StatePool
