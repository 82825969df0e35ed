import StatePool.Proofs.Swaps
import StatePool.Proofs.Drops

/-!
What the interpreters of a pool are made of.

A history tells which options came into force, when each state was built, and which code ran on its
interpreter.  Whatever callers do, and wherever options are set in between, an interpreter has the
options that were in force when its state was built, and from then on only code of its holders
changes it.
-/

namespace StatePool

/-! ### Histories -/

/-- What matters to interpreters. -/
inductive Fitting where
  | set (options : StateOptions)
  /-- The pool builds a state. -/
  | built (id : StateId)
  /-- A caller builds a state of its own. -/
  | brought (id : StateId)
  /-- Code runs on the interpreter of a state. -/
  | ran (id : StateId) (code : Script.Interpreter → Script.Interpreter)

namespace Fitting

variable {options : StateOptions} {id : StateId} {history more : List Fitting}

def born? : Fitting → Option StateId
  | .built id | .brought id => some id
  | .set _ | .ran _ _ => none

/-- The options in force behind a history. -/
def inForce (options : StateOptions) (history : List Fitting) : StateOptions :=
  history.foldl
    (fun options fitting =>
      match fitting with
      | .set later => later
      | _ => options)
    options

/-- What a history makes of the interpreter of a state. -/
def worked (id : StateId) (history : List Fitting) (interp : Script.Interpreter) :
    Script.Interpreter :=
  history.foldl
    (fun interp fitting =>
      match fitting with
      | .ran other code => if other = id then code interp else interp
      | _ => interp)
    interp

theorem inForce_append (options : StateOptions) (history more : List Fitting) :
    inForce options (history ++ more) = inForce (inForce options history) more :=
  List.foldl_append

theorem worked_append (id : StateId) (history more : List Fitting) (interp : Script.Interpreter) :
    worked id (history ++ more) interp = worked id more (worked id history interp) :=
  List.foldl_append

theorem inForce_set (options : StateOptions) (swaps : List StateOptions) :
    inForce options (swaps.map .set) = swaps.getLastD options := by
  induction swaps generalizing options with
  | nil => rfl
  | cons later swaps ih => exact (ih later).trans List.getLastD_cons.symm

theorem worked_set (id : StateId) (swaps : List StateOptions) (interp : Script.Interpreter) :
    worked id (swaps.map .set) interp = interp := by
  induction swaps with
  | nil => rfl
  | cons later swaps ih => exact ih

/-- Code that leaves the options alone. -/
def Sparing (history : List Fitting) : Prop :=
  ∀ id code, .ran id code ∈ history → ∀ interp, (code interp).options = interp.options

theorem Sparing.options_worked (sparing : Sparing history) (interp : Script.Interpreter) :
    (worked id history interp).options = interp.options := by
  induction history generalizing interp with
  | nil => rfl
  | cons fitting history ih =>
      have later : Sparing history := fun other code h =>
        sparing other code (List.mem_cons_of_mem _ h)
      cases fitting with
      | ran other code =>
          refine (ih later _).trans ?_
          simp only
          split
          · exact sparing other code List.mem_cons_self interp
          · rfl
      | set | built | brought => exact ih later interp

/-- The history of a seeding: options are set ahead of each state, and behind the last one. -/
def weave : List (List StateOptions) → List StateId → List Fitting
  | swaps, [] => swaps.flatten.map .set
  | swaps, id :: ids => (swaps.headD []).map .set ++ .built id :: weave swaps.tail ids

theorem weave_nil (ids : List StateId) : weave [] ids = ids.map .built := by
  induction ids with
  | nil => rfl
  | cons id ids ih => exact congrArg _ ih

theorem inForce_built (options : StateOptions) (ids : List StateId) :
    inForce options (ids.map .built) = options := by
  induction ids with
  | nil => rfl
  | cons id ids ih => exact ih

theorem worked_built (id : StateId) (ids : List StateId) (interp : Script.Interpreter) :
    worked id (ids.map .built) interp = interp := by
  induction ids with
  | nil => rfl
  | cons other ids ih => exact ih

end Fitting

open Fitting

/-- The states that were built between two moments; their ids are numbers in order. -/
def births (before after : World) : List StateId :=
  (List.range' before.states (after.states - before.states)).map StateId.mk

theorem births_of_eq {before after : World} (h : after.states = before.states) :
    births before after = [] := by
  simp [births, h]

theorem births_of_succ {before after : World} (h : after.states = before.states + 1) :
    births before after = [⟨before.states⟩] := by
  simp [births, h]

theorem births_append {first mid last : World} (hmid : first.states ≤ mid.states)
    (hlast : mid.states ≤ last.states) :
    births first mid ++ births mid last = births first last := by
  have hcount : last.states - first.states =
      (mid.states - first.states) + (last.states - mid.states) := by omega
  have hstart : first.states + (mid.states - first.states) = mid.states := by omega
  simp only [births, hcount, ← List.range'_append_1, hstart, List.map_append]

/-! ### States in a history -/

/-- A state is told of in a history: the pool built it with the options then in force, and until it
is closed its interpreter is what code has made of that; or it is a caller's own. -/
inductive Outfitted (options : StateOptions) (history : List Fitting) (state : LuaState) : Prop
  | built {before after : List Fitting} (h : history = before ++ .built state.id :: after)
      (hinterp : state.closed = false →
        state.interpreter = some (worked state.id after { options := inForce options before }))
  | brought (h : .brought state.id ∈ history)

/-- A state went on to be another one, and but for code its interpreter is the same. -/
structure Reworked (old : LuaState) (more : List Fitting) (state : LuaState) : Prop where
  id_eq : state.id = old.id
  kept : state.closed = false →
    old.closed = false ∧ state.interpreter = old.interpreter.map (worked state.id more)

namespace Reworked

variable {old mid state : LuaState} {history more : List Fitting}

theorem of_idle (hmore : ∀ interp, worked state.id more interp = interp) :
    Reworked state more state := by
  refine ⟨rfl, fun hopen => ⟨hopen, ?_⟩⟩
  rw [funext hmore, Option.map_id']

theorem trans (first : Reworked old history mid) (second : Reworked mid more state) :
    Reworked old (history ++ more) state := by
  refine ⟨second.id_eq.trans first.id_eq, fun hopen => ?_⟩
  obtain ⟨hmid, hsecond⟩ := second.kept hopen
  obtain ⟨hold, hfirst⟩ := first.kept hmid
  refine ⟨hold, ?_⟩
  rw [hsecond, hfirst, Option.map_map, second.id_eq]
  exact congrArg (Option.map · _) (funext fun interp => (worked_append _ _ _ interp).symm)

end Reworked

/-- A state went on to be another one, and nothing was done to its interpreter. -/
abbrev Carried (old state : LuaState) : Prop := Reworked old [] state

theorem Carried.refl (state : LuaState) : Carried state state := .of_idle fun _ => rfl

theorem Carried.of_eq {old state : LuaState} (hid : state.id = old.id)
    (hclosed : state.closed = old.closed) (hinterp : state.interpreter = old.interpreter) :
    Carried old state := by
  refine ⟨hid, fun hopen => ⟨hclosed.symm.trans hopen, ?_⟩⟩
  rw [hinterp]
  exact Option.map_id'.symm

namespace Outfitted

variable {options : StateOptions} {history more : List Fitting} {old state : LuaState}

theorem rework (outfitted : Outfitted options history old) (h : Reworked old more state) :
    Outfitted options (history ++ more) state := by
  cases outfitted with
  | @built before after hsplit hinterp =>
      refine .built (by rw [hsplit, h.id_eq, List.append_assoc, List.cons_append]) ?_
      intro hopen
      obtain ⟨hold, hkept⟩ := h.kept hopen
      rw [hkept, hinterp hold, Option.map_some, worked_append, h.id_eq]
  | brought hmem => exact .brought (h.id_eq ▸ List.mem_append_left _ hmem)

theorem prepend (outfitted : Outfitted (inForce options history) more state) :
    Outfitted options (history ++ more) state := by
  cases outfitted with
  | built hsplit hinterp =>
      refine .built (by rw [hsplit, List.append_assoc]) ?_
      simpa only [inForce_append] using hinterp
  | brought hmem => exact .brought (List.mem_append_right _ hmem)

/-- Where code leaves the options alone, those are kept that a state was built with. -/
theorem options_eq (outfitted : Outfitted options history state) (sparing : Sparing history) :
    .brought state.id ∈ history ∨ ∃ before after, history = before ++ .built state.id :: after ∧
      (state.closed = false →
        state.interpreter.map (·.options) = some (inForce options before)) := by
  cases outfitted with
  | @built before after hsplit hinterp =>
      refine .inr ⟨before, after, hsplit, fun hopen => ?_⟩
      have later : Sparing after := fun id code h =>
        sparing id code (hsplit ▸ List.mem_append_right _ (List.mem_cons_of_mem _ h))
      rw [hinterp hopen, Option.map_some, later.options_worked]
  | brought hmem => exact .inl hmem

end Outfitted

/-- Without a hook, an interpreter is born with nothing but the options in force. -/
theorem Site.birth_fitted {site : Site} (hhook : site.pool.hook = none) {state : LuaState}
    {world : World} (h : site.birth = (.ok state, world)) :
    state.id = ⟨site.world.states⟩ ∧ world.states = site.world.states + 1 ∧
      state.interpreter = some { options := site.pool.config.stateOptions } := by
  simp only [birth, LuaState.create, LuaState.prepare, hhook] at h
  split at h
  · cases h
  · cases h
    exact ⟨rfl, rfl, rfl⟩

theorem Site.states_of_unborn {site : Site} (hhook : site.pool.hook = none)
    {result : Outcome PoolError LuaState} {world : World} (h : site.birth = (result, world))
    (hresult : ∀ state, result ≠ .ok state) : world.states = site.world.states := by
  simp only [birth, LuaState.create, LuaState.prepare, hhook] at h
  split at h
  · cases h
    rfl
  · cases h
    exact absurd rfl (hresult _)

/-- What a history did to a pool and to some states. -/
structure Refitted (site : Site) (states : List LuaState) (more : List Fitting) (after : Site)
    (later : List LuaState) : Prop where
  config_eq : after.pool.config =
    site.pool.config.withStateOptions (inForce site.pool.config.stateOptions more)
  born_eq : more.filterMap born? = births site.world after.world
  states_le : site.world.states ≤ after.world.states
  outfitted : ∀ state ∈ later, (∃ old ∈ states, Reworked old more state) ∨
    Outfitted site.pool.config.stateOptions more state

namespace Refitted

variable {site mid after : Site} {states between later others : List LuaState}
  {history more : List Fitting}

/-- Nothing was built, and no code ran. -/
theorem still (hconfig : after.pool.config = site.pool.config)
    (hstates : after.world.states = site.world.states)
    (h : ∀ state ∈ later, ∃ old ∈ states, Carried old state) :
    Refitted site states [] after later where
  config_eq := hconfig
  born_eq := (births_of_eq hstates).symm
  states_le := Nat.le_of_eq hstates.symm
  outfitted state hstate := .inl (h state hstate)

theorem refl (site : Site) (states : List LuaState) : Refitted site states [] site states :=
  still rfl rfl fun state hstate => ⟨state, hstate, .refl state⟩

theorem trans (first : Refitted site states history mid between)
    (second : Refitted mid between more after later) :
    Refitted site states (history ++ more) after later := by
  have hoptions : mid.pool.config.stateOptions =
      inForce site.pool.config.stateOptions history := by
    rw [first.config_eq]
    rfl
  refine ⟨?_, ?_, Nat.le_trans first.states_le second.states_le, ?_⟩
  · rw [second.config_eq, hoptions, first.config_eq, inForce_append]
    rfl
  · rw [List.filterMap_append, first.born_eq, second.born_eq,
      births_append first.states_le second.states_le]
  · intro state hstate
    rcases second.outfitted state hstate with ⟨old, hold, later⟩ | outfitted
    · rcases first.outfitted old hold with ⟨oldest, holdest, earlier⟩ | outfitted
      · exact .inl ⟨oldest, holdest, earlier.trans later⟩
      · exact .inr (outfitted.rework later)
    · rw [hoptions] at outfitted
      exact .inr outfitted.prepend

theorem swap (site : Site) (states : List LuaState) (swaps : List StateOptions) :
    Refitted site states (swaps.map .set) (site.swap swaps) states where
  config_eq := by
    rw [Site.swap_eq, inForce_set]
  born_eq := by
    rw [births_of_eq (by rw [Site.world_swap]), List.filterMap_map]
    exact List.filterMap_eq_nil_iff.2 fun _ _ => rfl
  states_le := Nat.le_of_eq (by rw [Site.world_swap])
  outfitted state hstate :=
    .inl ⟨state, hstate, .of_idle (worked_set state.id swaps)⟩

/-- Whatever the states are that were built, there are none. -/
theorem barren {f : StateId → Fitting} (hconfig : after.pool.config = site.pool.config)
    (hstates : after.world.states = site.world.states)
    (h : ∀ state ∈ later, ∃ old ∈ states, Carried old state) :
    Refitted site states ((births site.world after.world).map f) after later := by
  rw [births_of_eq hstates]
  exact still hconfig hstates h

/-- A state was built below the options in force. -/
theorem born {state born : LuaState} (hhook : site.pool.hook = none) {world : World}
    (hbirth : site.birth = (.ok born, world)) (hconfig : after.pool.config = site.pool.config)
    (hworld : after.world.states = world.states) (hid : state.id = born.id)
    (hinterp : state.interpreter = born.interpreter)
    (h : ∀ other ∈ later, other = state ∨ other ∈ states) :
    Refitted site states [.built ⟨site.world.states⟩] after later := by
  obtain ⟨hfirst, hstates, hfresh⟩ := Site.birth_fitted hhook hbirth
  have hnext := hworld.trans hstates
  refine ⟨hconfig, (births_of_succ hnext).symm, by omega, fun other hother => ?_⟩
  rcases h other hother with rfl | hold
  · refine .inr (@Outfitted.built _ _ _ [] [] (by rw [hid, hfirst]; rfl) ?_)
    exact fun _ => hinterp.trans hfresh
  · exact .inl ⟨other, hold, .of_idle fun _ => rfl⟩

end Refitted

/-! ### Seedings -/

namespace Site

variable {site : Site}

theorem seedAmid_succ (site : Site) (swaps : List (List StateOptions)) (count : Nat) :
    let opened := site.swap (swaps.headD [])
    (∃ first world, opened.birth = (.ok first, world) ∧
      site.seedAmid swaps (count + 1) = (opened.sown first world).seedAmid swaps.tail count) ∨
    ∃ result world, opened.birth = (result, world) ∧ (∀ state, result ≠ .ok state) ∧
      (site.seedAmid swaps (count + 1)).2 = { opened with world }.swap swaps.tail.flatten := by
  intro opened
  rcases opened.allocate_eq with ⟨first, world, hbirth, heq⟩ | ⟨result, world, hbirth, hresult, heq⟩
  · refine .inl ⟨first, world, hbirth, ?_⟩
    simp only [seedAmid, opened, heq]
    rfl
  · refine .inr ⟨result, world, hbirth, hresult, ?_⟩
    simp only [seedAmid, opened, heq]
    cases result with
    | ok first => exact absurd rfl (hresult first)
    | error e | panic fault => rfl

/-- The seeds are built one after the other, each with the options that are then in force. -/
theorem seedAmid_refitted (h : site.pool.hook = none) (swaps : List (List StateOptions))
    (count : Nat) (others : List LuaState) :
    let after := (site.seedAmid swaps count).2
    Refitted site (site.pool.idle ++ others) (weave swaps (births site.world after.world)) after
      (after.pool.idle ++ others) := by
  induction count generalizing site swaps with
  | zero =>
      have swapped := Refitted.swap site (site.pool.idle ++ others) swaps.flatten
      simp only [seedAmid, world_swap, idle_swap, births_of_eq rfl]
      exact swapped
  | succ count ih =>
      have swapped := Refitted.swap site (site.pool.idle ++ others) (swaps.headD [])
      have hhook := (hook_swap site (swaps.headD [])).trans h
      have hworld := world_swap site (swaps.headD [])
      have hidle := idle_swap site (swaps.headD [])
      have hnext := site.seedAmid_succ swaps count
      generalize site.swap (swaps.headD []) = opened at swapped hhook hworld hidle hnext
      rcases hnext with ⟨first, world, hbirth, heq⟩ | ⟨result, world, hbirth, hresult, heq⟩
      · have hstates : (opened.sown first world).world.states = opened.world.states + 1 :=
          (birth_fitted hhook hbirth).2.1
        have born : Refitted opened (site.pool.idle ++ others) [.built ⟨opened.world.states⟩]
            (opened.sown first world) ((opened.sown first world).pool.idle ++ others) := by
          refine .born hhook hbirth rfl rfl rfl rfl fun other hother => ?_
          rw [← hidle]
          exact List.mem_cons.1 hother
        -- The history is the options set ahead of the first state, its birth, and the rest.
        have rest := @ih (opened.sown first world) hhook swaps.tail
        rw [heq]
        generalize (opened.sown first world).seedAmid swaps.tail count = answer at rest ⊢
        have hids : births site.world answer.2.world =
            ⟨opened.world.states⟩ :: births (opened.sown first world).world answer.2.world := by
          rw [← hworld, ← births_append born.states_le rest.states_le, births_of_succ hstates]
          rfl
        simpa only [hids, weave, List.append_assoc, List.singleton_append] using
          (swapped.trans born).trans rest
      · have hstates := states_of_unborn hhook hbirth hresult
        have left : Refitted opened (site.pool.idle ++ others) [] { opened with world }
            (site.pool.idle ++ others) :=
          .still rfl hstates fun state hstate => ⟨state, hstate, .refl state⟩
        have behind := Refitted.swap { opened with world } (site.pool.idle ++ others)
          swaps.tail.flatten
        have hflatten : swaps.headD [] ++ swaps.tail.flatten = swaps.flatten := by
          cases swaps <;> rfl
        have hids : births site.world world = [] := births_of_eq (hstates.trans (by rw [hworld]))
        have whole := (swapped.trans left).trans behind
        rw [List.append_nil, ← List.map_append, hflatten] at whole
        simpa only [heq, world_swap, idle_swap, hids, hidle, weave] using whole

/-- In a section that builds nothing it makes no difference when options are set. -/
theorem swap_refitted (site : Site) (states : List LuaState) (swaps : List (List StateOptions)) :
    Refitted site states (weave swaps (births site.world (site.swap swaps.flatten).world))
      (site.swap swaps.flatten) states := by
  simp only [world_swap, births_of_eq rfl]
  exact .swap site states swaps.flatten

theorem opened_refitted (site : Site) (root : Token) (others : List LuaState) :
    Refitted site (site.pool.idle ++ others) [] (site.opened root)
      ((site.opened root).pool.idle ++ others) := by
  have hpool := Slots.pool_forget site.pool.idle site
  have hstates := states_foldl_forget site.pool.idle site
  simp only [opened]
  generalize site.pool.idle.foldl forget site = emptied at hpool hstates
  rw [hpool]
  have moved := setStatus_turned
    ⟨{ site.pool with idle := [], length := 0, root }, emptied.world⟩ .running
  have hidle : (setStatus ⟨{ site.pool with idle := [], length := 0, root }, emptied.world⟩
      .running).pool.idle = [] := Pool.idle_setStatus _ _
  refine .still moved.config_eq hstates fun state hstate => ?_
  rw [hidle] at hstate
  exact ⟨state, List.mem_append_right _ hstate, .refl _⟩

theorem startAmid_refitted (h : site.pool.hook = none) (root : Token)
    (swaps : List (List StateOptions)) (others : List LuaState) :
    let after := (site.startAmid root swaps).2
    Refitted site (site.pool.idle ++ others) (weave swaps (births site.world after.world)) after
      (after.pool.idle ++ others) := by
  have opened := site.opened_refitted root others
  have hhook := (hook_opened site root).trans h
  unfold startAmid
  split
  · simpa only [idle_swap] using site.swap_refitted (site.pool.idle ++ others) swaps
  · have seeded := seedAmid_refitted hhook swaps site.pool.config.seeds others
    have hnone : births site.world (site.opened root).world = [] := opened.born_eq.symm
    have hids := births_append opened.states_le seeded.states_le
    rw [hnone, List.nil_append] at hids
    have whole := opened.trans seeded
    rwa [hids] at whole

end Site

theorem LifecycleRun.seedAmid_refitted {site : Site} (h : site.pool.hook = none)
    (run : LifecycleRun) (root : Token) (swaps : List (List StateOptions))
    (others : List LuaState) :
    let after := (run.seedAmid root swaps site).2
    Refitted site (site.pool.idle ++ others) (weave swaps (births site.world after.world)) after
      (after.pool.idle ++ others) := by
  unfold seedAmid
  split
  · simpa only [Site.idle_swap] using site.swap_refitted (site.pool.idle ++ others) swaps
  · have started := Site.startAmid_refitted h root swaps others
    generalize site.startAmid root swaps = answer at started
    rcases answer with ⟨_ | e | fault, after⟩ <;> exact started

/-! ### Other sections -/

theorem Site.states_exit (site : Site) : site.exit.2.world.states = site.world.states := by
  unfold exit
  simp only
  split
  · rfl
  · obtain ⟨world, hstates, heq⟩ := closeIdle_eq
      { site with pool := { site.pool with idle := [] } } site.pool.idle.reverse
    rw [heq]
    split <;> exact hstates

/-- Only a seeding builds states. -/
theorem LifecycleRun.states_step {run : LifecycleRun} (h : run.seedRoot = none) (site : Site) :
    (run.step site).2.world.states = site.world.states := by
  have hdrain (next : Phase) : (run.drain next site).2.world.states = site.world.states := by
    have hexit := site.states_exit
    unfold drain
    split
    · rfl
    · generalize site.exit = answer at hexit
      rcases answer with ⟨_ | (_ | e | fault), after⟩
      · exact hexit
      · exact hexit
      · exact e.elim
      · exact hexit
  obtain ⟨call, phase⟩ := run
  cases phase with
  | entering =>
      cases call with
      | restart root =>
          simp only [step]
          split <;> rfl
      | shutdown | terminate => rfl
  | draining | undoDraining e => exact hdrain _
  | starting root =>
      simp only [step]
      split <;> rfl
  | seeding root => cases h
  | closing | undoing e | sealing | done result => rfl

theorem LifecycleRun.idle_step {run : LifecycleRun} (h : run.seedRoot = none) (site : Site) :
    ∀ state ∈ (run.step site).2.pool.idle, state ∈ site.pool.idle := by
  intro state hstate
  rcases (run.step_turned site).idle_cases with hsame | stocked
  · rwa [hsame] at hstate
  · -- A state that was built since would have been counted.
    have hcount := stocked.states_eq
    rw [states_step h] at hcount
    have hnil : (run.step site).2.pool.idle = [] := List.eq_nil_of_length_eq_zero (by omega)
    rw [hnil] at hstate
    cases hstate

/-! ### Everybody at once -/

namespace System

variable {sys : System}

/-- An action that builds states of one kind only, if any, and runs no code. -/
abbrev Bears (sys : System) (kind : StateId → Fitting) (next : System) : Prop :=
  Refitted sys.site sys.population ((births sys.site.world next.site.world).map kind) next.site
    next.population

variable {kind : StateId → Fitting}

theorem Bears.of_eq {next : System} (hconfig : next.site.pool.config = sys.site.pool.config)
    (hstates : next.site.world.states = sys.site.world.states)
    (hpopulation : next.population = sys.population) : sys.Bears kind next :=
  .barren hconfig hstates fun state hstate => ⟨state, hpopulation ▸ hstate, .refl state⟩

theorem Bears.refl (sys : System) : sys.Bears kind sys := .of_eq rfl rfl rfl

theorem Bears.ifOpen {answer : Report × System} (h : sys.Bears kind answer.2) :
    sys.Bears kind (sys.ifOpen answer).2 := by
  unfold System.ifOpen
  split
  · exact h
  · exact .refl sys

theorem everyone_eq (sys : System) : sys.everyone = sys.population.map (·.id) := by
  simp [everyone, ids, population, lodgers]

theorem mem_population {state : LuaState} :
    state ∈ sys.population ↔
      state ∈ sys.site.pool.idle ∨ state ∈ sys.held ∨ state ∈ sys.strangers := by
  simp [population, lodgers]

theorem grant_bears (h : sys.site.pool.hook = none) :
    sys.Bears .built (sys.grant sys.site.checkOut).2 := by
  have hbirth (state : LuaState) (after : Site) (hidle : sys.site.pool.idle = [])
      (h : sys.site.checkOut = (.ok state, after)) := Site.checkOut_birth h hidle
  have checked := sys.site.checkOut_checkedOut
  generalize sys.site.checkOut = answer at checked hbirth
  cases checked with
  | refused | full => exact .of_eq rfl rfl rfl
  | failed hstates | panicked _ hstates => exact .of_eq rfl hstates rfl
  | @reused state idle _ hidle =>
      refine .barren rfl rfl fun other hother => ?_
      rcases mem_population.1 hother with hmem | hmem | hmem
      · have hold : other ∈ sys.site.pool.idle := hidle ▸ List.mem_cons_of_mem _ hmem
        exact ⟨other, mem_population.2 (.inl hold), .refl _⟩
      · rcases List.mem_cons.1 hmem with rfl | hmem
        · have hold : state ∈ sys.site.pool.idle := hidle ▸ List.mem_cons_self
          exact ⟨state, mem_population.2 (.inl hold), .of_eq rfl rfl rfl⟩
        · exact ⟨other, mem_population.2 (.inr (.inl hmem)), .refl _⟩
      · exact ⟨other, mem_population.2 (.inr (.inr hmem)), .refl _⟩
  | @built state world _ hidle _ _ hstates =>
      obtain ⟨born, hborn, heq⟩ := hbirth _ _ hidle rfl
      have hids : births sys.site.world world = [⟨sys.site.world.states⟩] := births_of_succ hstates
      have hid := congrArg LuaState.id heq
      have hinterp := congrArg LuaState.interpreter heq
      unfold Bears
      simp only [System.grant, hids]
      refine .born h hborn rfl rfl hid hinterp fun other hother => ?_
      rcases mem_population.1 hother with hmem | hmem | hmem
      · exact .inr (mem_population.2 (.inl hmem))
      · rcases List.mem_cons.1 hmem with rfl | hmem
        · exact .inl rfl
        · exact .inr (mem_population.2 (.inr (.inl hmem)))
      · exact .inr (mem_population.2 (.inr (.inr hmem)))

theorem build_bears (sys : System) (parent : Token) (budget idleSeconds : Nat)
    (options : StateOptions) (hook : Option InitHook) :
    sys.Bears .brought (sys.build parent budget idleSeconds options hook).2 := by
  have created := LuaState.create_created parent budget idleSeconds options hook sys.site.world
  unfold build
  generalize LuaState.create _ _ _ _ _ _ = result at created
  cases created with
  | @born state world newborn hstates =>
      have hids : births sys.site.world world = [⟨sys.site.world.states⟩] := births_of_succ hstates
      unfold Bears
      simp only [withWorld, hids]
      refine ⟨rfl, hids.symm, by simp only [hstates]; omega, fun other hother => ?_⟩
      rcases mem_population.1 hother with hmem | hmem | hmem
      · exact .inl ⟨other, mem_population.2 (.inl hmem), .of_idle fun _ => rfl⟩
      · exact .inl ⟨other, mem_population.2 (.inr (.inl hmem)), .of_idle fun _ => rfl⟩
      · rcases List.mem_cons.1 hmem with rfl | hmem
        · exact .inr (.brought (by rw [newborn.id_eq]; exact List.mem_singleton_self _))
        · exact .inl ⟨other, mem_population.2 (.inr (.inr hmem)), .of_idle fun _ => rfl⟩
  | failed hstates | panicked _ hstates => exact .of_eq rfl hstates rfl

section Picked

variable {origin : Origin} {id : StateId} {state other : LuaState} {rest : List LuaState}

theorem mem_population_of_rest (hpick : pick id (sys.states origin) = some (state, rest))
    (h : other ∈ (sys.withStates rest origin).population) : other ∈ sys.population :=
  (population_perm hpick).mem_iff.2 (List.mem_cons_of_mem _ h)

/-- No other state has the id of the one that was found. -/
theorem id_ne_of_rest (once : Once sys.site.world.states sys.everyone)
    (hpick : pick id (sys.states origin) = some (state, rest))
    (h : other ∈ (sys.withStates rest origin).population) : other.id ≠ id := by
  have hcount := once.once id
  have hid := (perm_of_pick hpick).1
  rw [everyone_eq, ((population_perm hpick).map (·.id)).count_eq, List.map_cons, hid,
    List.count_cons_self] at hcount
  intro heq
  have hmem : id ∈ (sys.withStates rest origin).population.map (·.id) :=
    List.mem_map.2 ⟨other, h, heq⟩
  have hpos := List.count_pos_iff.2 hmem
  omega

end Picked

theorem part_bears (sys : System) (origin : Origin) (id : StateId) (parting : Parting) :
    sys.Bears .built (sys.part origin id parting).2 := by
  unfold System.part
  cases hpick : pick id (sys.states origin) with
  | none => exact .refl sys
  | some found =>
      obtain ⟨state, rest⟩ := found
      have disposed := parting.perform_disposed sys.site state
      have hrest {other : LuaState} (h : other ∈ (sys.withStates rest origin).population) :
          other ∈ sys.population := mem_population_of_rest hpick h
      simp only
      generalize parting.perform sys.site state = answer at disposed
      obtain ⟨result, after⟩ := answer
      refine .barren disposed.config_eq disposed.states_eq fun other hother => ?_
      rcases mem_population.1 hother with hmem | hmem | hmem
      · rcases disposed.idle_cases with hsame | ⟨hcons, -⟩
        · have hold : other ∈ sys.site.pool.idle := hsame ▸ hmem
          exact ⟨other, mem_population.2 (.inl hold), .refl _⟩
        · have hmem : other ∈ state.setServing sys.site.world.clock false :: sys.site.pool.idle :=
            hcons ▸ hmem
          rcases List.mem_cons.1 hmem with rfl | hold
          · exact ⟨state, mem_population_of_pick hpick, .of_eq rfl rfl rfl⟩
          · exact ⟨other, mem_population.2 (.inl hold), .refl _⟩
      · exact ⟨other, hrest (mem_population.2 (.inr (.inl hmem))), .refl _⟩
      · exact ⟨other, hrest (mem_population.2 (.inr (.inr hmem))), .refl _⟩

theorem touch_bears (sys : System) (origin : Origin) (id : StateId) {touch : Touch}
    (h : ∀ code, touch ≠ .run code) : sys.Bears .built (sys.touch origin id touch).2 := by
  unfold System.touch
  cases hpick : pick id (sys.states origin) with
  | none => exact .refl sys
  | some found =>
      obtain ⟨state, rest⟩ := found
      have carried : Carried state (state.touch sys.site.world touch).1 := by
        cases touch with
        | run code => exact absurd rfl (h code)
        | close => exact ⟨rfl, nofun⟩
        | count | cancel | setServing => exact .of_eq rfl rfl rfl
      refine .barren ?_ ?_ fun other hother => ?_
      · cases origin <;> rfl
      · have hstates := state.states_touch sys.site.world touch
        cases origin <;> exact hstates
      · rcases mem_population_withStates hother with rfl | hmem
        · exact ⟨state, mem_population_of_pick hpick, carried⟩
        · exact ⟨other, mem_population_of_rest hpick hmem, .refl _⟩

/-- Code runs on the interpreter of one state; nobody else notices. -/
theorem run_refitted (once : Once sys.site.world.states sys.everyone) (origin : Origin)
    (id : StateId) (code : Script.Interpreter → Script.Interpreter) :
    let next := (sys.touch origin id (.run code)).2
    Refitted sys.site sys.population
      (if (pick id (sys.states origin)).isSome then [.ran id code] else []) next.site
      next.population := by
  unfold System.touch
  cases hpick : pick id (sys.states origin) with
  | none => exact .refl sys.site sys.population
  | some found =>
      obtain ⟨state, rest⟩ := found
      have hid := (perm_of_pick hpick).1
      refine ⟨?_, ?_, ?_, fun other hother => .inl ?_⟩
      · cases origin <;> rfl
      · have hnone : births sys.site.world sys.site.world = [] := births_of_eq rfl
        cases origin <;> exact hnone.symm
      · cases origin <;> exact Nat.le_refl _
      · rcases mem_population_withStates hother with rfl | hmem
        · refine ⟨state, mem_population_of_pick hpick, rfl, fun hopen => ⟨hopen, ?_⟩⟩
          simp only [LuaState.touch]
          refine congrArg (Option.map · _) (funext fun interp => ?_)
          simp [worked, hid]
        · have hne : id ≠ other.id := (id_ne_of_rest once hpick hmem).symm
          refine ⟨other, mem_population_of_rest hpick hmem, .of_idle fun interp => ?_⟩
          simp [worked, hne]

theorem advance_bears (sys : System) (index : Nat) (h : sys.seeding? (.advance index) = none) :
    sys.Bears .built (sys.advance index).2 := by
  unfold System.advance
  cases hcall : sys.calls[index]? with
  | none => exact .refl sys
  | some run =>
      simp only
      split
      · next hlock =>
          have hroot : run.seedRoot = none := by
            simpa [seeding?, hlock, hcall] using h
          split
          · exact .of_eq rfl rfl rfl
          · refine .barren (run.step_turned sys.site).config_eq
              (LifecycleRun.states_step hroot sys.site) fun state hstate => ?_
            have hidle := LifecycleRun.idle_step hroot sys.site state
            refine ⟨state, ?_, .refl _⟩
            exact mem_population.2 ((mem_population.1 hstate).imp_left hidle)
      · split <;> exact .of_eq rfl rfl rfl

/-- What a single action means to the interpreters. -/
def fits (sys : System) (action : Action) : List Fitting :=
  let ids := births sys.site.world (sys.act action).2.site.world
  match action with
  | .setStateOptions options => if sys.isOpen then [.set options] else []
  | .touch origin id (.run code) =>
      if (pick id (sys.states origin)).isSome then [.ran id code] else []
  | .build _ _ _ _ _ => ids.map .brought
  | _ => ids.map .built

theorem act_refitted (h : sys.site.pool.hook = none)
    (once : Once sys.site.world.states sys.everyone) {action : Action}
    (hseeding : sys.seeding? action = none) :
    let next := (sys.act action).2
    Refitted sys.site sys.population (sys.fits action) next.site next.population := by
  have hsame {world : World} (hstates : world.states = sys.site.world.states) :
      sys.Bears .built (sys.withWorld world) := .of_eq rfl hstates rfl
  cases action with
  | tick | context | entrust => exact hsame rfl
  | cancel token => exact hsame (World.states_cancel _ _)
  | build parent budget idleSeconds options hook => exact sys.build_bears _ _ _ _ _
  | touch origin id touch =>
      cases touch with
      | run code => exact run_refitted once origin id code
      | count | close | cancel | setServing => exact sys.touch_bears origin id nofun
  | get request =>
      refine Bears.ifOpen ?_
      unfold Site.get
      split
      · exact .refl sys
      · exact grant_bears h
  | checkOut => exact Bears.ifOpen (grant_bears h)
  | part origin id parting => exact Bears.ifOpen (sys.part_bears origin id parting)
  | setStateOptions options =>
      have swapped := Refitted.swap sys.site sys.population [options]
      simp only [act, ifOpen, fits]
      split
      · exact swapped
      · exact .refl sys.site sys.population
  | look => exact Bears.ifOpen (.refl sys)
  | call => exact Bears.ifOpen (.of_eq rfl rfl rfl)
  | advance index => exact sys.advance_bears index hseeding

/-! ### Runs -/

/-- What a move means to the interpreters. -/
def fittingsOf (sys : System) (move : Move) : List Fitting :=
  match sys.seeding? move.action with
  | some _ => weave move.swaps (births sys.site.world (sys.actAmid move).2.site.world)
  | none => sys.fits move.action ++ move.swaps.flatten.map .set

/-- The history of a run. -/
def fittings (sys : System) : List Move → List Fitting
  | [] => []
  | move :: moves => sys.fittingsOf move ++ fittings (sys.stepAmid move).2 moves

theorem actAmid_refitted (h : sys.site.pool.hook = none)
    (once : Once sys.site.world.states sys.everyone) (move : Move) :
    let next := (sys.actAmid move).2
    Refitted sys.site sys.population (sys.fittingsOf move) next.site next.population := by
  unfold fittingsOf actAmid
  cases hseeding : sys.seeding? move.action with
  | none =>
      have acted := act_refitted h once hseeding
      have behind := Refitted.swap (sys.act move.action).2.site (sys.act move.action).2.population
        move.swaps.flatten
      have whole := acted.trans behind
      simpa only [population, lodgers, Site.idle_swap] using whole
  | some seeding =>
      have seeded := LifecycleRun.seedAmid_refitted h seeding.run seeding.root move.swaps
        (sys.held ++ sys.strangers)
      simpa only [population, lodgers, List.append_assoc] using seeded

theorem everyone_of_bare {other : System} (hsame : sys.bare = other.bare) :
    sys.everyone = other.everyone ∧ sys.site.world = other.site.world := by
  have hids (states : List LuaState) :
      (states.map LuaState.bare).map (·.id) = states.map (·.id) := by
    simp [LuaState.bare, Function.comp_def]
  have heveryone (sys : System) : sys.bare.everyone = sys.everyone := by
    simp only [everyone, ids, bare, Site.bare, Pool.bare, hids]
  have hworld : sys.bare.site.world = other.bare.site.world := by rw [hsame]
  exact ⟨by rw [← heveryone sys, hsame, heveryone], hworld⟩

theorem once_stepAmid (h : sys.site.pool.hook = none)
    (once : Once sys.site.world.states sys.everyone) (move : Move) :
    let next := (sys.stepAmid move).2
    Once next.site.world.states next.everyone := by
  have hsame := congrArg Prod.snd (stepAmid_bare h rfl move)
  obtain ⟨heveryone, hworld⟩ := everyone_of_bare hsame
  have grown := sys.act_grown move.action
  simp only [heveryone, hworld]
  exact once.grows grown.grows grown.states_le

theorem hook_stepAmid (h : sys.site.pool.hook = none) (move : Move) :
    (sys.stepAmid move).2.site.pool.hook = none :=
  (hook_of_bare (congrArg Prod.snd (stepAmid_bare h rfl move))).trans
    (hook_run h [move.action])

theorem runAmid_refitted (h : sys.site.pool.hook = none)
    (once : Once sys.site.world.states sys.everyone) (moves : List Move) :
    Refitted sys.site sys.population (sys.fittings moves) (sys.runAmid moves).site
      (sys.runAmid moves).population := by
  induction moves generalizing sys with
  | nil => exact .refl sys.site sys.population
  | cons move moves ih =>
      have rest := ih (hook_stepAmid h move) (once_stepAmid h once move)
      exact (actAmid_refitted h once move).trans rest

theorem once_runAmid (h : sys.site.pool.hook = none)
    (once : Once sys.site.world.states sys.everyone) (moves : List Move) :
    (sys.runAmid moves).site.pool.hook = none ∧
      Once (sys.runAmid moves).site.world.states (sys.runAmid moves).everyone := by
  induction moves generalizing sys with
  | nil => exact ⟨h, once⟩
  | cons move moves ih => exact ih (hook_stepAmid h move) (once_stepAmid h once move)

theorem idle_open {other : System} (hsame : sys.bare = other.bare) (possible : other.Possible)
    {state : LuaState} (h : state ∈ sys.site.pool.idle) : state.closed = false := by
  have hidle : sys.bare.site.pool.idle = other.bare.site.pool.idle := by rw [hsame]
  have hmem : state.bare ∈ sys.bare.site.pool.idle := List.mem_map_of_mem h
  rw [hidle] at hmem
  obtain ⟨twin, htwin, heq⟩ := List.mem_map.1 hmem
  have hclosed : twin.bare.closed = state.bare.closed := by rw [heq]
  exact hclosed.symm.trans (possible.living.usable twin htwin).closed_eq

/-- The states that a seeding builds have the options that were in force when it began. -/
theorem seeds_fitted (h : sys.site.pool.hook = none)
    (once : Once sys.site.world.states sys.everyone) {action : Action}
    (hseeding : (sys.seeding? action).isSome) {state : LuaState}
    (hidle : state ∈ (sys.act action).2.site.pool.idle)
    (hnew : sys.site.world.states ≤ state.id.number) (hopen : state.closed = false) :
    state.interpreter = some { options := sys.site.pool.config.stateOptions } := by
  obtain ⟨seeding, hsome⟩ := Option.isSome_iff_exists.1 hseeding
  have refitted := actAmid_refitted h once { action }
  simp only [fittingsOf, hsome, actAmid_nil, weave_nil] at refitted
  rcases refitted.outfitted state (mem_population_of_idle hidle) with ⟨old, hold, hworked⟩ | outfitted
  · have hmem : old.id ∈ sys.everyone := by
      rw [everyone_eq]
      exact List.mem_map_of_mem hold
    have hborn := once.born old.id hmem
    rw [hworked.id_eq] at hnew
    omega
  · cases outfitted with
    | built hsplit hinterp =>
        obtain ⟨before, later, -, rfl, htail⟩ := List.map_eq_append_iff.1 hsplit
        obtain ⟨id, after, -, -, rfl⟩ := List.map_eq_cons_iff.1 htail
        simpa only [inForce_built, worked_built] using hinterp hopen
    | brought hmem =>
        obtain ⟨id, -, hid⟩ := List.mem_map.1 hmem
        cases hid

/-- A run with swaps, next to the same run without them.  All that the swaps reach are the
interpreters of states that are built later. -/
structure Confined (start : System) (moves : List Move) : Prop where
  reports_eq : (start.reportsAmid moves).map Report.bare =
    (start.reports (Move.unswapped moves)).map Report.bare
  alike : (start.runAmid moves).Alike (start.run (Move.unswapped moves))
  config_eq : (start.runAmid moves).site.pool.config = start.site.pool.config.withStateOptions
    (inForce start.site.pool.config.stateOptions (start.fittings moves))
  /-- The history tells of each state once, in order. -/
  born_eq : (start.fittings moves).filterMap born? =
    births start.site.world (start.runAmid moves).site.world
  outfitted : ∀ state ∈ (start.runAmid moves).population,
    Outfitted start.site.pool.config.stateOptions (start.fittings moves) state
  options_eq : Sparing (start.fittings moves) → ∀ state ∈ (start.runAmid moves).population,
    .brought state.id ∈ start.fittings moves ∨
      ∃ before after, start.fittings moves = before ++ .built state.id :: after ∧
        (state.closed = false → state.interpreter.map (·.options) =
          some (inForce start.site.pool.config.stateOptions before))
  seeds : ∀ action, ((start.runAmid moves).seeding? action).isSome →
    ∀ state ∈ ((start.runAmid moves).step action).2.site.pool.idle,
      (start.runAmid moves).site.world.states ≤ state.id.number →
        state.interpreter = some
          { options := inForce start.site.pool.config.stateOptions (start.fittings moves) }

/-- Wherever options are set in a run of a pool without a hook, each state keeps the options in
force when it was built, a restart seeds with the latest ones, and nothing else comes of it. -/
theorem swaps_confined (config : Config) (root : Token) (world : World) (moves : List Move) :
    (make config none root world).Confined moves := by
  have hook : (make config none root world).site.pool.hook = none := rfl
  have once : Once world.states (make config none root world).everyone :=
    ⟨fun _ => Nat.zero_le _, List.forall_mem_nil _⟩
  obtain ⟨hbare, hreports⟩ := runAmid_bare hook rfl moves
  obtain ⟨hlater, later⟩ := once_runAmid hook once moves
  have refitted := runAmid_refitted hook once moves
  have outfitted : ∀ state ∈ ((make config none root world).runAmid moves).population,
      Outfitted config.stateOptions ((make config none root world).fittings moves) state := by
    intro state hstate
    -- There is no state when the pool is made, so the history tells of each one.
    rcases refitted.outfitted state hstate with ⟨old, hold, -⟩ | outfitted
    · cases hold
    · exact outfitted
  refine ⟨hreports, alike_of_bare hlater hbare, refitted.config_eq, refitted.born_eq, outfitted,
    fun sparing state hstate => (outfitted state hstate).options_eq sparing, ?_⟩
  intro action hseeding state hidle hnew
  have hstep := congrArg Prod.snd (stepAmid_bare hlater hbare { action })
  rw [stepAmid_nil] at hstep
  have hopen := idle_open hstep (((Possible.made config none root world).run _).step action) hidle
  have fitted := seeds_fitted hlater later hseeding hidle hnew hopen
  rwa [refitted.config_eq] at fitted

/-- Of two seeds the second one has other options, if they are set between the two. -/
example :
    let start := make { Config.default with seeds := 2 } none ⟨0⟩ clean
    let moves : List Move :=
      [⟨.advance 0, []⟩, ⟨.advance 0, [[], [{ memoryLimit := 4096 }]]⟩]
    (start.runAmid moves).site.pool.idle.map (fun state => state.interpreter.map (·.options)) =
      [some { memoryLimit := 4096 }, some {}] := by
  decide

end System

end StatePool
