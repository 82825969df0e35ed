import StatePool.Proofs.Bare

/-!
Runs in which interpreter options are swapped at any moment.

Whoever sets the options takes no lock of the pool, so options may be set while a section is under
way.  A section reads them where it builds a state, and only a seeding builds more than one; for any
other section that is as good as before or behind it.  A run with swaps, compared with the same run
without them, comes to the same but for what is in the interpreters.
-/

namespace StatePool

/-! ### Seeding amid swaps -/

namespace Site

variable {site : Site}

/-- Options are set, one after the other. -/
def swap (site : Site) (swaps : List StateOptions) : Site :=
  swaps.foldl setStateOptions site

theorem swap_eq (site : Site) (swaps : List StateOptions) :
    site.swap swaps =
      { site with
        pool := { site.pool with
          config := site.pool.config.withStateOptions
            (swaps.getLastD site.pool.config.stateOptions) } } := by
  induction swaps generalizing site with
  | nil => rfl
  | cons options swaps ih =>
      refine (ih (site.setStateOptions options)).trans ?_
      simp only [List.getLastD_cons]
      rfl

@[simp] theorem bare_swap (site : Site) (swaps : List StateOptions) :
    (site.swap swaps).bare = site.bare := by
  rw [swap_eq]
  rfl

@[simp] theorem world_swap (site : Site) (swaps : List StateOptions) :
    (site.swap swaps).world = site.world := by
  rw [swap_eq]

@[simp] theorem idle_swap (site : Site) (swaps : List StateOptions) :
    (site.swap swaps).pool.idle = site.pool.idle := by
  rw [swap_eq]

theorem hook_swap (site : Site) (swaps : List StateOptions) :
    (site.swap swaps).pool.hook = site.pool.hook := by
  rw [swap_eq]

/-- Builds a number of states while options are set: each list of `swaps` is set ahead of one more
state, and what is left of them behind the last one. -/
def seedAmid (site : Site) : List (List StateOptions) → Nat → Outcome PoolError Unit × Site
  | swaps, 0 => (.ok (), site.swap swaps.flatten)
  | swaps, count + 1 =>
      match (site.swap (swaps.headD [])).allocate with
      | (.ok state, site) =>
          let pool := site.pool
          seedAmid { site with pool := { pool with idle := state :: pool.idle } } swaps.tail count
      | (.error e, site) => (.error e, site.swap swaps.tail.flatten)
      | (.panic fault, site) => (.panic fault, site.swap swaps.tail.flatten)

theorem seedAmid_nil (site : Site) (count : Nat) : site.seedAmid [] count = site.seed count := by
  induction count generalizing site with
  | zero => rfl
  | succ count ih =>
      have hswap : site.swap [] = site := rfl
      simp only [seedAmid, seed, List.headD_nil, List.tail_nil, hswap]
      rcases site.allocate with ⟨_ | _ | _, after⟩
      · exact ih _
      · rfl
      · rfl

/-- What a seeding does ahead of its first state. -/
def opened (site : Site) (root : Token) : Site :=
  let site := site.pool.idle.foldl forget site
  let pool := { site.pool with idle := [], length := 0, root }
  { site with pool }.setStatus .running

def startAmid (site : Site) (root : Token) (swaps : List (List StateOptions)) :
    Outcome PoolError Unit × Site :=
  if 0 < site.pool.serving then
    (.panic (.seedingInUse site.pool.serving), site.swap swaps.flatten)
  else (site.opened root).seedAmid swaps site.pool.config.seeds

theorem startAmid_nil (site : Site) (root : Token) : site.startAmid root [] = site.start root := by
  simp only [startAmid, start, opened, seedAmid_nil, Slots.pool_forget]
  rfl

theorem hook_allocate (site : Site) : site.allocate.2.pool.hook = site.pool.hook := by
  have allocated := site.allocate_allocated
  generalize site.allocate = result at allocated
  cases allocated <;> rfl

theorem seedAmid_bare (h : site.pool.hook = none) (swaps : List (List StateOptions))
    (count : Nat) : site.bare.seed count = (site.seedAmid swaps count).map id bare := by
  induction count generalizing site swaps with
  | zero => simp [seed, seedAmid]
  | succ count ih =>
      have hswap : (site.swap (swaps.headD [])).pool.hook = none := (hook_swap _ _).trans h
      have hkept := (hook_allocate (site.swap (swaps.headD []))).trans hswap
      have hallocate := allocate_bare hswap
      rw [bare_swap] at hallocate
      simp only [seed, seedAmid, hallocate]
      generalize (site.swap (swaps.headD [])).allocate = answer at hkept
      obtain ⟨state | e | fault, after⟩ := answer
      · exact @ih { after with pool := { after.pool with idle := state :: after.pool.idle } } hkept
          swaps.tail
      · simp [Outcome.map]
      · simp [Outcome.map]

theorem opened_bare (site : Site) (root : Token) :
    site.bare.opened root = (site.opened root).bare := by
  have hforget := forget_bare site site.pool.idle
  have hidle : site.bare.pool.idle = site.pool.idle.map LuaState.bare := rfl
  simp only [opened, hidle, hforget]
  generalize site.pool.idle.foldl forget site = emptied
  exact congrArg (fun pool => Site.mk pool emptied.world)
    (Pool.setStatus_bare { emptied.pool with idle := [], length := 0, root } .running)

theorem hook_opened (site : Site) (root : Token) :
    (site.opened root).pool.hook = site.pool.hook := by
  simp only [opened, Slots.pool_forget]
  exact Pool.hook_setStatus _ .running

theorem startAmid_bare (h : site.pool.hook = none) (root : Token)
    (swaps : List (List StateOptions)) :
    site.bare.start root = (site.startAmid root swaps).map id bare := by
  have hopened := (hook_opened site root).trans h
  have hseed := seedAmid_bare hopened swaps site.pool.config.seeds
  rw [← startAmid_nil]
  simp only [startAmid, opened_bare, seedAmid_nil, apply_ite (Prod.map id bare), ← hseed]
  simp only [Prod.map, bare_swap]
  rfl

end Site

namespace LifecycleRun

variable {site : Site}

/-- The section that builds the seeds, while options are set. -/
def seedAmid (run : LifecycleRun) (root : Token) (swaps : List (List StateOptions)) (site : Site) :
    LifecycleRun × Site :=
  if !site.pool.status.canRestart then
    ({ run with phase := .done (.error .dead) }, site.swap swaps.flatten)
  else
    match site.startAmid root swaps with
    | (.error e, site) => ({ run with phase := .undoing e }, site)
    | (result, site) => ({ run with phase := .done result }, site)

theorem seedAmid_nil {run : LifecycleRun} {root : Token} (h : run.seedRoot = some root)
    (site : Site) : run.seedAmid root [] site = run.step site := by
  obtain ⟨call, phase⟩ := run
  cases phase with
  | seeding other =>
      cases h
      simp only [seedAmid, step, Site.startAmid_nil]
      rfl
  | _ => cases h

theorem seedAmid_bare {run : LifecycleRun} {root : Token} (hroot : run.seedRoot = some root)
    (h : site.pool.hook = none) (swaps : List (List StateOptions)) :
    run.step site.bare = (run.seedAmid root swaps site).map id Site.bare := by
  have hstart := Site.startAmid_bare h root swaps
  obtain ⟨call, phase⟩ := run
  cases phase with
  | seeding other =>
      cases hroot
      simp only [seedAmid, step, hstart, apply_ite (Prod.map id Site.bare)]
      simp only [Prod.map, Site.bare_swap]
      rcases site.startAmid root swaps with ⟨_ | _ | _, after⟩ <;> rfl
  | _ => cases hroot

theorem drain_bare (run : LifecycleRun) (next : Phase) (site : Site) :
    run.drain next site.bare = (run.drain next site).map id Site.bare := by
  have hexit := site.exit_bare
  simp only [drain, hexit, apply_ite (Prod.map id Site.bare)]
  rcases site.exit with ⟨_ | (_ | e | _), after⟩
  · rfl
  · rfl
  · exact e.elim
  · rfl

theorem step_bare (run : LifecycleRun) (h : site.pool.hook = none) :
    run.step site.bare = (run.step site).map id Site.bare := by
  have hstatus (target : Status) : site.bare.setStatus target = (site.setStatus target).bare :=
    congrArg (fun pool => Site.mk pool site.world) (site.pool.setStatus_bare target)
  obtain ⟨call, phase⟩ := run
  cases phase with
  | entering =>
      cases call with
      | restart root =>
          simp only [step, apply_ite (Prod.map id Site.bare)]
          rfl
      | shutdown | terminate => rfl
  | closing | undoing e => exact congrArg _ (hstatus .exiting)
  | draining | undoDraining e => exact drain_bare _ _ _
  | starting root =>
      simp only [step, apply_ite (Prod.map id Site.bare)]
      rfl
  | seeding root =>
      have hseeds : LifecycleRun.seedRoot ⟨call, .seeding root⟩ = some root := rfl
      rw [seedAmid_bare hseeds h [], seedAmid_nil hseeds]
  | sealing => exact congrArg _ (hstatus .dead)
  | done result => rfl

end LifecycleRun

/-! ### Everybody at once -/

/-- A report, but for what is in the interpreter of a state that is handed out. -/
def Report.bare : Report → Report
  | .granted state => .granted state.bare
  | report => report

@[simp] theorem Report.bare_bare (report : Report) : report.bare.bare = report.bare := by
  cases report <;> simp [bare]

theorem LifecycleRun.bare_report (run : LifecycleRun) : run.report.bare = run.report := by
  unfold report
  rcases run.result? with _ | _ | _ | _ <;> rfl

theorem pick_bare (id : StateId) (states : List LuaState) :
    pick id (states.map LuaState.bare) =
      (pick id states).map (Prod.map LuaState.bare (List.map LuaState.bare)) := by
  induction states with
  | nil => rfl
  | cons state states ih =>
      have hid : state.bare.id = state.id := rfl
      simp only [List.map_cons, pick, hid]
      split
      · rfl
      · rw [ih]
        cases pick id states <;> rfl

namespace System

variable {sys other : System}

/-- The states of everybody are bare, and the options of the pool are the default ones. -/
def bare (sys : System) : System :=
  { sys with
    site := sys.site.bare
    held := sys.held.map LuaState.bare
    strangers := sys.strangers.map LuaState.bare }

@[simp] theorem bare_bare (sys : System) : sys.bare.bare = sys.bare := by
  simp [bare]

/-- What an action comes to, but for what is in the interpreters. -/
abbrev view (answer : Report × System) : Report × System :=
  (answer.1.bare, answer.2.bare)

theorem view_view (answer : Report × System) : view (view answer) = view answer := by
  simp [view]

theorem ifOpen_bare {next answer : Report × System} (h : view next = view answer) :
    view (sys.bare.ifOpen next) = view (sys.ifOpen answer) := by
  have hopen : sys.bare.isOpen = sys.isOpen := rfl
  simp only [ifOpen, hopen]
  split
  · exact h
  · simp [view]

theorem grant_bare (sys : System) (answer : Outcome PoolError LuaState × Site) :
    sys.bare.grant (answer.map (Outcome.map LuaState.bare) Site.bare) = view (sys.grant answer) := by
  obtain ⟨_ | _ | _, site⟩ := answer <;> rfl

theorem takeBack_bare (sys : System) (id : StateId) (answer : Outcome PoolError Unit × Site) :
    sys.bare.takeBack id (answer.1, answer.2.bare) = view (sys.takeBack id answer) := by
  obtain ⟨result, site⟩ := answer
  have htook : sys.bare.site.pool.tookIn site.bare.pool id = sys.site.pool.tookIn site.pool id :=
    Pool.tookIn_bare sys.site.pool site.pool id
  simp only [takeBack, htook]
  cases result <;> rfl

theorem states_bare (sys : System) (origin : Origin) :
    sys.bare.states origin = (sys.states origin).map LuaState.bare := by
  cases origin <;> rfl

theorem withStates_bare (sys : System) (states : List LuaState) (origin : Origin) :
    sys.bare.withStates (states.map LuaState.bare) origin = (sys.withStates states origin).bare := by
  cases origin <;> rfl

theorem part_bare (sys : System) (origin : Origin) (id : StateId) (parting : Parting) :
    sys.bare.part origin id parting = view (sys.part origin id parting) := by
  simp only [part, states_bare, pick_bare]
  rcases pick id (sys.states origin) with _ | ⟨state, rest⟩
  · rfl
  · have hperform : parting.perform sys.bare.site state.bare =
        (parting.perform sys.site state).map _ Site.bare := parting.perform_bare sys.site state
    simp only [Option.map_some, Prod.map, withStates_bare, hperform]
    exact takeBack_bare _ id _

theorem touch_bare (sys : System) (origin : Origin) (id : StateId) (touch : Touch) :
    view (sys.bare.touch origin id touch) = view (sys.touch origin id touch) := by
  simp only [System.touch, states_bare, pick_bare]
  rcases pick id (sys.states origin) with _ | ⟨state, rest⟩
  · simp [view]
  · obtain ⟨hstate, hworld⟩ := state.touch_bare sys.site.world touch
    cases origin <;> simp [view, bare, withStates, withWorld, Site.bare, hstate, hworld]

theorem build_bare (sys : System) (parent : Token) (budget idleSeconds : Nat)
    (options : StateOptions) (hook : Option InitHook) :
    view (sys.bare.build parent budget idleSeconds options hook) =
      view (sys.build parent budget idleSeconds options hook) := by
  have hworld : sys.bare.site.world = sys.site.world := rfl
  simp only [build, hworld]
  rcases LuaState.create parent budget idleSeconds options hook sys.site.world with
    ⟨_ | _ | _, world⟩ <;> simp [view, bare, withWorld, Site.bare]

theorem advance_bare (h : sys.site.pool.hook = none) (index : Nat) :
    sys.bare.advance index = view (sys.advance index) := by
  have hcalls : sys.bare.calls = sys.calls := rfl
  have hlock : sys.bare.lock = sys.lock := rfl
  simp only [advance, hcalls, hlock]
  cases sys.calls[index]? with
  | none => rfl
  | some run =>
      have hstep : run.step sys.bare.site = _ := run.step_bare h
      simp only [hstep]
      rcases run.result? with _ | result
      · simp only [apply_ite view, view, LifecycleRun.bare_report]
        rfl
      · simp only [apply_ite view]
        rfl

theorem act_bare (h : sys.site.pool.hook = none) (action : Action) :
    view (sys.bare.act action) = view (sys.act action) := by
  cases action with
  | tick | context | entrust | cancel => simp [act, view, bare, withWorld, Site.bare]
  | build parent budget idleSeconds options hook =>
      exact sys.build_bare parent budget idleSeconds options hook
  | touch origin id touch => exact sys.touch_bare origin id touch
  | get request =>
      refine ifOpen_bare ?_
      have hget : sys.bare.site.get request = _ := Site.get_bare h request
      rw [hget, grant_bare, view_view]
  | checkOut =>
      refine ifOpen_bare ?_
      have hcheck : sys.bare.site.checkOut = _ := Site.checkOut_bare h
      rw [hcheck, grant_bare, view_view]
  | part origin id parting =>
      refine ifOpen_bare ?_
      rw [part_bare, view_view]
  | setStateOptions options =>
      refine ifOpen_bare ?_
      simp [view, bare, Site.bare, Site.setStateOptions, Pool.bare, Config.withStateOptions]
  | look =>
      have hstats : sys.bare.site.pool.stats = sys.site.pool.stats := sys.site.pool.stats_bare
      exact ifOpen_bare (by simp [view, hstats])
  | call call => exact ifOpen_bare (by simp [view, bare])
  | advance index =>
      simp only [act]
      rw [advance_bare h, view_view]

end System

/-! ### Runs with swaps -/

/-- An action, and the options that are set while it is under way. -/
structure Move where
  action : Action
  swaps : List (List StateOptions) := []

namespace Move

/-- The action of a move, unless it is one that sets the options. -/
def kept? (move : Move) : Option Action :=
  match move.action with
  | .setStateOptions _ => none
  | action => some action

/-- The same moves, but nobody sets any options. -/
def unswapped (moves : List Move) : List Action :=
  moves.filterMap kept?

end Move

namespace System

variable {sys other : System}

structure Seeding where
  index : Nat
  run : LifecycleRun
  root : Token

/-- The seeding that an action amounts to. -/
def seeding? (sys : System) : Action → Option Seeding
  | .advance index =>
      if sys.lock = some index then
        sys.calls[index]?.bind fun run => run.seedRoot.map fun root => { index, run, root }
      else none
  | _ => none

/-- Where an action builds more than one state, options may be set in between; behind any other one
they are set in no time. -/
def actAmid (sys : System) (move : Move) : Report × System :=
  match sys.seeding? move.action with
  | some { index, run, root } =>
      let (run, site) := run.seedAmid root move.swaps sys.site
      (run.report, { sys with site, calls := sys.calls.set index run })
  | none =>
      let (report, next) := sys.act move.action
      (report, { next with site := next.site.swap move.swaps.flatten })

def stepAmid (sys : System) (move : Move) : Report × System :=
  let (report, next) := sys.actAmid move
  (report, sys.note next)

/-- All moves, one after the other. -/
def runAmid (sys : System) (moves : List Move) : System :=
  moves.foldl (fun sys move => (sys.stepAmid move).2) sys

/-- What callers are told, one after the other. -/
def reports (sys : System) : List Action → List Report
  | [] => []
  | action :: actions => (sys.step action).1 :: reports (sys.step action).2 actions

/-- What callers are told who do not set the options. -/
def reportsAmid (sys : System) : List Move → List Report
  | [] => []
  | move :: moves =>
      let later := reportsAmid (sys.stepAmid move).2 moves
      match move.kept? with
      | some _ => (sys.stepAmid move).1 :: later
      | none => later

theorem seeding?_eq_some {action : Action} {seeding : Seeding}
    (h : sys.seeding? action = some seeding) :
    action = .advance seeding.index ∧ sys.lock = some seeding.index ∧
      sys.calls[seeding.index]? = some seeding.run ∧
      seeding.run.seedRoot = some seeding.root := by
  cases action with
  | advance index =>
      simp only [seeding?] at h
      split at h
      · next hlock =>
          obtain ⟨run, hcall, h⟩ := Option.bind_eq_some_iff.1 h
          obtain ⟨root, hroot, rfl⟩ := Option.map_eq_some_iff.1 h
          exact ⟨rfl, hlock, hcall, hroot⟩
      · cases h
  | _ => cases h

/-- A seeding is one section of its call. -/
theorem act_of_seeding {action : Action} {seeding : Seeding}
    (h : sys.seeding? action = some seeding) :
    sys.act action = ((seeding.run.step sys.site).1.report,
      { sys with
        site := (seeding.run.step sys.site).2
        calls := sys.calls.set seeding.index (seeding.run.step sys.site).1 }) := by
  obtain ⟨rfl, hlock, hcall, hroot⟩ := seeding?_eq_some h
  have hresult : seeding.run.result? = none := by
    obtain ⟨index, ⟨call, phase⟩, root⟩ := seeding
    cases phase with
    | seeding => rfl
    | _ => cases hroot
  simp only [act, advance, hcall, hlock, hresult, ↓reduceIte]

theorem actAmid_nil (sys : System) (action : Action) : sys.actAmid { action } = sys.act action := by
  unfold actAmid
  cases h : sys.seeding? action with
  | none => rfl
  | some seeding =>
      have hroot := (seeding?_eq_some h).2.2.2
      rw [act_of_seeding h]
      simp only [LifecycleRun.seedAmid_nil hroot]

theorem stepAmid_nil (sys : System) (action : Action) :
    sys.stepAmid { action } = sys.step action := by
  simp only [stepAmid, actAmid_nil]
  rfl

/-- Of what is set meanwhile nothing is seen. -/
theorem actAmid_bare (h : sys.site.pool.hook = none) (move : Move) :
    view (sys.actAmid move) = view (sys.act move.action) := by
  unfold actAmid
  cases hseeding : sys.seeding? move.action with
  | none => simp [view, bare]
  | some seeding =>
      have hroot := (seeding?_eq_some hseeding).2.2.2
      have hamid := LifecycleRun.seedAmid_bare hroot h move.swaps
      rw [LifecycleRun.step_bare _ h] at hamid
      rw [act_of_seeding hseeding]
      simp only
      generalize seeding.run.step sys.site = plain at hamid
      generalize seeding.run.seedAmid seeding.root move.swaps sys.site = amid at hamid
      obtain ⟨run, site⟩ := plain
      obtain ⟨other, after⟩ := amid
      obtain ⟨rfl, hsite⟩ := Prod.mk.inj hamid
      simp only [view, bare, hsite, id]

theorem note_bare (before after : System) : (before.note after).bare = before.bare.note after.bare :=
  rfl

theorem hook_of_bare (hsame : sys.bare = other.bare) :
    sys.site.pool.hook = other.site.pool.hook := by
  have hhook : sys.bare.site.pool.hook = other.bare.site.pool.hook := by rw [hsame]
  exact hhook

/-- Two systems that differ in their interpreters only go on to do so, whatever is set in one. -/
theorem stepAmid_bare (h : sys.site.pool.hook = none) (hsame : sys.bare = other.bare)
    (move : Move) : view (sys.stepAmid move) = view (other.step move.action) := by
  have hother : other.site.pool.hook = none := (hook_of_bare hsame).symm.trans h
  have hact : view (sys.actAmid move) = view (other.act move.action) := by
    rw [actAmid_bare h, ← act_bare h, hsame, act_bare hother]
  obtain ⟨hreport, hnext⟩ := Prod.mk.inj hact
  simp only [stepAmid, step, view, note_bare, hreport, hnext, hsame]

theorem bare_stepAmid_of_swap {move : Move} (h : move.kept? = none) :
    (sys.stepAmid move).2.bare = sys.bare := by
  obtain ⟨action, swaps⟩ := move
  cases action with
  | setStateOptions options =>
      have hnote : sys.bare.note sys.bare = sys.bare := by simp [note]
      have hact : ((sys.act (.setStateOptions options)).2).bare = sys.bare := by
        simp only [act, ifOpen]
        split
        · simp [bare, Site.bare, Site.setStateOptions, Pool.bare, Config.withStateOptions]
        · rfl
      rw [← hnote]
      simp only [stepAmid, note_bare, actAmid, seeding?]
      refine congrArg _ ?_
      rw [← hact]
      simp [bare]
  | _ => cases h

theorem hook_run (h : sys.site.pool.hook = none) (actions : List Action) :
    (sys.run actions).site.pool.hook = none :=
  pool_run (Pool.hook_kept none) h actions

theorem runAmid_cons (sys : System) (move : Move) (moves : List Move) :
    sys.runAmid (move :: moves) = (sys.stepAmid move).2.runAmid moves := rfl

/-- A run, and the same run where nobody sets any options, side by side. -/
theorem runAmid_bare (h : sys.site.pool.hook = none) (hsame : sys.bare = other.bare)
    (moves : List Move) :
    (sys.runAmid moves).bare = (other.run (Move.unswapped moves)).bare ∧
      (sys.reportsAmid moves).map Report.bare =
        (other.reports (Move.unswapped moves)).map Report.bare := by
  induction moves generalizing sys other with
  | nil => exact ⟨hsame, rfl⟩
  | cons move moves ih =>
      cases hkept : move.kept? with
      | none =>
          -- The plain run does not move here, and the other one but for its options.
          have hnext := (bare_stepAmid_of_swap hkept).trans hsame
          have hhook := (hook_of_bare hnext).trans ((hook_of_bare hsame).symm.trans h)
          simpa only [runAmid_cons, reportsAmid, Move.unswapped, hkept, List.filterMap_cons]
            using ih hhook hnext
      | some action =>
          have haction : move.action = action := by
            unfold Move.kept? at hkept
            split at hkept
            · cases hkept
            · exact Option.some.inj hkept
          obtain ⟨hreport, hnext⟩ := Prod.mk.inj (stepAmid_bare h hsame move)
          rw [haction] at hreport hnext
          have hother : (other.step action).2.site.pool.hook = none :=
            hook_run ((hook_of_bare hsame).symm.trans h) [action]
          obtain ⟨hrun, hreports⟩ := ih ((hook_of_bare hnext).trans hother) hnext
          simp only [runAmid_cons, reportsAmid, Move.unswapped, hkept, List.filterMap_cons,
            List.map_cons, reports, hreport]
          exact ⟨hrun, congrArg _ hreports⟩

/-- Nobody can tell two systems apart who does not look into interpreters. -/
structure Alike (sys other : System) : Prop where
  bare_eq : sys.bare = other.bare
  stats_eq : sys.site.pool.stats = other.site.pool.stats
  idle_eq : sys.site.pool.idle.map (·.id) = other.site.pool.idle.map (·.id)
  calls_eq : sys.calls = other.calls
  log_eq : sys.log = other.log
  /-- A request is answered in the same way, its deadline included. -/
  requests {α : Type} (task : Task α) (blind : task.Blind) (request : Token) :
    (sys.site.withState request task).map id Site.bare =
      (other.site.withState request task).map id Site.bare

theorem alike_of_bare (h : sys.site.pool.hook = none) (hsame : sys.bare = other.bare) :
    sys.Alike other := by
  have hsite : sys.site.bare = other.site.bare := congrArg System.site hsame
  have hidle (site : Site) : site.bare.pool.idle.map (·.id) = site.pool.idle.map (·.id) := by
    simp [Site.bare, Pool.bare, LuaState.bare, Function.comp_def]
  refine ⟨hsame, ?_, ?_, ?_, ?_, fun task blind => Site.withState_blind blind h hsite⟩
  · rw [← Pool.stats_bare, ← Pool.stats_bare other.site.pool]
    exact congrArg (fun site => site.pool.stats) hsite
  · rw [← hidle, hsite, hidle]
  · have hcalls := congrArg System.calls hsame
    exact hcalls
  · have hlog := congrArg System.log hsame
    exact hlog

end System

end StatePool
