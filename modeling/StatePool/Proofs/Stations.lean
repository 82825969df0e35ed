import StatePool.Proofs.Drain

/-!
The stations of a pool, over its whole life.

A move that is not allowed is passed over in silence, so nothing but the lifecycle lock makes each
call find the pool where its next move is allowed.  A dead pool stays as it is for good: whoever
waited for the lock finds nothing left to do.
-/

namespace StatePool

def Event.move? : Event → Option (Status × Status)
  | .statusChanged source target => some (source, target)
  | _ => none

def movesOf (events : List Event) : List (Status × Status) :=
  events.filterMap Event.move?

@[simp] theorem movesOf_append (first second : List Event) :
    movesOf (first ++ second) = movesOf first ++ movesOf second :=
  List.filterMap_append

theorem movesOf_farewells (idle : List LuaState) : movesOf (Site.farewells idle) = [] := by
  simp [movesOf, Site.farewells, Event.move?]

/-- Moves one behind the other, each of them allowed and to another status. -/
inductive Status.Path (start : Status) : List (Status × Status) → Status → Prop
  | nil : Path start [] start
  | snoc {moves : List (Status × Status)} {source target : Status} (path : Path start moves source)
      (hmove : source.canBecome target = true) (hne : source ≠ target) :
      Path start (moves ++ [(source, target)]) target

theorem Status.Path.trans {start middle target : Status} {first second : List (Status × Status)}
    (path : start.Path first middle) (later : middle.Path second target) :
    start.Path (first ++ second) target := by
  induction later with
  | nil => simpa using path
  | snoc _ hmove hne ih =>
      rw [← List.append_assoc]
      exact ih.snoc hmove hne

/-! ### Sections -/

/-- The events between two moments tell how the status came from one to the other. -/
def Pool.Moved (before after : Pool) : Prop :=
  ∃ events, after.journal = before.journal ++ events.toArray ∧
    before.status.Path (movesOf events) after.status

namespace Pool.Moved

variable {before after : Pool}

theorem stayed (events : List Event)
    (hjournal : after.journal = before.journal ++ events.toArray)
    (hevents : movesOf events = []) (hstatus : after.status = before.status) :
    before.Moved after := by
  refine ⟨events, hjournal, ?_⟩
  rw [hevents, hstatus]
  exact .nil

theorem refl (pool : Pool) : pool.Moved pool := by
  apply stayed [] <;> simp [movesOf]

theorem setStatus (pool : Pool) (target : Status) : pool.Moved (pool.setStatus target) := by
  by_cases hsame : pool.status = target
  · subst hsame
    rw [setStatus_self]
    exact refl pool
  · rcases pool.setStatus_eq target with h | ⟨hmove, h⟩
    · rw [h]
      exact refl pool
    · rw [h]
      exact ⟨[.statusChanged pool.status target], by simp [emit], .snoc .nil hmove hsame⟩

theorem revived {pool : Pool} (hstatus : pool.status = .exiting ∨ pool.status = .ready)
    (root : Token) (born : List LuaState) : pool.Moved ((pool.revived root).withSeeds born) := by
  refine ⟨.statusChanged pool.status .running :: born.reverse.map fun state => .created state.id,
    ?_, ?_⟩
  · apply Array.ext'
    simp [Pool.withSeeds, Pool.revived, Pool.emit]
  · have hmoves : movesOf (.statusChanged pool.status .running ::
        born.reverse.map fun state => .created state.id) = [(pool.status, .running)] := by
      simp [movesOf, Event.move?]
    rw [hmoves]
    have hmove : pool.status.canBecome .running = true ∧ pool.status ≠ .running := by
      rcases hstatus with h | h <;> rw [h] <;> decide
    exact .snoc .nil hmove.1 hmove.2

end Pool.Moved

theorem Pool.Drained.setStatus {pool : Pool} (drained : pool.Drained) (target : Status) :
    (pool.setStatus target).Drained := by
  rcases pool.setStatus_eq target with h | ⟨-, h⟩
  · rw [h]
    exact drained
  · rw [h]
    exact { drained with }

theorem Site.CheckedOut.moved {site after : Site} {result : Outcome PoolError LuaState}
    (h : CheckedOut site (result, after)) : site.pool.Moved after.pool := by
  cases h with
  | refused | failed | panicked => exact .refl site.pool
  | full =>
      exact .stayed [.poolFull site.pool.config.capacity] (by simp [Site.emit, Pool.emit])
        rfl rfl
  | @reused state => exact .stayed [.acquired state.id] (by simp [Pool.emit]) rfl rfl
  | @built state =>
      refine .stayed [.created state.id, .acquired state.id] ?_ rfl rfl
      apply Array.ext'
      simp [Pool.emit]

theorem Site.Parted.moved {site after : Site} {state : LuaState} {result : Outcome PoolError Unit}
    (h : Parted site state (result, after)) : site.pool.Moved after.pool := by
  cases h with
  | kept => exact .refl site.pool
  | @retired _ reason =>
      exact .stayed [.cleanedUp state.id reason] (by simp [Pool.emit, Pool.released])
        rfl rfl
  | @recycled _ instant =>
      exact .stayed [.released state.id (site.world.clock.since instant)]
        (by simp [Pool.emit, Pool.released]) rfl rfl

namespace LifecycleRun

variable {run next : LifecycleRun} {site after : Site}

theorem Stepped.moved (h : Stepped run site (next, after)) (fits : run.Fits site.pool) :
    site.pool.Moved after.pool := by
  cases h with
  | entered | refused | looked | asleep => exact .refl site.pool
  | closed => exact .setStatus site.pool .exiting
  | sealed => exact .setStatus site.pool .dead
  | drained => exact .stayed _ rfl (movesOf_farewells _) rfl
  | @seeded root _ _ hphase seeded =>
      simp only [Fits, hphase] at fits
      cases seeded <;> exact .revived fits.2 root _

/-! ### Where a call wants the pool to be -/

/-- The status that the next section is to bring about. -/
def intended (run : LifecycleRun) : Option Status :=
  match run.phase with
  | .closing | .undoing _ => some .exiting
  | .seeding _ => some .running
  | .sealing => some .dead
  | _ => none

/-- The status that a call which succeeds leaves behind. -/
def goal (run : LifecycleRun) : Status :=
  match run.call with
  | .shutdown => .exiting
  | .terminate => .dead
  | .restart _ => .running

theorem status_setStatus_exiting (pool : Pool) :
    (pool.setStatus .exiting).status = .exiting ∨
      pool.status = .dead ∧ (pool.setStatus .exiting).status = .dead := by
  unfold Pool.setStatus
  cases h : pool.status <;> simp [h, Status.canBecome, Pool.emit]

theorem status_setStatus_dead {pool : Pool} (haccepts : pool.status.accepts = false) :
    (pool.setStatus .dead).status = .dead := by
  unfold Pool.setStatus
  cases h : pool.status <;> simp_all [Status.canBecome, Status.accepts, Pool.emit]

theorem step_seeding (fits : run.Fits site.pool) {root : Token} (hphase : run.phase = .seeding root) :
    (run.step site).2.pool.status = .running := by
  simp only [Fits, hphase] at fits
  -- The lifecycle lock was held since the drain, so nobody can have ended the pool meanwhile.
  obtain ⟨drained, hstatus⟩ := fits
  have hrestart : site.pool.status.canRestart = true := by
    rcases hstatus with h | h <;> rw [h] <;> rfl
  have seeded := Site.seed_seeded { site with pool := site.pool.revived root }
    site.pool.config.seeds
  rw [← Site.start_of_drained site root drained hstatus] at seeded
  simp only [step, hphase, hrestart, Bool.not_true, Bool.false_eq_true, ↓reduceIte]
  generalize site.start root = result at seeded
  cases seeded <;> rfl

theorem step_intended (fits : run.Fits site.pool) {status : Status}
    (hintended : run.intended = some status) :
    (run.step site).2.pool.status = status ∨
      site.pool.status = .dead ∧ (run.step site).2.pool.status = .dead := by
  obtain ⟨call, phase⟩ := run
  cases phase with
  | closing | undoing e =>
      cases hintended
      exact status_setStatus_exiting site.pool
  | seeding root =>
      cases hintended
      exact .inl (step_seeding fits rfl)
  | sealing =>
      cases hintended
      exact .inl (status_setStatus_dead fits.2)
  | _ => cases hintended

/-- The phase is one that a call of this kind goes through. -/
def Proper (run : LifecycleRun) : Prop :=
  match run.phase with
  | .starting _ | .seeding _ | .undoing _ | .undoDraining _ => run.call.restarts = true
  | .sealing => run.call = .terminate
  | _ => True

theorem proper_step (proper : run.Proper) (site : Site) : (run.step site).1.Proper := by
  have hdrain {next : Phase} (h : Proper { run with phase := next }) :
      (run.drain next site).1.Proper := by
    unfold drain
    split
    · exact proper
    · split
      · exact proper
      · exact h
      · trivial
  obtain ⟨call, phase⟩ := run
  cases phase with
  | entering =>
      cases call with
      | restart root =>
          simp only [step]
          split <;> trivial
      | shutdown | terminate => trivial
  | closing => trivial
  | draining =>
      cases call with
      | shutdown => exact hdrain trivial
      | terminate | restart root => exact hdrain rfl
  | starting root =>
      simp only [step]
      split
      · trivial
      · exact proper
  | seeding root =>
      simp only [step]
      split
      · trivial
      · split
        · exact proper
        · trivial
  | undoing e => exact proper
  | undoDraining e => exact hdrain trivial
  | sealing => trivial
  | done result => trivial

theorem Stepped.status_of_drain (h : Stepped run site (next, after)) {phase : Phase}
    (hdrain : run.behindDrain = some phase) : after.pool.status = site.pool.status := by
  cases h with
  | asleep | drained => rfl
  | refused _ hnone => cases hdrain.symm.trans hnone
  | closed hclosing => cases hdrain.symm.trans (behindDrain_of_closing hclosing)
  | entered hphase => simp [behindDrain, hphase] at hdrain
  | looked hphase => simp [behindDrain, hphase] at hdrain
  | seeded hphase => simp [behindDrain, hphase] at hdrain
  | sealed hphase => simp [behindDrain, hphase] at hdrain

theorem Stepped.status_of_ok (h : Stepped run site (next, after)) (fits : run.Fits site.pool)
    (proper : run.Proper) (hresult : run.result? = none) (hok : next.result? = some (.ok ())) :
    after.pool.status = run.goal ∨ site.pool.status = .dead ∧ after.pool.status = .dead := by
  obtain ⟨call, phase⟩ := run
  cases h with
  | entered | refused | looked => cases hok
  | asleep => cases hresult.symm.trans hok
  | closed hnext =>
      cases phase with
      | closing | undoing e =>
          cases hnext
          cases hok
      | _ => cases hnext
  | drained hnext =>
      cases phase with
      | draining =>
          cases hnext
          cases call with
          | shutdown =>
              by_cases hdead : site.pool.status = .dead
              · exact .inr ⟨hdead, hdead⟩
              · exact .inl (exiting_of_not_accepts fits.1 hdead)
          | terminate | restart root => cases hok
      | undoDraining e =>
          cases hnext
          cases hok
      | _ => cases hnext
  | seeded hphase seeded =>
      cases hphase
      cases call with
      | restart root => cases seeded <;> exact .inl rfl
      | shutdown | terminate => cases proper
  | sealed hphase =>
      cases hphase
      cases proper
      exact .inl (status_setStatus_dead fits.2)

/-! ### The end of a pool's life -/

theorem Stepped.drained_of_dead (h : Stepped run site (next, after)) (fits : run.Fits site.pool)
    (drained : site.pool.status = .dead → site.pool.Drained) (hdead : after.pool.status = .dead) :
    after.pool.Drained := by
  cases h with
  | entered | refused | looked => exact drained hdead
  | asleep => exact { drained hdead with }
  | drained _ hserving => exact ⟨rfl, rfl, hserving⟩
  | closed =>
      rcases status_setStatus_exiting site.pool with h | h
      · cases h.symm.trans hdead
      · exact (drained h.1).setStatus .exiting
  | seeded _ seeded => cases seeded <;> cases hdead
  | sealed hphase =>
      simp only [Fits, hphase] at fits
      exact fits.1.setStatus .dead

theorem step_of_dead (fits : run.Fits site.pool) (hdead : site.pool.status = .dead)
    (drained : site.pool.Drained) (hparked : site.pool.parked = false) :
    (run.step site).2 = site := by
  obtain ⟨call, phase⟩ := run
  obtain ⟨pool, world⟩ := site
  have hself := pool.setStatus_of_dead hdead
  cases phase with
  | entering =>
      cases call with
      | restart root =>
          simp only [step]
          split <;> rfl
      | shutdown | terminate => rfl
  | closing | undoing e => simp [step, Site.readyExit, Site.setStatus, hself]
  | sealing => simp [step, Site.setStatus, hself]
  | draining | undoDraining e =>
      cases pool
      obtain ⟨rfl, rfl, rfl⟩ := drained
      cases hparked
      rfl
  | starting root | seeding root =>
      rcases fits.2 with h | h <;> cases hdead.symm.trans h
  | done result => rfl

end LifecycleRun

namespace System

variable {sys : System}

theorem Acted.moved {action : Action} {answer : Report × System} (h : Acted sys action answer)
    (sound : sys.Sound) : sys.site.pool.Moved answer.2.site.pool := by
  cases h with
  | checkedOut hopen checked =>
      have moved := checked.moved
      cases checked <;> exact moved
  | parted hopen hperm parted => exact parted.moved
  | @advanced index run next site hlock hcall hresult stepped =>
      exact stepped.moved (sound.fits index run hlock hcall)
  | stirred | adopted | alienated | touched | configured | called | locked | unlocked =>
      exact .stayed [] (by simp [withWorld, Site.setStateOptions]) rfl rfl

theorem Reachable.path (h : sys.Reachable) :
    Status.ready.Path (movesOf sys.site.pool.journal.toList) sys.site.pool.status := by
  induction h with
  | made => exact .nil
  | step h honest ih =>
      obtain ⟨events, hjournal, later⟩ := (act_acted h.sound honest).moved h.sound
      simp only [System.step, note]
      rw [hjournal, Array.toList_append, movesOf_append]
      exact ih.trans later

theorem calls_act (sys : System) (action : Action) :
    (sys.act action).2.calls = sys.calls ∨
      (∃ call : LifecycleCall, (sys.act action).2.calls = sys.calls ++ [{ call := call }]) ∨
      ∃ index run, action = .advance index ∧ sys.lock = some index ∧
        sys.calls[index]? = some run ∧ run.result? = none ∧
        (sys.act action).2.calls = sys.calls.set index (run.step sys.site).1 := by
  have hopen {next : Report × System} (h : next.2.calls = sys.calls) :
      (sys.ifOpen next).2.calls = sys.calls := by
    unfold ifOpen
    split
    · exact h
    · rfl
  have hgrant (result : Outcome PoolError LuaState × Site) :
      (sys.grant result).2.calls = sys.calls := by
    rcases result with ⟨_ | _ | _, _⟩ <;> rfl
  cases action with
  | tick | context | entrust | cancel => exact .inl rfl
  | build parent budget idleSeconds options hook =>
      refine .inl ?_
      simp only [act, System.build]
      split <;> rfl
  | touch origin id touch =>
      refine .inl ?_
      simp only [act, System.touch]
      split
      · rfl
      · cases origin <;> rfl
  | get request => exact .inl (hopen (hgrant _))
  | checkOut => exact .inl (hopen (hgrant _))
  | part origin id parting =>
      refine .inl (hopen ?_)
      unfold System.part
      split
      · rfl
      · cases origin <;> rfl
  | setStateOptions | look => exact .inl (hopen rfl)
  | call call =>
      simp only [act, ifOpen]
      split
      · exact .inr (.inl ⟨call, rfl⟩)
      · exact .inl rfl
  | advance index =>
      simp only [act, advance]
      split
      · exact .inl rfl
      · next run hcall =>
          split
          · next hlock =>
              split
              · exact .inl rfl
              · next hresult => exact .inr (.inr ⟨index, run, rfl, hlock, hcall, hresult, rfl⟩)
          · split <;> exact .inl rfl

/-- A call stays as it is unless its next section is to do something to it. -/
theorem call_act {index : Nat} {run : LifecycleRun} (hcall : sys.calls[index]? = some run)
    (hstill : run.result? = none → (run.step sys.site).1 = run) (action : Action) :
    (sys.act action).2.calls[index]? = some run := by
  have hlt := (List.getElem?_eq_some_iff.1 hcall).1
  rcases sys.calls_act action with h | ⟨call, h⟩ | ⟨other, before, -, -, hother, hresult, h⟩
  · rw [h]
    exact hcall
  · rw [h, List.getElem?_append_left hlt]
    exact hcall
  · rw [h]
    by_cases heq : other = index
    · subst heq
      cases hcall.symm.trans hother
      rw [List.getElem?_set_self hlt, hstill hresult]
    · rw [List.getElem?_set_ne heq]
      exact hcall

theorem proper_act (proper : ∀ run ∈ sys.calls, run.Proper) (action : Action) :
    ∀ run ∈ (sys.act action).2.calls, run.Proper := by
  intro run hrun
  rcases sys.calls_act action with h | ⟨call, h⟩ | ⟨index, before, -, -, hcall, -, h⟩
  · exact proper run (h ▸ hrun)
  · rw [h] at hrun
    rcases List.mem_append.1 hrun with hrun | hrun
    · exact proper run hrun
    · rw [List.mem_singleton.1 hrun]
      trivial
  · rw [h] at hrun
    rcases List.mem_or_eq_of_mem_set hrun with hrun | rfl
    · exact proper run hrun
    · exact LifecycleRun.proper_step (proper before (List.mem_of_getElem? hcall)) sys.site

theorem proper_make (config : Config) (hook : Option InitHook) (root : Token) (world : World) :
    ∀ run ∈ (make config hook root world).calls, run.Proper := by
  intro run hrun
  rw [List.mem_singleton.1 hrun]
  exact rfl

theorem Reachable.proper (h : sys.Reachable) : ∀ run ∈ sys.calls, run.Proper := by
  induction h with
  | made _ hook root world => exact proper_make _ hook root world
  | step _ _ ih => exact proper_act ih _

/-! ### Behind the end -/

theorem Acted.drained_of_dead {action : Action} {answer : Report × System}
    (h : Acted sys action answer) (sound : sys.Sound)
    (drained : sys.site.pool.status = .dead → sys.site.pool.Drained)
    (hdead : answer.2.site.pool.status = .dead) : answer.2.site.pool.Drained := by
  cases h with
  | checkedOut hopen checked =>
      cases checked with
      | refused | failed | panicked => exact drained hdead
      | full => exact { drained hdead with }
      | reused haccepts =>
          simp only [grant, Pool.emit] at hdead
          rw [hdead] at haccepts
          cases haccepts
      | built haccepts =>
          simp only [grant, Pool.emit] at hdead
          rw [hdead] at haccepts
          cases haccepts
  | parted hopen hperm parted =>
      -- A pool that is dead already has nothing out that could come back.
      have hstatus := parted.serving_le.1
      exact absurd (drained (hstatus.symm.trans hdead)) (sound.not_drained hperm)
  | @advanced index run next site hlock hcall hresult stepped =>
      exact stepped.drained_of_dead (sound.fits index run hlock hcall) drained hdead
  | configured => exact { drained hdead with }
  | stirred | adopted | alienated | touched | called | locked | unlocked => exact drained hdead

theorem Reachable.drained_of_dead (h : sys.Reachable) (hdead : sys.site.pool.status = .dead) :
    sys.site.pool.Drained := by
  induction h with
  | made => cases hdead
  | step h honest ih => exact (act_acted h.sound honest).drained_of_dead h.sound ih hdead

/-- A pool that was dead stays as it was. -/
structure Buried (sys later : System) : Prop where
  status_eq : later.site.pool.status = .dead
  journal_eq : later.site.pool.journal = sys.site.pool.journal
  drained : later.site.pool.Drained
  /-- The next section of a lifecycle call leaves the pool and the world alone, so it calls no
  hook. -/
  still : ∀ index, (later.step (.advance index)).2.site = later.site
  /-- Nothing is handed out. -/
  grants : ∀ action : Action, action.honest = true → (later.step action).1.isGrant = false
  /-- A restart that is not over has not begun, and when its turn comes it is refused. -/
  refused : ∀ index run, later.calls[index]? = some run → run.call.restarts = true →
    run.result? = none →
    run.phase = .entering ∧
      (later.lock = some index → (later.step (.advance index)).1 = .refused .dead)

theorem Sound.advance_of_dead (sound : sys.Sound) (hdead : sys.site.pool.status = .dead)
    (drained : sys.site.pool.Drained) (index : Nat) :
    (sys.advance index).2.site = sys.site := by
  have hparked : sys.site.pool.parked = false := by
    rw [Bool.eq_false_iff]
    intro hparked
    have hserving := sound.books.parked_serving hparked
    rw [drained.serving_eq] at hserving
    exact Nat.lt_irrefl 0 hserving
  unfold advance
  split
  · rfl
  · next run hcall =>
      split
      · next hlock =>
          split
          · rfl
          · exact LifecycleRun.step_of_dead (sound.fits index run hlock hcall) hdead drained hparked
      · split <;> rfl

theorem Sound.entering_of_dead (sound : sys.Sound) (proper : ∀ run ∈ sys.calls, run.Proper)
    (hdead : sys.site.pool.status = .dead) {index : Nat} {run : LifecycleRun}
    (hcall : sys.calls[index]? = some run) (hrestart : run.call.restarts = true)
    (hresult : run.result? = none) : run.phase = .entering := by
  by_cases hlock : sys.lock = some index
  · have fits := sound.fits index run hlock hcall
    have hproper := proper run (List.mem_of_getElem? hcall)
    obtain ⟨call, phase⟩ := run
    -- Behind its entry a restart keeps the pool alive, for it holds the lifecycle lock.
    cases phase with
    | entering => rfl
    | closing => exact absurd hdead (fits hrestart)
    | draining => exact absurd hdead (fits.2 hrestart)
    | starting root | seeding root => rcases fits.2 with h | h <;> cases hdead.symm.trans h
    | undoing e | undoDraining e => cases hdead.symm.trans fits
    | sealing =>
        cases hproper
        cases hrestart
    | done result => cases hresult
  · rcases sound.waits index run hlock hcall with h | h
    · exact h
    · exact absurd hresult h

theorem Sound.refuses_of_dead (sound : sys.Sound) (proper : ∀ run ∈ sys.calls, run.Proper)
    (hdead : sys.site.pool.status = .dead) {index : Nat} {run : LifecycleRun}
    (hcall : sys.calls[index]? = some run) (hrestart : run.call.restarts = true)
    (hresult : run.result? = none) (hlock : sys.lock = some index) :
    (sys.step (.advance index)).1 = .refused .dead := by
  have hphase := sound.entering_of_dead proper hdead hcall hrestart hresult
  obtain ⟨call, phase⟩ := run
  cases hphase
  cases call with
  | restart root =>
      simp [System.step, act, advance, hcall, hlock, LifecycleRun.result?, LifecycleRun.step, hdead,
        Status.canRestart, Status.isTerminal, LifecycleRun.report, Report.ofOutcome]
  | shutdown | terminate => cases hrestart

theorem Sound.act_of_dead (sound : sys.Sound) (hdead : sys.site.pool.status = .dead)
    (drained : sys.site.pool.Drained) {action : Action} (honest : action.honest = true) :
    let answer := sys.act action
    answer.1.isGrant = false ∧ answer.2.site.pool.status = .dead ∧
      answer.2.site.pool.journal = sys.site.pool.journal ∧ answer.2.site.pool.Drained := by
  have acted := act_acted sound honest
  generalize hanswer : sys.act action = answer at acted
  cases acted with
  | stirred quiet => exact ⟨quiet.isGrant, hdead, rfl, drained⟩
  | checkedOut hopen checked =>
      cases checked with
      | refused | failed | panicked => exact ⟨rfl, hdead, rfl, drained⟩
      | full _ hcapacity hlength =>
          rw [drained.length_eq] at hlength
          omega
      | reused haccepts | built haccepts =>
          rw [hdead] at haccepts
          cases haccepts
  | parted hopen hperm => exact absurd drained (sound.not_drained hperm)
  | configured => exact ⟨rfl, hdead, rfl, { drained with }⟩
  | @advanced index run next site hlock hcall hresult stepped =>
      have hsite := sound.advance_of_dead hdead drained index
      change sys.advance index = _ at hanswer
      rw [hanswer] at hsite
      simp only at hsite ⊢
      rw [hsite]
      exact ⟨next.isGrant_report, hdead, rfl, drained⟩
  | adopted | alienated | touched | called | locked | unlocked => exact ⟨rfl, hdead, rfl, drained⟩

theorem Reachable.buried (h : sys.Reachable) (hdead : sys.site.pool.status = .dead)
    {actions : List Action} (honest : ∀ action ∈ actions, action.honest = true) :
    Buried sys (sys.run actions) := by
  -- All but the journal is read off the last system alone.
  induction actions generalizing sys with
  | nil =>
      have drained := h.drained_of_dead hdead
      exact
        { status_eq := hdead
          journal_eq := rfl
          drained
          still := h.sound.advance_of_dead hdead drained
          grants := fun action haction => (h.sound.act_of_dead hdead drained haction).1
          refused := fun index run hcall hrestart hresult =>
            ⟨h.sound.entering_of_dead h.proper hdead hcall hrestart hresult,
              h.sound.refuses_of_dead h.proper hdead hcall hrestart hresult⟩ }
  | cons action actions ih =>
      rw [List.forall_mem_cons] at honest
      obtain ⟨-, hnext, hjournal, -⟩ :=
        h.sound.act_of_dead hdead (h.drained_of_dead hdead) honest.1
      have later := ih (h.step honest.1) hnext honest.2
      exact { later with journal_eq := later.journal_eq.trans hjournal }

/-! ### The discipline -/

structure Disciplined (sys : System) : Prop where
  /-- The moves that were told of are allowed, and each starts where the one before it ended. -/
  path : Status.ready.Path (movesOf sys.site.pool.journal.toList) sys.site.pool.status
  /-- A section that is to move the pool does so, unless the pool is dead. -/
  moves : ∀ index run status, sys.lock = some index → sys.calls[index]? = some run →
    run.intended = some status →
    let after := (sys.step (.advance index)).2.site.pool
    after.status = status ∨ sys.site.pool.status = .dead ∧ after.status = .dead
  /-- Who drains the pool has moved it. -/
  drains : ∀ index, sys.Draining index →
    let after := (sys.step (.advance index)).2.site.pool
    after.status = .exiting ∨ sys.site.pool.status = .dead ∧ after.status = .dead
  /-- A call that succeeds leaves the pool where it was to bring it. -/
  succeeds : ∀ index run next, sys.calls[index]? = some run → run.result? = none →
    (sys.step (.advance index)).2.calls[index]? = some next → next.result? = some (.ok ()) →
    let after := (sys.step (.advance index)).2.site.pool
    after.status = run.goal ∨ sys.site.pool.status = .dead ∧ after.status = .dead
  buried : sys.site.pool.status = .dead → ∀ actions : List Action,
    (∀ action ∈ actions, action.honest = true) → Buried sys (sys.run actions)

theorem advance_of_lock {index : Nat} {run : LifecycleRun} (hlock : sys.lock = some index)
    (hcall : sys.calls[index]? = some run) (hresult : run.result? = none) :
    (sys.step (.advance index)).2.site = (run.step sys.site).2 ∧
      (sys.step (.advance index)).2.calls[index]? = some (run.step sys.site).1 ∧
      (sys.step (.advance index)).2.lock = some index := by
  have hlt := (List.getElem?_eq_some_iff.1 hcall).1
  simp only [step, act, advance, hcall, if_pos hlock, hresult, note]
  exact ⟨trivial, List.getElem?_set_self hlt, hlock⟩

theorem lock_of_success {index : Nat} {run next : LifecycleRun}
    (hcall : sys.calls[index]? = some run) (hresult : run.result? = none)
    (hnext : (sys.step (.advance index)).2.calls[index]? = some next)
    (hok : next.result? = some (.ok ())) : sys.lock = some index := by
  refine Decidable.byContradiction fun hlock => ?_
  simp only [step, act, advance, hcall, if_neg hlock, note] at hnext
  have hsame : next = run := by
    split at hnext <;> exact (Option.some.inj (hcall.symm.trans hnext)).symm
  rw [hsame, hresult] at hok
  cases hok

theorem reachable_disciplined (h : sys.Reachable) : sys.Disciplined where
  path := h.path
  moves index run status hlock hcall hintended := by
    have fits := h.sound.fits index run hlock hcall
    have hresult : run.result? = none := by
      obtain ⟨call, phase⟩ := run
      cases phase with
      | done result => cases hintended
      | _ => rfl
    rw [(advance_of_lock hlock hcall hresult).1]
    exact LifecycleRun.step_intended fits hintended
  drains index hdraining := by
    obtain ⟨run, hcall, hbusy⟩ := hdraining
    obtain ⟨hlock, hresult⟩ := h.sound.lock_of_busy hcall (.inr hbusy)
    have fits := h.sound.fits index run hlock hcall
    have stepped := LifecycleRun.step_stepped h.sound.books fits hresult
    obtain ⟨phase, hdrain⟩ := Option.ne_none_iff_exists'.1 hbusy
    rw [(advance_of_lock hlock hcall hresult).1]
    generalize run.step sys.site = result at stepped
    obtain ⟨next, site⟩ := result
    simp only
    rw [stepped.status_of_drain hdrain]
    have haccepts := fits.accepts_of_drain hdrain
    by_cases hdead : sys.site.pool.status = .dead
    · exact .inr ⟨hdead, hdead⟩
    · exact .inl (LifecycleRun.exiting_of_not_accepts haccepts hdead)
  succeeds index run next hcall hresult hnext hok := by
    have hlock := lock_of_success hcall hresult hnext hok
    have fits := h.sound.fits index run hlock hcall
    have stepped := LifecycleRun.step_stepped h.sound.books fits hresult
    obtain ⟨hsite, hstep, -⟩ := advance_of_lock hlock hcall hresult
    rw [hstep] at hnext
    rw [hsite]
    generalize run.step sys.site = result at stepped hnext
    obtain ⟨after, site⟩ := result
    cases hnext
    exact stepped.status_of_ok fits (h.proper run (List.mem_of_getElem? hcall)) hresult hok
  buried hdead actions honest := h.buried hdead honest

/-- A pool was terminated while a restart waited for the lifecycle lock. -/
def outlived : System :=
  (make .small none ⟨0⟩ clean).run
    [.advance 0, .advance 0, .advance 0, .call .terminate, .call (.restart ⟨0⟩), .advance 1,
      .advance 2, .advance 1, .advance 1, .advance 1, .advance 1, .advance 1]

theorem outlived_disciplined :
    (outlived.Reachable ∧ outlived.site.pool.status = .dead ∧
      outlived.calls[2]? = some { call := .restart ⟨0⟩ }) ∧ outlived.Disciplined := by
  have h : outlived.Reachable :=
    (Reachable.made Config.built_small none ⟨0⟩ clean).run (by decide)
  exact ⟨⟨h, by decide, by decide⟩, reachable_disciplined h⟩

end System

end StatePool
