import StatePool.Proofs.Rollback

/-!
Lifecycle calls that follow one another.

On a pool that nobody uses, what a call leaves behind depends on the pool alone, and a drained pool
has nothing left to drain.  So a drain in front of another call adds nothing to it, and behind the
last call of all there is nothing to come.
-/

namespace StatePool

theorem Pool.emptied_emptied (pool : Pool) : pool.emptied.emptied = pool.emptied := by
  simp [Pool.emptied, Pool.closingNews, Site.farewells]

/-- A pool that nothing is checked out of; once it was terminated there is nothing in it either. -/
structure Pool.Rests (pool : Pool) : Prop extends pool.Quiet where
  drained : pool.status = .dead → pool.Drained

namespace Site

variable {site : Site}

theorem emptied_emptied (site : Site) : site.emptied.emptied = site.emptied := by
  have hpool := site.pool.emptied_emptied
  simp only [emptied, hpool]
  rfl

/-- A pool behind the two sections of a drain. -/
def cleared (site : Site) : Site :=
  if site.pool.status = .dead then site else site.emptied

theorem cleared_of_dead (h : site.pool.status = .dead) : site.cleared = site := if_pos h

theorem cleared_of_ne_dead (h : site.pool.status ≠ .dead) : site.cleared = site.emptied := if_neg h

theorem status_cleared (site : Site) :
    site.pool.status = .dead ∧ site.cleared = site ∨
      site.pool.status ≠ .dead ∧ site.cleared.pool.status = .exiting := by
  by_cases hdead : site.pool.status = .dead
  · exact .inl ⟨hdead, cleared_of_dead hdead⟩
  · rw [cleared_of_ne_dead hdead]
    exact .inr ⟨hdead, rfl⟩

theorem cleared_cleared (site : Site) : site.cleared.cleared = site.cleared := by
  rcases site.status_cleared with ⟨-, hsame⟩ | ⟨hdead, -⟩
  · rw [hsame, hsame]
  · have hexiting : site.emptied.pool.status ≠ .dead := nofun
    rw [cleared_of_ne_dead hdead, cleared_of_ne_dead hexiting, emptied_emptied]

theorem serving_cleared (site : Site) : site.cleared.pool.serving = site.pool.serving := by
  unfold cleared
  split <;> rfl

/-- What a lifecycle call comes to on a pool that nobody uses. -/
def called (site : Site) : LifecycleCall → Outcome PoolError Unit × Site
  | .shutdown => (.ok (), site.cleared)
  | .terminate => (.ok (), site.cleared.setStatus .dead)
  | .restart root => site.restarted root

theorem serving_called (site : Site) (call : LifecycleCall) :
    (site.called call).2.pool.serving = site.pool.serving := by
  cases call with
  | shutdown => exact site.serving_cleared
  | terminate =>
      have hcleared := site.serving_cleared
      rcases site.cleared.pool.setStatus_eq .dead with h | ⟨-, h⟩ <;>
        simp only [called, setStatus, h] <;> exact hcleared
  | restart root => exact site.serving_restarted root

end Site

namespace LifecycleRun

variable {run : LifecycleRun} {site : Site}

/-- On a drained pool the two sections of a drain change nothing. -/
theorem steps_of_drained (hdead : site.pool.status = .dead) (drained : site.pool.Drained)
    (hparked : site.pool.parked = false) {call : LifecycleCall} (count : Nat) :
    steps (count + 2) { call, phase := .closing } site =
      steps count { call, phase := afterDrain call } site := by
  have hready : site.readyExit = site := by
    simp only [Site.readyExit, Site.setStatus, site.pool.setStatus_of_dead hdead]
  have hexit : site.exit = (some (.ok ()), site) := by
    obtain ⟨pool, world⟩ := site
    cases pool
    obtain ⟨rfl, rfl, rfl⟩ := drained
    rfl
  simp only [steps, step, hready, drain, hparked, hexit, Bool.false_eq_true, ↓reduceIte]

theorem steps_clearing (rests : site.pool.Rests) {call : LifecycleCall} (count : Nat) :
    steps (count + 2) { call, phase := .closing } site =
      steps count { call, phase := afterDrain call } site.cleared := by
  by_cases hdead : site.pool.status = .dead
  · rw [Site.cleared_of_dead hdead]
    exact steps_of_drained hdead (rests.drained hdead) rests.awake count
  · rw [Site.cleared_of_ne_dead hdead]
    exact steps_closing rests.toQuiet hdead rfl rfl count

/-- A call that nobody disturbs goes through all its sections. -/
theorem advance_called (rests : site.pool.Rests) (call : LifecycleCall) :
    advance { call } site =
      ({ call, phase := .done (site.called call).1 }, (site.called call).2) := by
  cases call with
  | shutdown =>
      have hentered : step { call := .shutdown } site =
          ({ call := .shutdown, phase := .closing }, site) := rfl
      rw [advance, phaseBound, steps_of_step hentered]
      exact (steps_clearing rests 5).trans (steps_done _ _ 5 _)
  | terminate =>
      have hentered : step { call := .terminate } site =
          ({ call := .terminate, phase := .closing }, site) := rfl
      rw [advance, phaseBound, steps_of_step hentered]
      refine (steps_clearing rests 5).trans ?_
      rw [afterDrain, steps_of_step rfl]
      exact steps_done _ _ 4 _
  | restart root => exact Site.advance_restart rests.toQuiet root

end LifecycleRun

/-! ### One after the other -/

/-- How lifecycle calls compose, by what each of some calls is told and what they leave behind. -/
structure Composes (answers : List LifecycleCall → List (Option (Outcome PoolError Unit)))
    (left : List LifecycleCall → Site) : Prop where
  shutdown_twice : answers [.shutdown, .shutdown] = [some (.ok ()), some (.ok ())] ∧
    left [.shutdown, .shutdown] = left [.shutdown]
  terminate_behind_shutdown : answers [.shutdown, .terminate] = [some (.ok ()), some (.ok ())] ∧
    left [.shutdown, .terminate] = left [.terminate]
  /-- A restart is told what it would have been told alone, whatever comes of it. -/
  restart_behind_shutdown : ∀ root,
    answers [.shutdown, .restart root] = some (.ok ()) :: answers [.restart root] ∧
      left [.shutdown, .restart root] = left [.restart root]
  behind_terminate : ∀ call, left [.terminate, call] = left [.terminate]
  shutdown_behind_terminate :
    answers [.terminate, .shutdown] = [some (.ok ()), some (.ok ())]
  terminate_twice : answers [.terminate, .terminate] = [some (.ok ()), some (.ok ())]
  restart_behind_terminate : ∀ root,
    answers [.terminate, .restart root] = [some (.ok ()), some (.error .dead)]

namespace Site

variable {site : Site}

/-- What each of some lifecycle calls is told that nobody disturbs. -/
def answers (site : Site) : List LifecycleCall → List (Option (Outcome PoolError Unit))
  | [] => []
  | call :: calls =>
      let (run, after) := LifecycleRun.advance { call } site
      run.result? :: after.answers calls

/-- What these calls leave behind. -/
def left (site : Site) (calls : List LifecycleCall) : Site :=
  calls.foldl (fun site call => (LifecycleRun.advance { call } site).2) site

theorem answers_cons (rests : site.pool.Rests) (call : LifecycleCall)
    (calls : List LifecycleCall) :
    site.answers (call :: calls) =
      some (site.called call).1 :: (site.called call).2.answers calls := by
  simp only [answers, LifecycleRun.advance_called rests call, LifecycleRun.result?]

theorem left_cons (rests : site.pool.Rests) (call : LifecycleCall) (calls : List LifecycleCall) :
    site.left (call :: calls) = (site.called call).2.left calls := by
  simp only [left, List.foldl_cons, LifecycleRun.advance_called rests call]

theorem drained_cleared (rests : site.pool.Rests) : site.cleared.pool.Drained := by
  rcases site.status_cleared with ⟨hdead, hsame⟩ | ⟨hdead, -⟩
  · rw [hsame]
    exact rests.drained hdead
  · rw [cleared_of_ne_dead hdead]
    exact emptied_drained rests.toQuiet

theorem parked_cleared (rests : site.pool.Rests) : site.cleared.pool.parked = false := by
  unfold cleared
  split <;> exact rests.awake

theorem rests_of_drained (drained : site.pool.Drained) (hparked : site.pool.parked = false) :
    site.pool.Rests where
  awake := hparked
  serving_eq := drained.serving_eq
  length_eq := by rw [drained.length_eq, drained.idle_eq, List.length_nil]
  drained := fun _ => drained

theorem status_terminated (site : Site) : (site.called .terminate).2.pool.status = .dead := by
  simp only [called, setStatus]
  rcases site.status_cleared with ⟨hdead, hsame⟩ | ⟨-, hexiting⟩
  · rw [hsame, site.pool.setStatus_of_dead hdead, hdead]
  · simp [Pool.setStatus, hexiting, Status.canBecome, Pool.emit]

theorem drained_terminated (rests : site.pool.Rests) :
    (site.called .terminate).2.pool.Drained ∧ (site.called .terminate).2.pool.parked = false := by
  have drained := drained_cleared rests
  have hparked := parked_cleared rests
  simp only [called, setStatus]
  rcases site.cleared.pool.setStatus_eq .dead with h | ⟨-, h⟩
  · rw [h]
    exact ⟨drained, hparked⟩
  · rw [h]
    exact ⟨{ drained with }, hparked⟩

/-- A terminated pool stays as it is, whatever is called. -/
theorem called_of_dead (hdead : site.pool.status = .dead) (call : LifecycleCall) :
    (site.called call).2 = site := by
  cases call with
  | shutdown => exact cleared_of_dead hdead
  | terminate =>
      simp only [called, cleared_of_dead hdead, setStatus, site.pool.setStatus_of_dead hdead]
  | restart root => simp only [called, restarted, if_pos hdead]

theorem called_cleared (site : Site) (call : LifecycleCall) :
    site.cleared.called call = site.called call := by
  cases call with
  | shutdown | terminate => simp only [called, cleared_cleared]
  | restart root =>
      rcases site.status_cleared with ⟨-, hsame⟩ | ⟨hdead, -⟩
      · rw [hsame]
      · have hexiting : site.emptied.pool.status ≠ .dead := nofun
        simp only [called, cleared_of_ne_dead hdead, restarted_of_ne_dead hdead,
          restarted_of_ne_dead hexiting, emptied_emptied]

/-- A shutdown in front of another call is told that it succeeded, and that is all. -/
theorem behind_shutdown (rests : site.pool.Rests) (call : LifecycleCall) :
    site.answers [.shutdown, call] = some (.ok ()) :: site.answers [call] ∧
      site.left [.shutdown, call] = site.left [call] := by
  have cleared : (site.called .shutdown).2.pool.Rests :=
    rests_of_drained (drained_cleared rests) (parked_cleared rests)
  have hcalled : (site.called .shutdown).2.called call = site.called call :=
    site.called_cleared call
  constructor
  · rw [answers_cons rests, answers_cons cleared, answers_cons rests, hcalled]
    rfl
  · rw [left_cons rests, left_cons cleared, left_cons rests, hcalled]

theorem behind_terminate (rests : site.pool.Rests) (call : LifecycleCall) :
    site.answers [.terminate, call] =
        [some (.ok ()), some ((site.called .terminate).2.called call).1] ∧
      site.left [.terminate, call] = site.left [.terminate] := by
  obtain ⟨drained, hparked⟩ := drained_terminated rests
  have terminated := rests_of_drained drained hparked
  constructor
  · rw [answers_cons rests, answers_cons terminated]
    rfl
  · rw [left_cons rests, left_cons terminated, called_of_dead site.status_terminated,
      left_cons rests]

theorem composes (rests : site.pool.Rests) : Composes site.answers site.left where
  shutdown_twice := by
    rw [(behind_shutdown rests .shutdown).1, answers_cons rests]
    exact ⟨rfl, (behind_shutdown rests .shutdown).2⟩
  terminate_behind_shutdown := by
    rw [(behind_shutdown rests .terminate).1, answers_cons rests]
    exact ⟨rfl, (behind_shutdown rests .terminate).2⟩
  restart_behind_shutdown := fun root => behind_shutdown rests (.restart root)
  behind_terminate := fun call => (behind_terminate rests call).2
  shutdown_behind_terminate := (behind_terminate rests .shutdown).1
  terminate_twice := (behind_terminate rests .terminate).1
  restart_behind_terminate := by
    intro root
    have hrefused : (site.called .terminate).2.called (.restart root) =
        (.error .dead, (site.called .terminate).2) := if_pos site.status_terminated
    rw [(behind_terminate rests (.restart root)).1, hrefused]

end Site

namespace System

variable {sys : System}

theorem Reachable.rests (h : sys.Reachable) (hserving : sys.site.pool.serving = 0) :
    sys.site.pool.Rests where
  toQuiet := h.sound.books.quiet hserving
  drained := h.drained_of_dead

theorem AtRest.called (rest : sys.AtRest) (rests : sys.site.pool.Rests) (call : LifecycleCall) :
    sys.answer call = some (sys.site.called call).1 ∧
      (sys.alone call).site = (sys.site.called call).2 ∧ (sys.alone call).AtRest := by
  obtain ⟨hsite, hcall, hlock, hopen⟩ :=
    rest.alone (LifecycleRun.advance_called rests call) (by simp [LifecycleRun.result?])
  refine ⟨?_, hsite, hopen, hlock, ?_⟩
  · rw [System.answer, hcall]
    rfl
  · rw [hsite, Site.serving_called]
    exact rest.serving_eq

/-- Somebody makes lifecycle calls, one after the other, and nobody else acts. -/
def sequence (sys : System) (calls : List LifecycleCall) : System :=
  calls.foldl alone sys

theorem sequence_cons (sys : System) (call : LifecycleCall) (calls : List LifecycleCall) :
    sys.sequence (call :: calls) = (sys.alone call).sequence calls := by
  simp only [sequence, List.foldl_cons]

def answers (sys : System) : List LifecycleCall → List (Option (Outcome PoolError Unit))
  | [] => []
  | call :: calls => sys.answer call :: (sys.alone call).answers calls

/-- Calls that nobody disturbs come to what they come to on the pool by itself. -/
theorem AtRest.sequence (rest : sys.AtRest) (h : sys.Reachable) (calls : List LifecycleCall) :
    sys.answers calls = sys.site.answers calls ∧
      (sys.sequence calls).site = sys.site.left calls := by
  -- After each call the system is at rest again, and its pool is what the call left behind.
  induction calls generalizing sys with
  | nil => exact ⟨rfl, rfl⟩
  | cons call calls ih =>
      have rests := h.rests rest.serving_eq
      obtain ⟨hanswer, hsite, later⟩ := rest.called rests call
      obtain ⟨hanswers, hleft⟩ := ih later (h.alone call)
      rw [hsite] at hanswers hleft
      constructor
      · rw [answers, hanswer, hanswers, Site.answers_cons rests]
      · rw [sequence_cons, hleft, Site.left_cons rests]

/-- Lifecycle calls on a pool that nothing is checked out of compose: as the sections of the pool
do, and as calls do that nobody disturbs. -/
theorem resting_composes (h : sys.Reachable) (hserving : sys.site.pool.serving = 0) :
    Composes sys.site.answers sys.site.left ∧
      (sys.isOpen = true → sys.lock = none →
        Composes sys.answers fun calls => (sys.sequence calls).site) := by
  have composes := Site.composes (h.rests hserving)
  refine ⟨composes, fun hopen hlock => ?_⟩
  have hsequence := AtRest.sequence ⟨hopen, hlock, hserving⟩ h
  have hanswers : sys.answers = sys.site.answers := funext fun calls => (hsequence calls).1
  have hleft : (fun calls => (sys.sequence calls).site) = sys.site.left :=
    funext fun calls => (hsequence calls).2
  rw [hanswers, hleft]
  exact composes

/-- A restart whose hook fails, behind a shutdown. -/
theorem frail_composes :
    (frail.Reachable ∧ frail.site.pool.serving = 0 ∧ frail.isOpen = true ∧ frail.lock = none) ∧
      Composes frail.answers (fun calls => (frail.sequence calls).site) ∧
      frail.answers [.shutdown, .restart ⟨0⟩] =
        [some (.ok ()),
          some (.error (.initialization "init hook failed" (.runtime "hook failed")))] := by
  have hserving : frail.site.pool.serving = 0 := by decide
  have composes := (resting_composes reachable_frail hserving).2 (by decide) (by decide)
  have hanswer : frail.answers [.restart ⟨0⟩] =
      [some (.error (.initialization "init hook failed" (.runtime "hook failed")))] := by
    decide +kernel
  refine ⟨⟨reachable_frail, hserving, by decide, by decide⟩, composes, ?_⟩
  rw [(composes.restart_behind_shutdown ⟨0⟩).1, hanswer]

end System

end StatePool
