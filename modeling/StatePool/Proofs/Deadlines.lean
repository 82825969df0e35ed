import StatePool.Proofs.Inheritance
import StatePool.Proofs.Living
import StatePool.Proofs.Trips

/-!
Deadlines of requests.

A request may be given any number of seconds, up to the largest one that signed numbers of 64 bits
tell, and the monotonic clock counts its seconds in the same numbers.  Where the deadline is behind
the last instant of that clock the request panics before its task begins, at the expense of its
state.  Everywhere else the task runs, and what it comes to is the answer.
-/

namespace StatePool

/-- The deadline of a request that starts now is an instant that the clock cannot tell. -/
def Clock.Overflows (clock : Clock) (seconds : Nat) : Prop :=
  0 < seconds ∧ Nat.pow 2 63 ≤ wholeSeconds clock.monotonic + seconds

namespace Watch

variable {clock : Clock} {seconds : Nat}

theorem deadlineFrom_of_overflows (h : clock.Overflows seconds) :
    deadlineFrom clock seconds = .panic .deadlineOverflow := by
  rw [deadlineFrom, if_neg (Nat.pos_iff_ne_zero.1 h.1), if_pos h.2]

theorem deadlineFrom_of_fits (h : ¬ clock.Overflows seconds) :
    deadlineFrom clock seconds =
      .ok (if seconds = 0 then none else some (clock.monotonic + 1000 * seconds)) := by
  unfold deadlineFrom
  split
  · rfl
  · next hseconds =>
      have hlt : ¬ (Nat.pow 2 63 : Nat) ≤ Clock.wholeSeconds clock.monotonic + seconds :=
        fun hle => h ⟨Nat.pos_of_ne_zero hseconds, hle⟩
      rw [if_neg hlt]

end Watch

namespace Site

variable {α : Type} {site next : Site} {request : Token} {state : LuaState} {task : Task α}
  {result : Outcome PoolError LuaState}

/-- What is told of work on a state: its result, unless the state's age is asked for and cannot be
told. -/
def reply (site : Site) (state : LuaState) (result : Outcome PoolError α) : Outcome PoolError α :=
  match site.sentence state result with
  | .error fault => .panic (.clock fault)
  | .ok _ => result

theorem config_get (h : site.get request = (result, next)) :
    next.pool.config = site.pool.config := by
  unfold get at h
  split at h
  · cases h
    rfl
  · have checked := site.checkOut_checkedOut
    rw [h] at checked
    cases checked <;> rfl

theorem ending_of_fits (hinterpreter : state.interpreter ≠ none)
    (h : ¬ site.world.clock.Overflows site.pool.config.requestTimeout) :
    ∃ ended trips, site.ending request state task = some (ended, trips) := by
  cases hinterp : state.interpreter with
  | none => exact absurd hinterp hinterpreter
  | some interp =>
      simp only [ending, hinterp, Watch.deadlineFrom_of_fits h]
      exact ⟨_, _, rfl⟩

theorem runWatched_of_overflows (hinterpreter : state.interpreter ≠ none)
    (h : site.world.clock.Overflows site.pool.config.requestTimeout) :
    site.runWatched request state task = (.panic .deadlineOverflow, state, site) := by
  cases hinterp : state.interpreter with
  | none => exact absurd hinterp hinterpreter
  | some interp => simp only [runWatched, hinterp, Watch.deadlineFrom_of_overflows h]

end Site

namespace System

variable {α : Type} {sys mid after : System} {request : Token} {task : Task α}
  {state ran : LuaState} {next : Site} {instant : Int} {config : Config} {spared : List StateId}
  {result answer : Outcome PoolError α}

theorem Lived.living (lived : sys.Lived) : sys.Living := by
  obtain ⟨config, hook, root, world, -, h⟩ := lived
  induction h with
  | refl => exact living_make config hook root world
  | @act _ _ action _ _ ih => exact ih.step action
  | stir _ _ ih => exact ih.used ih.usable fun origin state h => by cases origin <;> exact h

theorem Lived.alive_of_get (lived : sys.Lived) (hget : sys.site.get request = (.ok state, next)) :
    state.Alive := by
  unfold Site.get at hget
  split at hget
  · cases hget
  · have checked := sys.site.checkOut_checkedOut
    rw [hget] at checked
    exact (checked.alive lived.living.usable).1

theorem Lived.taken_of_get (lived : sys.Lived) (hopen : sys.isOpen = true)
    (hget : sys.site.get request = (.ok state, next)) :
    next.Taken state next.world.clock.monotonic := by
  have hsite : (sys.step (.get request)).2.site = next := by rw [step_get_site hopen, hget]
  have hheld : state ∈ (sys.step (.get request)).2.held := by
    rw [(step_get hopen hget).1]
    exact List.mem_cons_self
  obtain ⟨-, hclosed, hsince⟩ := Site.lent_of_get lived.sound.books.idle_rests hget
  have taken := (lived.meanwhile (sys.step_get_meanwhile request [])).sound.taken hheld hclosed
    hsince
  rwa [hsite] at taken

theorem Concluded.answer_eq (h : mid.Concluded ran instant result answer after) :
    answer = mid.site.reply ran result := by
  cases h with
  | recycled hsentence | retired hsentence => simp only [Site.reply, hsentence]
  | ageless hresult haccepts hbudget hidle hclock =>
      obtain ⟨a, rfl⟩ := hresult
      have hruling := Site.ruling_of_ageless haccepts hbudget hidle hclock
      simp only [Site.reply, Site.sentence, hruling]

theorem Lived.answer_eq (lived : sys.Lived) (hopen : sys.isOpen = true) (task : Task α)
    (hget : sys.site.get request = (.ok state, next))
    (h : (sys.step (.get request)).2.Meanwhile [state.id] mid)
    (hmid : mid.site = (next.runWatched request state task).2.2) :
    let ran := next.runWatched request state task
    (sys.site.withState request task).1 = mid.site.reply ran.2.1 ran.1 := by
  obtain ⟨code, -, conducted⟩ := lived.conducts hopen task hget h hmid
  exact conducted.concluded.answer_eq

/-- What comes of a request for which a state was checked out, if the pool gives requests a number
of seconds. -/
structure Timed (sys : System) (request : Token) (task : Task α) (seconds : Nat)
    (state : LuaState) (next : Site) : Prop where
  timeout_eq : next.pool.config.requestTimeout = seconds
  /-- Whatever the task is, the answer is a panic, and the state is gone. -/
  overflows : next.world.clock.Overflows seconds →
    sys.site.withState request task = (.panic .deadlineOverflow, next.retired state .scriptFailure)
  fits : ¬ next.world.clock.Overflows seconds →
    ∃ ended trips, next.ending request state task = some (ended, trips) ∧
      (next.runWatched request state task).1 = Site.judge seconds trips.getLast? ended ∧
      ∀ mid, (sys.step (.get request)).2.Meanwhile [state.id] mid →
        mid.site = (next.runWatched request state task).2.2 →
          (sys.site.withState request task).1 =
            mid.site.reply (next.runWatched request state task).2.1
              (Site.judge seconds trips.getLast? ended)

theorem Lived.timed (lived : sys.Lived) (hopen : sys.isOpen = true)
    (hget : sys.site.get request = (.ok state, next)) (task : Task α) :
    sys.Timed request task sys.site.pool.config.requestTimeout state next := by
  have hconfig := Site.config_get hget
  have alive := lived.alive_of_get hget
  rw [← hconfig]
  refine ⟨rfl, ?_, ?_⟩
  · intro h
    have hran : next.runWatched request state task = (.panic .deadlineOverflow, state, next) :=
      Site.runWatched_of_overflows alive.interpreter_ne h
    have taken := lived.taken_of_get hopen hget
    rw [Site.withState_eq_partAfter _ _ _ hget]
    simp only [hran, Site.partAfter, Site.dropGuardUnwinding, taken.close_eq]
  · intro h
    obtain ⟨ended, trips, hending⟩ :
        ∃ ended trips, next.ending request state task = some (ended, trips) :=
      Site.ending_of_fits alive.interpreter_ne h
    have hran := Site.runWatched_of_ending hending
    refine ⟨ended, trips, hending, hran, fun mid hmeanwhile hmid => ?_⟩
    rw [lived.answer_eq hopen task hget hmeanwhile hmid, hran]

/-- A pool that was made with any request timeout at all. -/
theorem made_timed {capacity seeds budget requestTimeout : Int64} {text : String}
    (hpolicy : Config.ofPolicy capacity seeds budget requestTimeout text = .ok config)
    (options : StateOptions) (hook : Option InitHook) (root : Token) (world : World)
    (later : (make (config.withStateOptions options) hook root world).Meanwhile spared sys)
    (hopen : sys.isOpen = true) (hget : sys.site.get request = (.ok state, next))
    (task : Task α) :
    sys.Timed request task (Limits.requestTimeout requestTimeout) state next := by
  have built := (Config.Built.ofPolicy hpolicy).withStateOptions options
  have lived : sys.Lived := ⟨_, hook, root, world, built, later.mono nofun⟩
  obtain ⟨others, hconfig⟩ := (uniform_made hook root world later).obeys
  have htimeout : sys.site.pool.config.requestTimeout = Limits.requestTimeout requestTimeout := by
    unfold Config.ofPolicy at hpolicy
    split at hpolicy
    · cases hpolicy
    · cases hpolicy
      rw [hconfig]
      rfl
  have timed := lived.timed hopen hget task
  rwa [htimeout] at timed

theorem engaged_timed :
    ∃ state next, engaged.site.get ⟨0⟩ = (.ok state, next) ∧
      ¬ next.world.clock.Overflows (Limits.requestTimeout (-1)) ∧
      engaged.Timed ⟨0⟩ heedless (Limits.requestTimeout (-1)) state next := by
  obtain ⟨state, next, hget, hfits⟩ : ∃ state next, engaged.site.get ⟨0⟩ = (.ok state, next) ∧
      ¬ next.world.clock.Overflows (Limits.requestTimeout (-1)) :=
    ⟨_, _, rfl, fun h => absurd h.2 (by decide)⟩
  have later : (make (Config.small.withStateOptions {}) none ⟨0⟩ clean).Meanwhile [] engaged :=
    .act (.act (.act (.act .refl rfl rfl) rfl rfl) rfl rfl) rfl rfl
  exact ⟨state, next, hget, hfits,
    made_timed Config.ofPolicy_small {} none ⟨0⟩ clean later (by decide) hget heedless⟩

/-- Requests may take as long as can be asked for. -/
def patient : Config :=
  { Config.default with requestTimeout := 9223372036854775807 }

theorem built_patient : patient.Built := by
  have hread : IdleTimeout.read "1h" = .ok ⟨1, .hours⟩ := rfl
  have h : Config.ofPolicy 0 1 0 9223372036854775807 "1h" = .ok patient := by
    simp [Config.ofPolicy, hread, patient, Config.default]
    decide
  exact .ofPolicy h

/-- A request may panic on account of its timeout alone. -/
theorem not_timeout_usable :
    ¬ ∀ sys : System, sys.Reachable → sys.isOpen = true →
      ∀ (request : Token) (task : Task Unit),
        (sys.site.withState request task).1 ≠ .panic .deadlineOverflow := by
  intro usable
  let sys := (make patient none ⟨0⟩ clean).run [.advance 0, .advance 0, .advance 0]
  have reachable : sys.Reachable := (Reachable.made built_patient none ⟨0⟩ clean).run (by decide)
  have hpanic : (sys.site.withState ⟨0⟩ (Task.done (.ok ()))).1 = .panic .deadlineOverflow := rfl
  exact usable sys reachable (by decide) ⟨0⟩ _ hpanic

end System

end StatePool
