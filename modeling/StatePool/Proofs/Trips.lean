import StatePool.Proofs.Requests

/-!
What a trip of the watchdog comes to.

A trip reaches the work as an error, and the work may swallow it.  It is remembered all the same,
but only an error at the end of the work is put down to it: work that ends well after a trip counts
as a success, and its state as a good one.
-/

namespace StatePool

namespace Work

variable {σ α : Type}

/-- The trips of a run, in order. -/
def trips (watch : σ → Option Trip) : Work σ α → List Trip
  | .finish _ _ => []
  | .look state resume =>
      match watch state with
      | none => (resume none).trips watch
      | some trip => trip :: (resume (some trip)).trips watch

/-- What a run remembers is its last trip, whatever the work made of it. -/
theorem run_last (watch : σ → Option Trip) (work : Work σ α) (last : Option Trip) :
    (work.run watch last).2.2 = (work.trips watch).getLast?.or last := by
  induction work generalizing last with
  | finish state result => rfl
  | look state resume ih =>
      simp only [run, trips]
      cases h : watch state with
      | none => exact ih none last
      | some trip =>
          simp only
          rw [ih (some trip) (some trip), List.getLast?_cons]
          cases ((resume (some trip)).trips watch).getLast? <;> rfl

end Work

/-! ### Scripts -/

namespace Script

def Caller.isGuard : Caller → Bool
  | .guard _ _ _ => true
  | .script _ => false

namespace Machine

variable {machine rested : Machine} {raise : Raise} {trip : Trip}

theorem unwind_of_unguarded (machine : Machine) (raise : Raise) {callers : List Caller}
    (h : ∀ caller ∈ callers, caller.isGuard = false) :
    machine.unwind raise callers = .finished (machine.partFrom 0) (.error raise) := by
  induction callers with
  | nil => rfl
  | cons caller callers ih =>
      rw [List.forall_mem_cons] at h
      cases caller with
      | script frame => exact ih h.2
      | guard slot wanted isLast => cases h.1

/-- Only a protected call can swallow a trip: any other script ends with it. -/
theorem run_of_unguarded {bound : Nat} {watch : Machine → Option Trip} {last : Option Trip}
    (hpaused : stretch (watchInterval - 1 - machine.interp.instructions) machine = .paused rested)
    (hguards : ∀ caller ∈ rested.callers, caller.isGuard = false)
    (htrip : watch { rested with interp.instructions := 0 }.view = some trip) :
    ((machine.run (bound + 1)).run watch last).2 =
      (.error (.host (tripText trip)), some trip) := by
  have hends : afterLook { rested with interp.instructions := 0 } (some trip) =
      .finished (partFrom { rested with interp.instructions := 0 } 0)
        (.error (.host (tripText trip))) :=
    unwind_of_unguarded _ _ hguards
  simp only [run, hpaused, Work.run, htrip, hends]

end Machine

end Script

/-! ### Requests -/

/-- What a request that fails after a trip is told. -/
def Trip.error (seconds : Nat) : Trip → PoolError
  | .cancelled => .cancelled
  | .timedOut => .timeout seconds

namespace Site

variable {α : Type} {site : Site} {request : Token} {state : LuaState} {task : Task α}
  {result : Outcome ScriptError α} {trips : List Trip} {trip : Trip}

/-- What a task comes to by itself on a checked-out state, and the trips on the way there; nothing
if the task does not even begin. -/
def ending (site : Site) (request : Token) (state : LuaState) (task : Task α) :
    Option (Outcome ScriptError α × List Trip) :=
  match state.interpreter with
  | none => none
  | some interp =>
      match Watch.deadlineFrom site.world.clock site.pool.config.requestTimeout with
      | .panic _ => none
      | .ok deadline =>
          let watch : Watch := { request, own := state.token, deadline }
          let work := task { site, interp := interp.hookIn watch }
          some ((work.run watch.tick none).2.1, work.trips watch.tick)

theorem runWatched_of_ending (h : site.ending request state task = some (result, trips)) :
    (site.runWatched request state task).1 =
      judge site.pool.config.requestTimeout trips.getLast? result := by
  unfold ending at h
  unfold runWatched
  cases hinterp : state.interpreter with
  | none => simp [hinterp] at h
  | some interp =>
      cases hdeadline : Watch.deadlineFrom site.world.clock site.pool.config.requestTimeout with
      | error e => exact e.elim
      | panic fault => simp [hinterp, hdeadline] at h
      | ok deadline =>
          simp only [hinterp, hdeadline, Option.some.injEq, Prod.mk.injEq] at h
          obtain ⟨rfl, rfl⟩ := h
          simp only
          rw [hdeadline]
          simp only [Work.run_last, Option.or_none]

/-- An error after a trip is put down to the trip; success and faults stay what they are. -/
theorem judge_of_trip (seconds : Nat) (trip : Trip) (result : Outcome ScriptError α) :
    judge seconds (some trip) result =
      match result with
      | .ok a => .ok a
      | .error _ => .error (trip.error seconds)
      | .panic fault => .panic fault := by
  cases result with
  | ok a => rfl
  | error e => cases trip <;> rfl
  | panic fault => rfl

theorem ruling_of_ageless {fault : ClockFault} (haccepts : site.pool.status.accepts = true)
    (hbudget : state.budget = 0) (hseconds : 0 < state.idleSeconds)
    (hclock : site.world.clock.now = .error fault) : site.ruling state = .error fault := by
  have hjudged : state.mustTerminate site.world.clock = .error fault := by
    simp only [LuaState.mustTerminate, hbudget, Nat.lt_irrefl, ↓reduceIte,
      if_neg (Nat.pos_iff_ne_zero.1 hseconds), hclock]
  simp [ruling, haccepts, hjudged]

end Site

namespace System

variable {α : Type} {sys mid after : System} {request : Token} {task : Task α}
  {state ran : LuaState} {next : Site} {instant : Int} {seconds : Nat} {trip : Trip}
  {trips : List Trip} {ended : Outcome ScriptError α} {result answer : Outcome PoolError α}

/-- What becomes of a request whose watchdog tripped, the last time with `trip`, and whose task came
to `result` by itself. -/
structure Tripped (mid after : System) (ran : LuaState) (seconds : Nat) (trip : Trip)
    (result : Outcome ScriptError α) (answer : Outcome PoolError α) : Prop where
  /-- The request is ended by the trip, and its state by a script failure, just if the task did not
  get over the trip. -/
  ended_iff : answer = .error (trip.error seconds) ∧ after.Dismissed ran.id .scriptFailure ↔
    ∃ e, result = .error e
  /-- The state goes back to the others just if the task ended well and nothing else stands against
  it. -/
  waits_iff : ran.id ∈ after.site.pool.idle.map (·.id) ↔
    (∃ a, result = .ok a) ∧ mid.site.ruling ran = .ok none
  swallowed : ∀ a, result = .ok a →
    match mid.site.ruling ran with
    | .ok none => answer = .ok a
    | .ok (some reason) => answer = .ok a ∧ after.Dismissed ran.id reason
    | .error fault => answer = .panic (.clock fault)
  unwound : ∀ fault, result = .panic fault →
    answer = .panic fault ∧ after.Dismissed ran.id .scriptFailure

theorem Concluded.waits_iff (h : mid.Concluded ran instant result answer after)
    (hidle : ran.id ∉ mid.site.pool.idle.map (·.id)) :
    ran.id ∈ after.site.pool.idle.map (·.id) ↔ mid.site.sentence ran result = .ok none := by
  cases h with
  | recycled hsentence hsite =>
      rw [hsite, hsentence]
      simp [Site.requeued, Pool.emit, LuaState.setServing]
  | retired hsentence hsite =>
      rw [hsite, hsentence]
      simpa [Site.retired, Pool.emit, Pool.released] using hidle
  | ageless hresult haccepts hbudget hseconds hclock hsite =>
      obtain ⟨a, rfl⟩ := hresult
      have hruling := Site.ruling_of_ageless haccepts hbudget hseconds hclock
      rw [hsite, Site.sentence, hruling]
      simpa [Site.forget] using hidle

/-- Success is passed on, unless the state's age is asked for and cannot be told. -/
theorem Concluded.of_ok {a : α} (h : mid.Concluded ran instant (.ok a) answer after) :
    match mid.site.ruling ran with
    | .ok none => answer = .ok a
    | .ok (some reason) => answer = .ok a ∧ after.Dismissed ran.id reason
    | .error fault => answer = .panic (.clock fault) := by
  cases h with
  | recycled hsentence =>
      rw [Site.sentence] at hsentence
      simp only [hsentence]
  | retired hsentence _ _ dismissed =>
      rw [Site.sentence] at hsentence
      simp only [hsentence]
      exact ⟨trivial, dismissed⟩
  | ageless _ haccepts hbudget hseconds hclock =>
      simp only [Site.ruling_of_ageless haccepts hbudget hseconds hclock]

/-- Work that failed is the end of its state. -/
theorem Concluded.of_failure (h : mid.Concluded ran instant result answer after)
    (hfailure : ∀ a, result ≠ .ok a) :
    answer = result ∧ after.Dismissed ran.id .scriptFailure := by
  have hsentence : mid.site.sentence ran result = .ok (some .scriptFailure) := by
    cases result with
    | ok a => exact absurd rfl (hfailure a)
    | error e => rfl
    | panic fault => rfl
  cases h with
  | recycled hother => cases hsentence.symm.trans hother
  | retired hother _ _ dismissed =>
      cases hsentence.symm.trans hother
      exact ⟨rfl, dismissed⟩
  | ageless hresult =>
      obtain ⟨a, hresult⟩ := hresult
      exact absurd hresult (hfailure a)

theorem Concluded.tripped
    (h : mid.Concluded ran instant (Site.judge seconds (some trip) ended) answer after)
    (hidle : ran.id ∉ mid.site.pool.idle.map (·.id)) :
    Tripped mid after ran seconds trip ended answer := by
  have hwaits := h.waits_iff hidle
  rw [Site.judge_of_trip] at h hwaits
  cases ended with
  | ok a =>
      have hok := h.of_ok
      constructor
      · constructor
        · rintro ⟨rfl, -⟩
          exfalso
          split at hok
          · cases hok
          · cases hok.1
          · cases hok
        · rintro ⟨e, he⟩
          cases he
      · rw [hwaits, Site.sentence]
        constructor
        · intro hruling
          exact ⟨⟨a, rfl⟩, hruling⟩
        · rintro ⟨-, hruling⟩
          exact hruling
      · rintro b hb
        cases hb
        exact hok
      · nofun
  | error e =>
      have hfailed := h.of_failure nofun
      constructor
      · constructor
        · intro _
          exact ⟨e, rfl⟩
        · intro _
          exact hfailed
      · rw [hwaits]
        constructor
        · nofun
        · rintro ⟨⟨a, ha⟩, -⟩
          cases ha
      · nofun
      · nofun
  | panic fault =>
      have hfailed := h.of_failure nofun
      constructor
      · constructor
        · rintro ⟨hanswer, -⟩
          cases hfailed.1.symm.trans hanswer
        · rintro ⟨e, he⟩
          cases he
      · rw [hwaits]
        constructor
        · nofun
        · rintro ⟨⟨a, ha⟩, -⟩
          cases ha
      · nofun
      · rintro other hother
        cases hother
        exact hfailed

/-- Whatever the task did about the trips, and whatever others did with the pool meanwhile: the
request is ended by the last trip if the task came to an error, and else goes on as if there had
been none. -/
theorem lived_tripped (lived : sys.Lived) (hopen : sys.isOpen = true)
    (hget : sys.site.get request = (.ok state, next))
    (hending : next.ending request state task = some (ended, trips))
    (htrip : trips.getLast? = some trip)
    (h : (sys.step (.get request)).2.Meanwhile [state.id] mid)
    (hmid : mid.site = (next.runWatched request state task).2.2) :
    ∃ after, mid.Meanwhile [] after ∧
      after.site = (sys.site.withState request task).2 ∧
      Tripped mid after (next.runWatched request state task).2.1
        next.pool.config.requestTimeout trip ended (sys.site.withState request task).1 := by
  obtain ⟨code, -, conducted⟩ := lived.conducts hopen task hget h hmid
  generalize mid.settle state.id code _ = after at conducted
  refine ⟨after, conducted.later, conducted.site_eq, ?_⟩
  have hlent := lived.meanwhile (sys.step_get_meanwhile request [])
  have hid : (next.runWatched request state task).2.1.id = state.id := by
    obtain ⟨code, hcode, -⟩ := next.runWatched_eq_touch request state task mid.site.world
    rw [hcode]
    rfl
  have hidle : (next.runWatched request state task).2.1.id ∉ mid.site.pool.idle.map (·.id) := by
    rw [hid]
    exact (h.sound hlent.sound).books.held_apart conducted.held
  have concluded := conducted.concluded
  rw [Site.runWatched_of_ending hending, htrip] at concluded
  exact concluded.tripped hidle

/-- Two minutes pass, and then a script loops in a protected call: it hears that this took too long,
and ends well all the same. -/
def heedless : Task Unit :=
  (Task.onWorld fun world => { world with clock := world.clock.advance 120000 }).andThen fun _ =>
    Task.runText (.named "do_string") "pcall(function() while true do end end)"

theorem civil_heedless : heedless.Civil := by
  have usage := System.usage_meanwhile
  refine (Task.within_onWorld usage ?_).andThen usage fun _ => Task.within_runText usage _ _
  intro world
  rfl

theorem heedless_tripped :
    ∃ state next mid after, engaged.site.get ⟨0⟩ = (.ok state, next) ∧
      next.ending ⟨0⟩ state heedless = some (.ok (), [.timedOut]) ∧
      (engaged.step (.get ⟨0⟩)).2.Meanwhile [state.id] mid ∧
      mid.site = (next.runWatched ⟨0⟩ state heedless).2.2 ∧
      after.site = (engaged.site.withState ⟨0⟩ heedless).2 ∧
      Tripped mid after (next.runWatched ⟨0⟩ state heedless).2.1
        next.pool.config.requestTimeout .timedOut (.ok ())
        (engaged.site.withState ⟨0⟩ heedless).1 := by
  obtain ⟨state, next, hget, hending⟩ : ∃ state next,
      engaged.site.get ⟨0⟩ = (.ok state, next) ∧
      next.ending ⟨0⟩ state heedless = some (.ok (), [.timedOut]) :=
    ⟨_, _, rfl, by decide +kernel⟩
  have hopen : engaged.isOpen = true := by decide
  obtain ⟨mid, hmid, hran⟩ :=
    (reachable_engaged.lived.lends hopen).leads_runWatched usage_meanwhile civil_heedless hget
  obtain ⟨after, -, hafter, tripped⟩ :=
    lived_tripped reachable_engaged.lived hopen hget hending rfl hmid hran
  exact ⟨state, next, mid, after, hget, hending, hmid, hran, hafter, tripped⟩

/-- A trip does not always end the request. -/
theorem not_trip_ends :
    ¬ ∀ sys : System, sys.Reachable → sys.isOpen = true →
      ∀ (request : Token) (task : Task Unit) (state : LuaState) (next : Site),
        sys.site.get request = (.ok state, next) →
          ∀ ended trips, next.ending request state task = some (ended, trips) → trips ≠ [] →
            ∃ trip : Trip, (sys.site.withState request task).1 =
              .error (trip.error next.pool.config.requestTimeout) := by
  intro ends
  obtain ⟨state, next, hget, hending⟩ : ∃ state next,
      engaged.site.get ⟨0⟩ = (.ok state, next) ∧
      next.ending ⟨0⟩ state heedless = some (.ok (), [.timedOut]) :=
    ⟨_, _, rfl, by decide +kernel⟩
  obtain ⟨trip, htrip⟩ :=
    ends engaged reachable_engaged (by decide) ⟨0⟩ heedless state next hget _ _ hending nofun
  have hanswer : (engaged.site.withState ⟨0⟩ heedless).1 = .ok () := by decide +kernel
  rw [hanswer] at htrip
  cases htrip

end System

end StatePool
