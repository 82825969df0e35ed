import StatePool.Proofs.Checkout
import StatePool.Proofs.Deadlines

/-!
What requests are told.

The watchdog looks at a request time and again, and what it sees may change in any way between two of
its looks.  A request that is told that it was cancelled, or that it took too long, is told so because
of one of its own looks; without a trip it is told what its task came to.  What an earlier request
has left in an interpreter has no part in that, and its watch is not even hooked in any more.
-/

namespace StatePool

namespace Work

variable {σ α : Type}

/-- The states that the watchdog looked at, in order. -/
def looks (watch : σ → Option Trip) : Work σ α → List σ
  | .finish _ _ => []
  | .look state resume => state :: (resume (watch state)).looks watch

theorem trips_eq (watch : σ → Option Trip) (work : Work σ α) :
    work.trips watch = (work.looks watch).filterMap watch := by
  induction work with
  | finish state result => rfl
  | look state resume ih =>
      simp only [trips, looks, List.filterMap_cons]
      cases watch state with
      | none => exact ih none
      | some trip => exact congrArg _ (ih (some trip))

end Work

namespace Watch

variable {watch : Watch} {world : World}

theorem verdict_eq_cancelled (h : watch.verdict world = some .cancelled) :
    world.isCancelled watch.request = true ∨ world.isCancelled watch.own = true := by
  unfold verdict at h
  split at h
  · next hcancelled => exact Bool.or_eq_true_iff.1 hcancelled
  · split at h
    · cases h
    · split at h <;> cases h

theorem verdict_eq_timedOut (h : watch.verdict world = some .timedOut) :
    world.isCancelled watch.request = false ∧ world.isCancelled watch.own = false ∧
      ∃ deadline, watch.deadline = some deadline ∧ deadline ≤ world.clock.monotonic := by
  unfold verdict at h
  split at h
  · cases h
  · next hlive =>
      rw [Bool.not_eq_true, Bool.or_eq_false_iff] at hlive
      split at h
      · cases h
      · next deadline hdeadline =>
          split at h
          · next hle => exact ⟨hlive.1, hlive.2, deadline, hdeadline, hle⟩
          · cases h

/-- A watch trips only while it is hooked in. -/
theorem tick_eq_some {scene : Scene} {trip : Trip} (h : watch.tick scene = some trip) :
    scene.interp.hook = some watch ∧ watch.verdict scene.site.world = some trip := by
  unfold tick at h
  split at h
  · next hhook =>
      rw [Scene.tick, hhook] at h
      exact ⟨hhook, h⟩
  · cases h

end Watch

namespace Site

variable {α : Type} {site next : Site} {request : Token} {state : LuaState} {task : Task α}
  {ended : Outcome ScriptError α} {trips : List Trip} {trip : Trip} {last : Option Trip}
  {seconds : Nat} {e : PoolError}

/-- The watch over a request that begins now. -/
def watch (site : Site) (request : Token) (state : LuaState) : Watch where
  request
  own := state.token
  deadline :=
    let seconds := site.pool.config.requestTimeout
    if seconds = 0 then none else some (site.world.clock.monotonic + 1000 * seconds)

def sight (site : Site) (request : Token) (state : LuaState) (scene : Scene) : Option Trip :=
  (site.watch request state).tick scene

/-- What the watchdog of a request gets to see. -/
def looks (site : Site) (request : Token) (state : LuaState) (task : Task α) : List Scene :=
  match state.interpreter with
  | none => []
  | some interp =>
      (task { site, interp := interp.hookIn (site.watch request state) }).looks
        (site.sight request state)

/-- Some look at a request, by the watch that was hooked in for it, found it that many seconds on its
way, and not cancelled. -/
def SawLate (site : Site) (request : Token) (task : Task α) (seconds : Nat) : Prop :=
  ∃ state next, site.get request = (.ok state, next) ∧
    ∃ scene ∈ next.looks request state task,
      scene.interp.hook = some (next.watch request state) ∧
        next.world.clock.monotonic + 1000 * seconds ≤ scene.site.world.clock.monotonic ∧
        scene.site.isCancelled request = false ∧ scene.site.isCancelled state.token = false

/-- Some look at a request, by the watch that was hooked in for it, found it cancelled, or its
state. -/
def SawCancelled (site : Site) (request : Token) (task : Task α) : Prop :=
  ∃ state next, site.get request = (.ok state, next) ∧
    ∃ scene ∈ next.looks request state task,
      scene.interp.hook = some (next.watch request state) ∧
        (scene.site.isCancelled request = true ∨ scene.site.isCancelled state.token = true)

theorem trips_of_ending (h : site.ending request state task = some (ended, trips)) :
    trips = (site.looks request state task).filterMap (site.sight request state) := by
  unfold ending at h
  unfold looks
  cases hinterp : state.interpreter with
  | none => simp [hinterp] at h
  | some interp =>
      by_cases hover : site.world.clock.Overflows site.pool.config.requestTimeout
      · simp [hinterp, Watch.deadlineFrom_of_overflows hover] at h
      · simp only [hinterp, Watch.deadlineFrom_of_fits hover, Option.some.injEq,
          Prod.mk.injEq] at h
        obtain ⟨-, rfl⟩ := h
        exact Work.trips_eq _ _

theorem look_of_trip (h : site.ending request state task = some (ended, trips))
    (htrip : trips.getLast? = some trip) :
    ∃ scene ∈ site.looks request state task, site.sight request state scene = some trip := by
  have hmem := List.mem_of_getLast? htrip
  rw [trips_of_ending h] at hmem
  exact List.mem_filterMap.1 hmem

/-! ### Errors -/

theorem judge_eq_error (h : judge seconds last ended = .error e) :
    (∃ trip, last = some trip ∧ e = trip.error seconds) ∨
      last = none ∧ ∃ cause, ended = .error cause ∧ e = .script cause := by
  cases ended with
  | ok a | panic fault => cases h
  | error cause =>
      cases last with
      | none =>
          cases h
          exact .inr ⟨rfl, cause, rfl, rfl⟩
      | some trip =>
          rw [judge_of_trip] at h
          cases h
          exact .inl ⟨trip, rfl, rfl⟩

theorem runWatched_eq_error (h : (site.runWatched request state task).1 = .error e) :
    state.interpreter = none ∧ e = .closed ∨
      ∃ ended trips, site.ending request state task = some (ended, trips) ∧
        judge site.pool.config.requestTimeout trips.getLast? ended = .error e := by
  cases hinterp : state.interpreter with
  | none =>
      simp only [runWatched, hinterp, Outcome.error.injEq] at h
      exact .inl ⟨rfl, h.symm⟩
  | some interp =>
      cases hending : site.ending request state task with
      | some ending =>
          obtain ⟨ended, trips⟩ := ending
          rw [runWatched_of_ending hending] at h
          exact .inr ⟨ended, trips, rfl, h⟩
      | none =>
          have alive : state.interpreter ≠ none := by simp [hinterp]
          by_cases hover : site.world.clock.Overflows site.pool.config.requestTimeout
          · rw [runWatched_of_overflows alive hover] at h
            cases h
          · obtain ⟨ended, trips, heq⟩ :=
              ending_of_fits alive hover
            cases hending.symm.trans heq

theorem withState_eq_error (h : (site.withState request task).1 = .error e) :
    (∃ next, site.get request = (.error e, next)) ∨
      ∃ state next, site.get request = (.ok state, next) ∧
        (next.runWatched request state task).1 = .error e := by
  cases hget : site.get request with
  | mk result next =>
      cases result with
      | error other =>
          simp only [withState, hget, Outcome.error.injEq] at h
          exact .inl ⟨next, by rw [h]⟩
      | panic fault => simp [withState, hget] at h
      | ok state =>
          refine .inr ⟨state, next, rfl, ?_⟩
          rw [withState_eq_partAfter _ _ _ hget] at h
          simp only at h
          generalize next.runWatched request state task = ran at h ⊢
          obtain ⟨result, ran, last⟩ := ran
          cases result with
          | ok a =>
              simp only [partAfter] at h
              split at h <;> cases h
          | error other =>
              simp only [partAfter] at h
              split at h
              · exact h
              · cases h
          | panic fault => cases h

/-- Why a request is answered by an error. -/
inductive Blamed (site : Site) (request : Token) (task : Task α) (e : PoolError) : Prop
  | checkout (refuses : site.Refuses request (.error e))
  | closed (he : e = .closed)
  /-- One of the looks of its watchdog. -/
  | trip {state : LuaState} {next : Site} {scene : Scene} {trip : Trip}
      (hget : site.get request = (.ok state, next))
      (hlook : scene ∈ next.looks request state task)
      (hsight : next.sight request state scene = some trip)
      (he : e = trip.error site.pool.config.requestTimeout)
  | script {state : LuaState} {next : Site} {cause : ScriptError}
      (hget : site.get request = (.ok state, next))
      (hending : next.ending request state task = some (.error cause, []))
      (he : e = .script cause)

theorem withState_blamed (h : (site.withState request task).1 = .error e) :
    site.Blamed request task e := by
  rcases withState_eq_error h with ⟨next, hget⟩ | ⟨state, next, hget, hran⟩
  · exact .checkout (get_not_ok rfl hget).1
  · rcases runWatched_eq_error hran with ⟨-, he⟩ | ⟨ended, trips, hending, hjudged⟩
    · exact .closed he
    · rw [config_get hget] at hjudged
      rcases judge_eq_error hjudged with ⟨trip, hlast, he⟩ | ⟨hlast, cause, rfl, he⟩
      · obtain ⟨scene, hlook, hsight⟩ := look_of_trip hending hlast
        exact .trip hget hlook hsight he
      · rw [List.getLast?_eq_none_iff] at hlast
        subst hlast
        exact .script hget hending he

theorem Blamed.timedOut (h : site.Blamed request task (.timeout seconds)) :
    seconds = site.pool.config.requestTimeout ∧ 0 < seconds ∧
      site.SawLate request task seconds := by
  cases h with
  | checkout refuses =>
      cases refuses with
      | unborn _ _ _ _ unborn => cases unborn
  | closed he | script _ _ he => cases he
  | @trip state next scene trip hget hlook hsight he =>
      cases trip with
      | cancelled => cases he
      | timedOut =>
          cases he
          obtain ⟨hhook, hverdict⟩ := Watch.tick_eq_some hsight
          obtain ⟨hrequest, hown, deadline, hdeadline, hle⟩ := Watch.verdict_eq_timedOut hverdict
          simp only [watch, config_get hget] at hdeadline
          split at hdeadline
          · cases hdeadline
          · next hseconds =>
              cases hdeadline
              exact ⟨rfl, Nat.pos_of_ne_zero hseconds, state, next, hget, scene, hlook, hhook, hle,
                hrequest, hown⟩

theorem Blamed.cancelled (h : site.Blamed request task .cancelled) :
    site.isCancelled request = true ∨ site.SawCancelled request task := by
  cases h with
  | checkout refuses =>
      cases refuses with
      | cancelled hcancelled => exact .inl hcancelled
      | unborn _ _ _ _ unborn => cases unborn
  | closed he | script _ _ he => cases he
  | @trip state next scene trip hget hlook hsight he =>
      cases trip with
      | cancelled =>
          obtain ⟨hhook, hverdict⟩ := Watch.tick_eq_some hsight
          have hcancelled := Watch.verdict_eq_cancelled hverdict
          exact .inr ⟨state, next, hget, scene, hlook, hhook, hcancelled⟩
      | timedOut => cases he

/-- Neither the count of instructions nor the watch that was left behind earlier is looked at. -/
theorem runWatched_remark (interp : Script.Interpreter) (count : Nat) (hook : Option Watch)
    (hinterp : state.interpreter = some interp) :
    let marked :=
      { state with interpreter := some { interp with instructions := count, hook } }
    (site.runWatched request marked task).1 = (site.runWatched request state task).1 ∧
      (site.runWatched request marked task).2.2 = (site.runWatched request state task).2.2 := by
  simp only [runWatched, hinterp]
  cases Watch.deadlineFrom site.world.clock site.pool.config.requestTimeout with
  | ok deadline => exact ⟨rfl, rfl⟩
  | error e => exact e.elim
  | panic fault => exact ⟨rfl, rfl⟩

theorem runWatched_unhooked
    (h : ∀ fault, (site.runWatched request state task).1 ≠ .panic fault) :
    (site.runWatched request state task).2.1.Unhooked := by
  unfold runWatched at h ⊢
  cases hinterp : state.interpreter with
  | none =>
      intro interp hother
      cases hinterp.symm.trans hother
  | some interp =>
      simp only [hinterp] at h ⊢
      cases hdeadline : Watch.deadlineFrom site.world.clock site.pool.config.requestTimeout with
      | error e => exact e.elim
      | panic fault => exact absurd (by simp only [hdeadline]) (h fault)
      | ok deadline =>
          simp only [hdeadline] at h ⊢
          generalize Work.run _ _ _ = ran at h ⊢
          obtain ⟨scene, result, trip⟩ := ran
          intro other hother
          cases hother
          cases result with
          | ok a | error e => rfl
          | panic fault => exact absurd rfl (h fault)

end Site

namespace System

variable {α : Type} {sys mid after : System} {request : Token} {task : Task α}
  {state ran : LuaState} {next : Site} {instant : Int} {result answer : Outcome PoolError α}

/-- Behind work a state waits that waited before, or the one on which the work has returned. -/
theorem Concluded.waiting (h : mid.Concluded ran instant result answer after)
    {waiting : LuaState} (hwaits : waiting ∈ after.site.pool.idle) :
    waiting ∈ mid.site.pool.idle ∨
      waiting = ran.setServing mid.site.world.clock false ∧ ∃ a, result = .ok a := by
  cases h with
  | recycled hsentence hsite =>
      rw [hsite] at hwaits
      rcases List.mem_cons.1 hwaits with rfl | hwaits
      · refine .inr ⟨rfl, ?_⟩
        cases result with
        | ok a => exact ⟨a, rfl⟩
        | error e | panic fault => cases hsentence
      · exact .inl hwaits
  | retired _ hsite | ageless _ _ _ _ _ hsite =>
      rw [hsite] at hwaits
      exact .inl hwaits

/-- No watch outlives its request in a pool whose users hook in nothing themselves. -/
structure Unwatched (sys : System) (request : Token) (task : Task α) : Prop where
  /-- Nothing is hooked into any state that waits or is held. -/
  unhooked : sys.Unhooked
  granted : ∀ state next, sys.site.get request = (.ok state, next) → state.Unhooked
  /-- Nobody stops what its holder runs on such a state past the pool. -/
  past : ∀ state next, sys.site.get request = (.ok state, next) →
    ∀ interp, state.interpreter = some interp →
      ∀ {β : Type} (other : Task β), other.Keeps → ∀ site,
        other.runOn ⟨site, interp⟩ = (other ⟨site, interp⟩).runFree
  /-- The same holds of the pool behind the request. -/
  work : ∀ state next, sys.site.get request = (.ok state, next) →
    ∀ mid, (sys.step (.get request)).2.Attended [state.id] mid →
      mid.site = (next.runWatched request state task).2.2 →
        ∃ after : System, after.Watched ∧ after.site = (sys.site.withState request task).2
  requests : ∀ (files : Files) (request : Request),
    ∃ after : System, after.Watched ∧ after.site = (request.perform files sys.site).2

/-- How it comes about what a request is told, whoever had its state before. -/
structure Classified (sys : System) (request : Token) (task : Task α) : Prop where
  timedOut : ∀ seconds, (sys.site.withState request task).1 = .error (.timeout seconds) →
    seconds = sys.site.pool.config.requestTimeout ∧ 0 < seconds ∧
      sys.site.SawLate request task seconds
  unlimited : sys.site.pool.config.requestTimeout = 0 →
    ∀ seconds, (sys.site.withState request task).1 ≠ .error (.timeout seconds)
  cancelled : (sys.site.withState request task).1 = .error .cancelled →
    sys.site.isCancelled request = true ∨ sys.site.SawCancelled request task
  /-- Without a trip the task alone decides, but for a state whose age cannot be told. -/
  untripped : ∀ state next ended, sys.site.get request = (.ok state, next) →
    next.ending request state task = some (ended, []) →
      ∀ mid, (sys.step (.get request)).2.Meanwhile [state.id] mid →
        mid.site = (next.runWatched request state task).2.2 →
          let answer := (sys.site.withState request task).1
          match ended with
          | .error cause => answer = .error (.script cause)
          | .panic fault => answer = .panic fault
          | .ok a =>
              match mid.site.ruling (next.runWatched request state task).2.1 with
              | .ok _ => answer = .ok a
              | .error fault => answer = .panic (.clock fault)
  /-- All that an earlier request has left in the interpreter does not matter. -/
  unmarked : ∀ state next, sys.site.get request = (.ok state, next) →
    ∀ interp, state.interpreter = some interp → ∀ count hook,
      let marked :=
        { state with interpreter := some { interp with instructions := count, hook } }
      (next.runWatched request marked task).1 = (next.runWatched request state task).1 ∧
        (next.runWatched request marked task).2.2 = (next.runWatched request state task).2.2
  /-- Nothing is hooked into a state that waits behind its request, whatever was before, and
  whatever the task has hooked in. -/
  returned : ∀ state next, sys.site.get request = (.ok state, next) →
    ∀ mid, (sys.step (.get request)).2.Meanwhile [state.id] mid →
      mid.site = (next.runWatched request state task).2.2 →
        ∀ waiting ∈ (sys.site.withState request task).2.pool.idle,
          waiting.id = state.id → waiting.Unhooked
  unwatched : sys.Watched → sys.Unwatched request task

theorem Watched.granted (watched : sys.Watched) (hopen : sys.isOpen = true)
    (hget : sys.site.get request = (.ok state, next)) : state.Unhooked := by
  have later : sys.Attended [] (sys.step (.get request)).2 := usage_attended.get sys request []
  refine (watched.attended later).unhooked.states.held state ?_
  rw [(step_get hopen hget).1]
  exact List.mem_cons_self

theorem Watched.unwatched (watched : sys.Watched) (hopen : sys.isOpen = true) (request : Token)
    (task : Task α) : sys.Unwatched request task where
  unhooked := watched.unhooked
  granted _ _ hget := watched.granted hopen hget
  past state next hget interp hinterp _ other keeps site :=
    keeps.runOn_eq (watched.granted hopen hget interp hinterp)
  work state next hget mid later hmid := by
    obtain ⟨code, tidy, conducted⟩ := watched.lived.conducts hopen task hget later.meanwhile hmid
    have before : sys.Attended [] mid :=
      (usage_attended.get sys request []).trans (later.mono nofun)
    have hmidOpen := before.meanwhile.isOpen hopen
    have after := settle_attended hmidOpen (List.not_mem_nil (a := state.id)) tidy
    exact ⟨_, watched.attended (before.trans after), conducted.site_eq⟩
  requests files request := by
    have posed := request.perform_posed usage_attended files sys.site
    obtain ⟨after, later, hsite⟩ := posed.leads usage_attended (watched.lived.lends hopen)
    exact ⟨after, watched.attended later, hsite⟩

theorem Lived.returned (lived : sys.Lived) (hopen : sys.isOpen = true)
    (hget : sys.site.get request = (.ok state, next))
    (later : (sys.step (.get request)).2.Meanwhile [state.id] mid)
    (hmid : mid.site = (next.runWatched request state task).2.2) :
    ∀ waiting ∈ (sys.site.withState request task).2.pool.idle, waiting.id = state.id →
      waiting.Unhooked := by
  obtain ⟨code, -, conducted⟩ := lived.conducts hopen task hget later hmid
  have hlent := lived.meanwhile (sys.step_get_meanwhile request [])
  have hapart := (later.sound hlent.sound).books.held_apart conducted.held
  intro waiting hwaits hid
  rw [← conducted.site_eq] at hwaits
  rcases conducted.concluded.waiting hwaits with hmem | ⟨rfl, a, hok⟩
  · exact absurd (hid ▸ List.mem_map_of_mem hmem) hapart
  · exact Site.runWatched_unhooked (by simp [hok])

theorem lived_classified (lived : sys.Lived) (hopen : sys.isOpen = true) (request : Token)
    (task : Task α) : sys.Classified request task where
  timedOut seconds h := (Site.withState_blamed h).timedOut
  unlimited hnone seconds h := by
    obtain ⟨hseconds, hpos, -⟩ := (Site.withState_blamed h).timedOut
    omega
  cancelled h := (Site.withState_blamed h).cancelled
  untripped state next ended hget hending mid later hmid := by
    have hanswer := lived.answer_eq hopen task hget later hmid
    simp only [Site.runWatched_of_ending hending] at hanswer
    cases ended with
    | error cause | panic fault => exact hanswer
    | ok a =>
        simp only [Site.reply, Site.judge, Site.sentence] at hanswer
        cases hruling : mid.site.ruling (next.runWatched request state task).2.1 with
        | error fault | ok fate => simpa only [hruling] using hanswer
  unmarked _ _ _ interp hinterp count hook := Site.runWatched_remark interp count hook hinterp
  returned _ _ hget _ later hmid := lived.returned hopen hget later hmid
  unwatched watched := watched.unwatched hopen request task

/-- A pool whose hook gives the functions of the host to its states. -/
def furnished : System :=
  (make .small (some (HookPlan.toHook {})) ⟨0⟩ clean).run [.advance 0, .advance 0, .advance 0]

theorem reachable_furnished : furnished.Reachable :=
  (Reachable.made Config.built_small _ ⟨0⟩ clean).run (by decide)

theorem watched_furnished : furnished.Watched := by
  refine ⟨.small, some (HookPlan.toHook {}), ⟨0⟩, clean, Config.built_small, ?_, ?_⟩
  · rintro _ ⟨⟩
    exact HookPlan.toHook_tidy {}
  · exact .act (.act (.act .refl rfl rfl (by trivial)) rfl rfl (by trivial)) rfl rfl (by trivial)

theorem furnished_classified :
    (furnished.Lived ∧ furnished.isOpen = true ∧
      (furnished.step (.get ⟨0⟩)).1.isGrant = true ∧ furnished.Watched ∧
      (Task.evaluate (.named "run") "x = 1" .all).Keeps) ∧
      furnished.Classified ⟨0⟩ heedless :=
  ⟨⟨reachable_furnished.lived, by decide, by decide, watched_furnished,
      Task.keeps_evaluate _ _ _⟩,
    lived_classified reachable_furnished.lived (by decide) ⟨0⟩ heedless⟩

/-- Success is not always passed on, even if no look tripped. -/
theorem not_success_told :
    ¬ ∀ sys : System, sys.Reachable → sys.isOpen = true →
      ∀ (request : Token) (task : Task Unit) (state : LuaState) (next : Site),
        sys.site.get request = (.ok state, next) →
          next.ending request state task = some (.ok (), []) →
            (sys.site.withState request task).1 = .ok () := by
  intro told
  obtain ⟨state, next, hget, hending⟩ : ∃ state next, ancient.site.get ⟨0⟩ = (.ok state, next) ∧
      next.ending ⟨0⟩ state (Task.done (.ok ())) = some (.ok (), []) := ⟨_, _, rfl, rfl⟩
  have hanswer : (ancient.site.withState ⟨0⟩ (Task.done (.ok ()))).1 =
      .panic (.clock (.beforeEpoch 1)) := rfl
  have hok := told ancient reachable_ancient (by decide) ⟨0⟩ _ state next hget hending
  rw [hanswer] at hok
  cases hok

end System

end StatePool
