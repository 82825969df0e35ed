import StatePool.Proofs.Lifetime
import StatePool.Proofs.Sound

/-!
The events of a pool tell its whole story.

A ledger that follows the log of a pool never gets stuck, and after every action it shows what the
pool holds.  So what it says about the life of each state is true of the pool.
-/

namespace StatePool

/-- Events of one section, stamped with its instant. -/
def stamp (instant : Int) (events : List Event) : List (Event × Int) :=
  events.map fun event => (event, instant)

namespace Ledger

variable {ledger : Ledger} {sys after : System}

/-- What a ledger knows of a pool and of the states that are held. -/
structure Matches (ledger : Ledger) (sys : System) : Prop where
  idle_eq : ledger.idle = sys.site.pool.idle.map (·.id)
  out_eq : ledger.out = sys.out
  status_eq : ledger.status = sys.site.pool.status
  total_eq : ledger.total = sys.site.pool.total
  bound_le : ledger.bound ≤ sys.site.world.states
  since_eq : ∀ state ∈ sys.held, state.closed = false →
    state.servingSince = some (ledger.since state.id)

/-- The events between two moments lead a ledger from one to the other. -/
def Recounts (ledger : Ledger) (sys after : System) : Prop :=
  ∃ events next, after.site.pool.journal = sys.site.pool.journal ++ events.toArray ∧
    ledger.Follows (stamp after.site.world.clock.monotonic events) next ∧ next.Matches after

theorem Recounts.silent (h : after.site.pool.journal = sys.site.pool.journal)
    (agrees : ledger.Matches after) : ledger.Recounts sys after :=
  ⟨[], ledger, by simp [h], .nil, agrees⟩

theorem Recounts.single {event : Event} {next : Ledger}
    (h : after.site.pool.journal = sys.site.pool.journal.push event)
    (entered : ledger.Entered (event, after.site.world.clock.monotonic) next)
    (agrees : next.Matches after) : ledger.Recounts sys after :=
  ⟨[event], next, by simp [h], .single entered, agrees⟩

/-- All states that wait are closed, the one that waits longest first. -/
theorem follows_farewells (instant : Int) (states : List LuaState)
    (hidle : ledger.idle = (states.map (·.id)).reverse) (hnodup : (states.map (·.id)).Nodup) :
    ledger.Follows (stamp instant (Site.farewells states)) { ledger with idle := [] } := by
  induction states generalizing ledger with
  | nil =>
      have hself : { ledger with idle := [] } = ledger := by
        rw [← List.reverse_nil, ← List.map_nil, ← hidle]
      rw [hself]
      exact .nil
  | cons state states ih =>
      rw [List.map_cons, List.reverse_cons] at hidle
      rw [List.map_cons, List.nodup_cons] at hnodup
      have hmem : state.id ∈ ledger.idle := by simp [hidle]
      have herase : ledger.idle.erase state.id = (states.map (·.id)).reverse := by
        rw [hidle, List.erase_append_right _ (by simpa using hnodup.1)]
        simp
      have first : ledger.Entered (.cleanedUp state.id .shutdown, instant)
          { ledger with idle := ledger.idle.erase state.id } :=
        .closedIdle hmem
      exact (Follows.single first).trans (ih herase hnodup.2)

/-- The states of a batch are new one after the other. -/
theorem follows_batch (ledger : Ledger) (instant : Int) {first : Nat} {born : List LuaState}
    (batch : LuaState.Batch first born) (hbound : ledger.bound ≤ first) :
    ∃ bound, bound ≤ first + born.length ∧
      ledger.Follows (stamp instant (born.reverse.map fun state => .created state.id))
        { ledger with idle := born.map (·.id) ++ ledger.idle, bound } := by
  induction batch with
  | nil => exact ⟨ledger.bound, hbound, .nil⟩
  | @cons state states world batch newborn hworld ih =>
      obtain ⟨bound, hle, follows⟩ := ih
      have hnumber : state.id.number = first + states.length := by
        rw [newborn.id_eq, ← hworld]
      refine ⟨state.id.number + 1, by simp only [List.length_cons]; omega, ?_⟩
      rw [List.reverse_cons, List.map_append]
      unfold stamp
      rw [List.map_append]
      exact follows.snoc (.created (by simp only; omega))

/-! ### Sections -/

theorem entered_status {source target : Status} {instant : Int} (h : ledger.status = source) :
    ledger.Entered (.statusChanged source target, instant) { ledger with status := target } := by
  rw [← h]
  exact .statusChanged

theorem Matches.setStatus (agrees : ledger.Matches sys) (target : Status)
    (calls : List LifecycleRun) :
    ledger.Recounts sys { sys with site := sys.site.setStatus target, calls } := by
  rcases sys.site.pool.setStatus_eq target with h | ⟨-, h⟩
  · have hsite : sys.site.setStatus target = sys.site := by
      unfold Site.setStatus
      rw [h]
    rw [hsite]
    exact .silent rfl { agrees with }
  · unfold Site.setStatus
    rw [h]
    exact .single rfl (entered_status agrees.status_eq)
      { agrees with status_eq := rfl, bound_le := agrees.bound_le }

theorem Matches.granted (agrees : ledger.Matches sys) (sound : sys.Sound)
    {result : Outcome PoolError LuaState} {site : Site}
    (h : Site.CheckedOut sys.site (result, site)) :
    ledger.Recounts sys (sys.grant (result, site)).2 := by
  cases h with
  | refused => exact .silent rfl { agrees with }
  | full => exact .single rfl .poolFull { agrees with }
  | failed hstates =>
      exact .silent rfl { agrees with bound_le := hstates ▸ agrees.bound_le }
  | panicked _ hstates =>
      exact .silent rfl { agrees with bound_le := hstates ▸ agrees.bound_le }
  | @reused state idle _ hidle =>
      have hstack : ledger.idle = state.id :: idle.map (·.id) := by
        rw [agrees.idle_eq, hidle, List.map_cons]
      refine .single rfl (.acquired hstack) ?_
      exact
        { idle_eq := rfl
          out_eq := congrArg (state.id :: ·) agrees.out_eq
          status_eq := agrees.status_eq
          total_eq := congrArg (· + 1) agrees.total_eq
          bound_le := agrees.bound_le
          since_eq := fun other hother hclosed => by
            rcases List.mem_cons.1 hother with rfl | hother
            · simp [LuaState.setServing, LuaState.countRequest, System.grant, Pool.emit]
            · have hne : other.id ≠ state.id := by
                intro heq
                have hwaits : state ∈ sys.site.pool.idle := by simp [hidle]
                exact (sound.books.idle_apart hwaits).1 (heq ▸ sound.books.out_of_held hother)
              exact (agrees.since_eq other hother hclosed).trans
                (congrArg some (if_neg hne).symm) }
  | @built state world _ _ _ newborn hstates =>
      have hnumber : state.id.number = sys.site.world.states := by rw [newborn.id_eq]
      have created : ledger.Entered (.created state.id, world.clock.monotonic)
          { ledger with idle := state.id :: ledger.idle, bound := state.id.number + 1 } :=
        .created (hnumber ▸ agrees.bound_le)
      refine ⟨[.created state.id, .acquired state.id], _, Array.ext' ?_,
        (Follows.single created).snoc (.acquired rfl), ?_⟩
      · simp [System.grant, Pool.emit]
      exact
        { idle_eq := agrees.idle_eq
          out_eq := congrArg (state.id :: ·) agrees.out_eq
          status_eq := agrees.status_eq
          total_eq := congrArg (· + 1) agrees.total_eq
          bound_le := by
            simp only [System.grant]
            omega
          since_eq := fun other hother hclosed => by
            rcases List.mem_cons.1 hother with rfl | hother
            · simp [LuaState.setServing, LuaState.countRequest, System.grant]
            · have hne : other.id ≠ state.id := by
                intro heq
                have hborn := sound.books.out_born _ (sound.books.out_of_held hother)
                rw [heq, hnumber] at hborn
                exact Nat.lt_irrefl _ hborn
              exact (agrees.since_eq other hother hclosed).trans
                (congrArg some (if_neg hne).symm) }

theorem Matches.took (agrees : ledger.Matches sys) (sound : sys.Sound) {state : LuaState}
    {rest : List LuaState} (hperm : sys.held.Perm (state :: rest))
    {result : Outcome PoolError Unit} {site : Site}
    (h : Site.Parted sys.site state (result, site)) :
    ledger.Recounts sys ({ sys with held := rest }.takeBack state.id (result, site)).2 := by
  obtain ⟨hout, hidle⟩ := sound.books.lent_apart hperm
  have since_eq (other : LuaState) (hother : other ∈ rest) :=
    agrees.since_eq other (hperm.mem_iff.2 (List.mem_cons_of_mem _ hother))
  rw [← agrees.out_eq] at hout
  simp only [System.takeBack]
  cases h with
  | kept _ hstates =>
      rw [Pool.tookIn_self hidle]
      exact .silent rfl { agrees with bound_le := hstates ▸ agrees.bound_le, since_eq }
  | retired _ _ hstates =>
      rw [Pool.tookIn_of_cleanedUp rfl]
      rw [← agrees.idle_eq] at hidle
      exact .single rfl (.closedOut hidle hout)
        { agrees with
          out_eq := congrArg (List.erase · state.id) agrees.out_eq
          bound_le := hstates ▸ agrees.bound_le
          since_eq }
  | @recycled _ instant _ hclosed _ hsince =>
      rw [Pool.tookIn_of_mem List.mem_cons_self]
      have hinstant : instant = ledger.since state.id := by
        have hself := agrees.since_eq state (hperm.mem_iff.2 List.mem_cons_self) hclosed
        exact Option.some.inj (hsince.symm.trans hself)
      subst hinstant
      exact .single rfl (.released hout)
        { agrees with
          idle_eq := congrArg (state.id :: ·) agrees.idle_eq
          out_eq := congrArg (List.erase · state.id) agrees.out_eq
          since_eq }

theorem Matches.advanced (agrees : ledger.Matches sys) (sound : sys.Sound)
    {run next : LifecycleRun} {site : Site} (fits : run.Fits sys.site.pool)
    (h : run.Stepped sys.site (next, site)) (calls : List LifecycleRun) :
    ledger.Recounts sys { sys with site, calls } := by
  cases h with
  | entered | refused | looked => exact .silent rfl { agrees with }
  | asleep => exact .silent rfl { agrees with }
  | closed => exact agrees.setStatus .exiting calls
  | sealed => exact agrees.setStatus .dead calls
  | @drained _ world _ _ hstates =>
      have hnodup : (sys.site.pool.idle.reverse.map (·.id)).Nodup := by
        rw [List.map_reverse]
        exact (List.reverse_perm _).symm.nodup sound.books.idle_nodup
      have hidle : ledger.idle = (sys.site.pool.idle.reverse.map (·.id)).reverse := by
        rw [List.map_reverse, List.reverse_reverse, agrees.idle_eq]
      exact ⟨_, _, rfl, follows_farewells world.clock.monotonic _ hidle hnodup,
        { agrees with idle_eq := rfl, bound_le := hstates ▸ agrees.bound_le }⟩
  | @seeded root _ _ hphase seeded =>
      have hidle : sys.site.pool.idle = [] := by
        simp only [LifecycleRun.Fits, hphase] at fits
        exact fits.1.idle_eq
      have born_told {born : List LuaState} {world : World}
          (batch : LuaState.Batch sys.site.world.states born)
          (hstates : world.states = sys.site.world.states + born.length) :
          ledger.Recounts sys
            { sys with site := ⟨(sys.site.pool.revived root).withSeeds born, world⟩, calls } := by
        have first : ledger.Entered
            (.statusChanged sys.site.pool.status .running, world.clock.monotonic) _ :=
          entered_status agrees.status_eq
        obtain ⟨bound, hbound, follows⟩ := follows_batch { ledger with status := .running }
          world.clock.monotonic batch agrees.bound_le
        refine ⟨.statusChanged sys.site.pool.status .running ::
          born.reverse.map fun state : LuaState => .created state.id, _, Array.ext' ?_,
          (Follows.single first).trans follows, ?_⟩
        · simp [Pool.withSeeds, Pool.revived, Pool.emit]
        · exact
            { agrees with
              idle_eq := by simp [Pool.withSeeds, Pool.revived, Pool.emit, agrees.idle_eq]
              status_eq := rfl
              bound_le := by
                simp only
                omega }
      cases seeded with
      | complete batch hstates => exact born_told batch hstates
      | failed batch hstates => exact born_told batch hstates
      | panicked _ batch hstates => exact born_told batch hstates

end Ledger

namespace System

variable {sys : System} {ledger : Ledger}

theorem Acted.recounts {action : Action} {answer : Report × System} (h : Acted sys action answer)
    (sound : sys.Sound) (agrees : ledger.Matches sys) : ledger.Recounts sys answer.2 := by
  cases h with
  | stirred _ hstates =>
      exact .silent rfl { agrees with bound_le := Nat.le_trans agrees.bound_le hstates }
  | adopted _ hstates =>
      have hbound := agrees.bound_le
      exact .silent rfl { agrees with bound_le := by simp only [withWorld]; omega }
  | alienated hstates => exact .silent rfl { agrees with bound_le := hstates ▸ agrees.bound_le }
  | @touched id touch state rest honest hperm =>
      have hstates := state.states_touch sys.site.world touch
      refine .silent rfl
        { agrees with
          bound_le := hstates ▸ agrees.bound_le
          since_eq := List.forall_mem_cons.2 ⟨fun hclosed => ?_, fun other hother => ?_⟩ }
      · have hself := agrees.since_eq state (hperm.mem_iff.2 List.mem_cons_self)
        obtain ⟨hbefore, hsince⟩ := state.servingSince_touch honest sys.site.world hclosed
        rw [hsince, LuaState.id_touch]
        exact hself hbefore
      · exact agrees.since_eq other (hperm.mem_iff.2 (List.mem_cons_of_mem _ hother))
  | checkedOut _ checked => exact agrees.granted sound checked
  | parted _ hperm parted => exact agrees.took sound hperm parted
  | configured => exact .silent rfl { agrees with }
  | called | locked | unlocked => exact .silent rfl { agrees with }
  | @advanced index run _ _ hlock hcall _ stepped =>
      exact agrees.advanced sound (sound.fits index run hlock hcall) stepped _

/-- The log of a pool leads a ledger to what the pool is now. -/
theorem Reachable.log_follows (h : sys.Reachable) :
    ∃ ledger : Ledger, ledger.Matches sys ∧ Ledger.Follows {} sys.log ledger ∧
      sys.log.map (·.1) = sys.site.pool.journal.toList := by
  induction h with
  | made h hook root world =>
      exact ⟨{}, ⟨rfl, rfl, rfl, rfl, Nat.zero_le _, nofun⟩, .nil, rfl⟩
  | @step before h action honest ih =>
      obtain ⟨ledger, agrees, follows, hlog⟩ := ih
      have acted := act_acted h.sound honest
      obtain ⟨events, next, hjournal, later, agrees'⟩ := acted.recounts h.sound agrees
      refine ⟨next, { agrees' with }, ?_, ?_⟩
      · simp only [System.step, note, Pool.news_of_append hjournal]
        exact follows.trans later
      · simp [System.step, note, Pool.news_of_append hjournal, hlog, hjournal, Function.comp_def]

/-- What the events of a pool tell about it. -/
structure Told (sys : System) : Prop where
  replay_eq : replay sys.site.pool.journal.toList =
    some
      { idle := sys.site.pool.idle.map (·.id)
        out := sys.out
        status := sys.site.pool.status
        total := sys.site.pool.total }
  length_eq : sys.site.pool.length = sys.site.pool.idle.length + sys.out.length
  serving_eq : sys.site.pool.serving = sys.out.length
  total_eq : sys.site.pool.total = sys.site.pool.journal.toList.countP Event.isAcquired
  log_eq : sys.log.map (·.1) = sys.site.pool.journal.toList
  /-- The events of a state are the beginning of a lifetime, in which each end of a checkout tells
  how long the checkout took. -/
  lives : ∀ id, ∃ birth checkouts last reason death,
    historyOf id sys.log <+: lifetime id birth checkouts last reason death

theorem reachable_told (h : sys.Reachable) : sys.Told := by
  obtain ⟨ledger, agrees, follows, hlog⟩ := h.log_follows
  have books := h.sound.books
  have hreplica : ledger.toReplica =
      ⟨sys.site.pool.idle.map (·.id), sys.out, sys.site.pool.status, sys.site.pool.total⟩ := by
    rw [← agrees.idle_eq, ← agrees.out_eq, ← agrees.status_eq, ← agrees.total_eq]
  exact
    { replay_eq := by
        have hfold := follows.foldlM_eq
        rw [hlog, hreplica] at hfold
        exact hfold
      length_eq := by rw [← books.serving_eq, books.length_eq]
      serving_eq := books.serving_eq
      total_eq := by
        have htotal := follows.total_eq
        rw [hlog, agrees.total_eq] at htotal
        rw [htotal]
        exact Nat.zero_add _
      log_eq := hlog
      lives := fun id => (follows.course id).2.isPrefix }

/-- A state of a small pool is out for five milliseconds. -/
def returned : System :=
  (make .small none ⟨0⟩ clean).run
    [.advance 0, .advance 0, .advance 0, .get ⟨0⟩, .tick 0 5, .part .pool ⟨1⟩ .put]

theorem returned_told :
    (returned.Reachable ∧ Event.released ⟨1⟩ 5 ∈ returned.site.pool.journal) ∧ returned.Told := by
  have h : returned.Reachable :=
    (Reachable.made Config.built_small none ⟨0⟩ clean).run (by decide)
  exact ⟨⟨h, by decide +kernel⟩, reachable_told h⟩

end System

end StatePool
