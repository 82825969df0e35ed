import StatePool.Proofs.Conduct
import StatePool.Proofs.Dealings

/-!
Request budgets.

A state counts its requests itself, and only a parting looks at the count.  So the pool hands out no
state more often than its budget says, whatever the callers do to the states that they hold and
however the clocks are set; they can only use a budget up early.
-/

namespace StatePool

def Report.grants (report : Report) (id : StateId) : Nat :=
  match report with
  | .granted state => if state.id = id then 1 else 0
  | _ => 0

theorem Report.grants_of_not_grant {report : Report} (h : report.isGrant = false) (id : StateId) :
    report.grants id = 0 := by
  cases report with
  | granted => cases h
  | _ => rfl

theorem LuaState.touch_counts (state : LuaState) (world : World) (touch : Touch) :
    (state.touch world touch).1.budget = state.budget ∧
      state.requested ≤ (state.touch world touch).1.requested := by
  cases touch with
  | count => exact ⟨rfl, Nat.le_succ _⟩
  | close | cancel | setServing serving | run code => exact ⟨rfl, Nat.le_refl _⟩

/-- Where there is a budget, nothing but the count is looked at. -/
theorem LuaState.mustTerminate_of_budget {state : LuaState} (h : 0 < state.budget) (clock : Clock) :
    state.mustTerminate clock = .ok (state.budget ≤ state.requested) := by
  rw [mustTerminate, if_pos h]

/-! ### Giving back with room in the pool -/

namespace Site

variable {site : Site} {state : LuaState}

theorem retire_of_room (state : LuaState) (hserving : 0 < site.pool.serving)
    (hlength : 0 < site.pool.length) (reason : CleanupReason) :
    site.retire state reason =
      (.ok (),
        ⟨{ site.pool.releasedIf state.serving with length := site.pool.length - 1 }.emit
            (.cleanedUp state.id reason), (state.close site.world).2⟩) := by
  have hlength' : (site.pool.releasedIf state.serving).length ≠ 0 := Nat.pos_iff_ne_zero.1 hlength
  simp only [retire, release_eq state hserving, if_neg hlength']
  rfl

theorem put_of_spent (hclosed : state.closed = false) (haccepts : site.pool.status.accepts = true)
    (hspent : state.mustTerminate site.world.clock = .ok true) (hserving : 0 < site.pool.serving)
    (hlength : 0 < site.pool.length) :
    (site.put state).1 = .ok () ∧
      site.pool.news (site.put state).2.pool = [.cleanedUp state.id site.pool.retirementReason] ∧
      (site.put state).2.world = site.world.cancel state.token ∧
      (site.put state).2.pool.idle = site.pool.idle := by
  simp only [put, hclosed, haccepts, hspent, Bool.not_true, Bool.false_eq_true, ↓reduceIte,
    retire_of_room state hserving hlength]
  refine ⟨rfl, Pool.news_of_append ?_, rfl, rfl⟩
  simp [Pool.emit, Pool.releasedIf]

theorem put_of_unspent (hclosed : state.closed = false)
    (haccepts : site.pool.status.accepts = true)
    (hunspent : state.mustTerminate site.world.clock = .ok false)
    (hlive : site.isCancelled state.token = false) (hserving : 0 < site.pool.serving) :
    (site.put state).1 = .ok () ∧
      (site.put state).2.pool.idle =
        state.setServing site.world.clock false :: site.pool.idle := by
  simp only [put, hclosed, haccepts, hunspent, hlive, Bool.not_true, Bool.false_eq_true,
    ↓reduceIte, recycle, release_eq state hserving]
  refine ⟨rfl, ?_⟩
  split <;> rfl

end Site

theorem Parting.perform_of_put {parting : Parting} (hback : parting = .put ∨ parting = .dropGuard)
    {site : Site} {state : LuaState} (h : (site.put state).1 = .ok ()) :
    parting.perform site state = (.ok (), (site.put state).2) := by
  rcases hback with rfl | rfl
  · exact Prod.ext h rfl
  · simp only [perform, Site.dropGuard]
    generalize site.put state = result at h
    obtain ⟨result, after⟩ := result
    cases h
    rfl

namespace System

variable {sys : System} {limit : Nat} {given : StateId → Nat} {id : StateId}

/-- How often a state is handed out on the way. -/
def grants (sys : System) (id : StateId) : List Action → Nat
  | [] => 0
  | action :: actions => (sys.step action).1.grants id + (sys.step action).2.grants id actions

/-! ### Nothing is in two places -/

/-- The states of a pool: those that wait, and those that are held. -/
def ids (sys : System) : List StateId :=
  sys.site.pool.idle.map (·.id) ++ sys.held.map (·.id)

theorem mem_ids : id ∈ sys.ids ↔
    (∃ state ∈ sys.site.pool.idle, state.id = id) ∨ ∃ state ∈ sys.held, state.id = id := by
  simp [ids]

theorem mem_ids_of_idle {state : LuaState} (h : state ∈ sys.site.pool.idle) :
    state.id ∈ sys.ids :=
  mem_ids.2 (.inl ⟨state, h, rfl⟩)

theorem mem_ids_of_held {state : LuaState} (h : state ∈ sys.held) : state.id ∈ sys.ids :=
  mem_ids.2 (.inr ⟨state, h, rfl⟩)

/-- Between two moments, at which there had been so many states, some ids become others: none of
them more often than before, but for new ones that come once. -/
def Grows (bound next : Nat) (ids later : List StateId) : Prop :=
  ∃ fresh : List StateId, (∀ id ∈ fresh, bound ≤ id.number ∧ id.number < next) ∧
    ∀ id, fresh.count id ≤ 1 ∧ later.count id ≤ fresh.count id + ids.count id

/-- Each id is there once at most, and was born. -/
structure Once (bound : Nat) (ids : List StateId) : Prop where
  once : ∀ id, ids.count id ≤ 1
  born : ∀ id ∈ ids, id.number < bound

section Grows

variable {bound next : Nat} {ids later : List StateId}

theorem Grows.of_count_le (h : ∀ id, later.count id ≤ ids.count id) :
    Grows bound next ids later :=
  ⟨[], nofun, fun id => ⟨Nat.zero_le _, Nat.le_add_left_of_le (h id)⟩⟩

theorem Grows.mem_cases (grows : Grows bound next ids later) (h : id ∈ later) :
    id ∈ ids ∨ bound ≤ id.number ∧ id.number < next := by
  obtain ⟨fresh, hfresh, hcount⟩ := grows
  have hpos := List.count_pos_iff.2 h
  have hle := (hcount id).2
  by_cases hmem : id ∈ fresh
  · exact .inr (hfresh id hmem)
  · rw [List.count_eq_zero.2 hmem] at hle
    exact .inl (List.count_pos_iff.1 (by omega))

theorem Once.grows (once : Once bound ids) (grows : Grows bound next ids later)
    (hle : bound ≤ next) : Once next later := by
  constructor
  · intro id
    obtain ⟨fresh, hfresh, hcount⟩ := grows
    obtain ⟨honce, hle⟩ := hcount id
    have hbefore := once.once id
    by_cases hmem : id ∈ fresh
    · have hnew : id ∉ ids := by
        intro hold
        have := once.born id hold
        have := (hfresh id hmem).1
        omega
      rw [List.count_eq_zero.2 hnew] at hle
      omega
    · rw [List.count_eq_zero.2 hmem] at hle
      omega
  · intro id hmem
    rcases grows.mem_cases hmem with hold | ⟨-, hlt⟩
    · exact Nat.lt_of_lt_of_le (once.born id hold) hle
    · exact hlt

end Grows

/-- An action adds no state to a pool but new ones. -/
theorem Dealt.grows {answer : Report × System} (dealt : sys.Dealt answer) :
    Grows sys.site.world.states answer.2.site.world.states sys.ids answer.2.ids := by
  cases dealt.moved with
  | still _ hidle hheld =>
      apply Grows.of_count_le
      intro id
      exact Nat.le_of_eq (by rw [ids, ids, hidle, hheld])
  | @touched after state rest touch hperm hidle hheld =>
      apply Grows.of_count_le
      intro id
      have hcount := (hperm.map (·.id)).count_eq id
      simp only [ids, hidle, hheld, List.map_cons, LuaState.id_touch, List.count_append] at hcount ⊢
      omega
  | @reused after state hidle hheld =>
      apply Grows.of_count_le
      intro id
      simp only [ids, hidle, hheld, List.map_cons, List.count_append, List.count_cons,
        LuaState.countRequest, LuaState.setServing]
      omega
  | @built after state hidle hnil hid hstates _ _ hheld =>
      refine ⟨[state.id], ?_, ?_⟩
      · intro id hmem
        rw [List.mem_singleton.1 hmem, hid]
        simp only [hstates]
        omega
      · intro id
        simp only [ids, hidle, hnil, hheld, List.map_nil, List.nil_append, List.map_cons,
          List.count_cons, List.count_nil]
        split <;> omega
  | @parted report after state rest _ hperm hheld disposed =>
      apply Grows.of_count_le
      intro id
      have hcount := (hperm.map (·.id)).count_eq id
      simp only [List.map_cons, List.count_cons] at hcount
      rcases disposed.idle_cases with hidle | ⟨hidle, -⟩
      · simp only [ids, hidle, hheld, List.count_append]
        omega
      · simp only [ids, hidle, hheld, List.map_cons, List.count_append, List.count_cons,
          LuaState.setServing]
        omega
  | @turned report after _ hheld turned =>
      rcases turned.idle_cases with hidle | stocked
      · apply Grows.of_count_le
        intro id
        exact Nat.le_of_eq (by rw [ids, ids, hidle, hheld])
      · refine ⟨after.site.pool.idle.map (·.id), ?_, ?_⟩
        · intro id hmem
          obtain ⟨state, hstate, rfl⟩ := List.mem_map.1 hmem
          have hrange := stocked.batch.mem_range hstate
          have hstates := stocked.states_eq
          simp only
          omega
        · intro id
          refine ⟨stocked.batch.count_le id, ?_⟩
          simp only [ids, hheld, List.count_append]
          omega

structure Apart (sys : System) : Prop where
  once : ∀ id, sys.ids.count id ≤ 1
  born : ∀ id ∈ sys.ids, id.number < sys.site.world.states

theorem Apart.dealt (apart : sys.Apart) {answer : Report × System} (dealt : sys.Dealt answer) :
    answer.2.Apart := by
  have later := Once.grows ⟨apart.once, apart.born⟩ dealt.grows dealt.states_le
  exact ⟨later.once, later.born⟩

theorem Apart.ne_of_idle (apart : sys.Apart) {state other : LuaState} {rest : List LuaState}
    (hidle : sys.site.pool.idle = state :: rest) (hother : other ∈ rest ∨ other ∈ sys.held) :
    other.id ≠ state.id := by
  intro heq
  have honce := apart.once other.id
  simp only [ids, hidle, List.map_cons, List.count_append, heq, List.count_cons_self] at honce
  have hpos : 0 < (rest.map (·.id)).count state.id + (sys.held.map (·.id)).count state.id := by
    rw [Nat.add_pos_iff_pos_or_pos, List.count_pos_iff, List.count_pos_iff]
    rcases hother with h | h
    · exact .inl (List.mem_map.2 ⟨other, h, heq⟩)
    · exact .inr (List.mem_map.2 ⟨other, h, heq⟩)
  omega

theorem Apart.not_mem_of_held (apart : sys.Apart) {state : LuaState} {rest : List LuaState}
    (hperm : sys.held.Perm (state :: rest)) :
    state.id ∉ rest.map (·.id) ∧ state.id ∉ sys.site.pool.idle.map (·.id) := by
  have honce := apart.once state.id
  have hcount := (hperm.map (·.id)).count_eq state.id
  simp only [ids, List.map_cons, List.count_append, List.count_cons_self] at honce hcount
  rw [← List.count_eq_zero, ← List.count_eq_zero]
  omega

/-! ### Rations -/

/-- What is left of the budgets when each state was handed out a number of times. -/
structure Rations (sys : System) (limit : Nat) (given : StateId → Nat) : Prop where
  limit_pos : 0 < limit
  budget_eq : sys.site.pool.config.budget = limit
  idle : ∀ state ∈ sys.site.pool.idle, state.budget = limit ∧ given state.id ≤ state.requested
  below : ∀ state ∈ sys.site.pool.idle, state.requested < limit
  held : ∀ state ∈ sys.held, state.budget = limit ∧ given state.id ≤ state.requested
  given_le : ∀ id, given id ≤ limit
  unborn : ∀ id : StateId, sys.site.world.states ≤ id.number → given id = 0
  timely : ∀ id, Event.cleanedUp id .idleTimeout ∉ sys.site.pool.journal

theorem Rations.timely_of_dealt (rations : sys.Rations limit given) {answer : Report × System}
    (dealt : sys.Dealt answer) (id : StateId) :
    Event.cleanedUp id .idleTimeout ∉ answer.2.site.pool.journal := by
  intro h
  rcases dealt.ageless id h with hbudget | h
  · rw [rations.budget_eq] at hbudget
    exact absurd rations.limit_pos (by omega)
  · exact rations.timely id h

theorem Rations.quiet (rations : sys.Rations limit given) {answer : Report × System}
    (dealt : sys.Dealt answer) (hgrant : answer.1.isGrant = false)
    (hidle : ∀ state ∈ answer.2.site.pool.idle,
      (state.budget = limit ∧ given state.id ≤ state.requested) ∧ state.requested < limit)
    (hheld : ∀ state ∈ answer.2.held, state.budget = limit ∧ given state.id ≤ state.requested) :
    answer.2.Rations limit fun id => given id + answer.1.grants id := by
  have hsame : (fun id => given id + answer.1.grants id) = given := by
    funext id
    rw [Report.grants_of_not_grant hgrant, Nat.add_zero]
  rw [hsame]
  exact
    { limit_pos := rations.limit_pos
      budget_eq := dealt.budget_eq.trans rations.budget_eq
      idle := fun state hstate => (hidle state hstate).1
      below := fun state hstate => (hidle state hstate).2
      held := hheld
      given_le := rations.given_le
      unborn := fun id hid => rations.unborn id (Nat.le_trans dealt.states_le hid)
      timely := rations.timely_of_dealt dealt }

/-- A state that waited is handed out once more. -/
theorem Rations.reused (rations : sys.Rations limit given) (apart : sys.Apart) {after : System}
    {state : LuaState} (hidle : sys.site.pool.idle = state :: after.site.pool.idle)
    (hheld : after.held = (state.setServing sys.site.world.clock true).countRequest :: sys.held)
    (dealt : sys.Dealt
      (.granted (state.setServing sys.site.world.clock true).countRequest, after)) :
    after.Rations limit fun id => given id + if state.id = id then 1 else 0 := by
  have hmem : state ∈ sys.site.pool.idle := by simp [hidle]
  obtain ⟨hbudget, hgiven⟩ := rations.idle state hmem
  have hbelow := rations.below state hmem
  have hother {other : LuaState} (h : other ∈ after.site.pool.idle ∨ other ∈ sys.held) :
      given other.id + (if state.id = other.id then 1 else 0) = given other.id := by
    rw [if_neg (apart.ne_of_idle hidle h).symm, Nat.add_zero]
  have hrest (other : LuaState) (h : other ∈ after.site.pool.idle) :
      other ∈ sys.site.pool.idle := by
    rw [hidle]
    exact List.mem_cons_of_mem _ h
  constructor
  · exact rations.limit_pos
  · exact dealt.budget_eq.trans rations.budget_eq
  · intro other h
    rw [hother (.inl h)]
    exact rations.idle other (hrest other h)
  · intro other h
    exact rations.below other (hrest other h)
  · intro other h
    rw [hheld] at h
    rcases List.mem_cons.1 h with rfl | h
    · refine ⟨hbudget, ?_⟩
      simp only [LuaState.countRequest, LuaState.setServing, ↓reduceIte]
      omega
    · rw [hother (.inr h)]
      exact rations.held other h
  · intro id
    have := rations.given_le id
    split
    · next heq =>
        rw [← heq]
        omega
    · omega
  · intro id hid
    have hborn := apart.born _ (mem_ids_of_idle hmem)
    have hne : state.id ≠ id := by
      rintro rfl
      have := dealt.states_le
      simp only at this
      omega
    rw [if_neg hne, Nat.add_zero]
    exact rations.unborn id (Nat.le_trans dealt.states_le hid)
  · exact rations.timely_of_dealt dealt

/-- A state is handed out for the first time. -/
theorem Rations.built (rations : sys.Rations limit given) (apart : sys.Apart) {after : System}
    {state : LuaState} (hnil : after.site.pool.idle = [])
    (hid : state.id = ⟨sys.site.world.states⟩)
    (hstates : after.site.world.states = sys.site.world.states + 1)
    (hrequested : state.requested = 1) (hbudget : state.budget = sys.site.pool.config.budget)
    (hheld : after.held = state :: sys.held) (dealt : sys.Dealt (.granted state, after)) :
    after.Rations limit fun id => given id + if state.id = id then 1 else 0 := by
  have hpos := rations.limit_pos
  have hfirst : given state.id = 0 := rations.unborn state.id (by simp [hid])
  constructor
  · exact rations.limit_pos
  · exact dealt.budget_eq.trans rations.budget_eq
  · rw [hnil]
    nofun
  · rw [hnil]
    nofun
  · intro other h
    rw [hheld] at h
    rcases List.mem_cons.1 h with rfl | h
    · refine ⟨hbudget.trans rations.budget_eq, ?_⟩
      simp only [↓reduceIte]
      omega
    · have hne : state.id ≠ other.id := by
        intro heq
        have hborn := apart.born _ (mem_ids_of_held h)
        rw [← heq, hid] at hborn
        exact Nat.lt_irrefl _ hborn
      rw [if_neg hne, Nat.add_zero]
      exact rations.held other h
  · intro id
    have := rations.given_le id
    split
    · next heq =>
        rw [← heq, hfirst]
        omega
    · omega
  · intro id hnew
    rw [hstates] at hnew
    have hne : state.id ≠ id := by
      rintro rfl
      rw [hid] at hnew
      simp only at hnew
      omega
    rw [if_neg hne, Nat.add_zero]
    exact rations.unborn id (by omega)
  · exact rations.timely_of_dealt dealt

theorem Rations.dealt (rations : sys.Rations limit given) (apart : sys.Apart)
    {answer : Report × System} (dealt : sys.Dealt answer) :
    answer.2.Rations limit fun id => given id + answer.1.grants id := by
  have hwaits (state : LuaState) (h : state ∈ sys.site.pool.idle) :=
    And.intro (rations.idle state h) (rations.below state h)
  cases dealt.moved with
  | still hgrant hidle hheld =>
      refine rations.quiet dealt hgrant ?_ ?_
      · simpa only [hidle] using hwaits
      · simpa only [hheld] using rations.held
  | @touched after state rest touch hperm hidle hheld =>
      refine rations.quiet dealt rfl ?_ ?_
      · simpa only [hidle] using hwaits
      · intro other h
        simp only [hheld] at h
        rcases List.mem_cons.1 h with rfl | h
        · obtain ⟨hbudget, hrequested⟩ := state.touch_counts sys.site.world touch
          obtain ⟨hbefore, hgiven⟩ := rations.held state (hperm.mem_iff.2 List.mem_cons_self)
          rw [LuaState.id_touch]
          exact ⟨hbudget.trans hbefore, Nat.le_trans hgiven hrequested⟩
        · exact rations.held other (hperm.mem_iff.2 (List.mem_cons_of_mem _ h))
  | reused hidle hheld =>
      have later := rations.reused apart hidle hheld dealt
      exact later
  | built _ hnil hid hstates hrequested hbudget hheld =>
      exact rations.built apart hnil hid hstates hrequested hbudget hheld dealt
  | @parted report after state rest hgrant hperm hheld disposed =>
      refine rations.quiet dealt hgrant ?_ ?_
      · rcases disposed.idle_cases with hidle | ⟨hidle, hjudged⟩
        · simpa only [hidle] using hwaits
        · intro other h
          simp only [hidle] at h
          rcases List.mem_cons.1 h with rfl | h
          · have hstate := rations.held state (hperm.mem_iff.2 List.mem_cons_self)
            have hlimit : 0 < state.budget := by
              rw [hstate.1]
              exact rations.limit_pos
            rw [LuaState.mustTerminate_of_budget hlimit, Except.ok.injEq, decide_eq_false_iff_not,
              hstate.1] at hjudged
            exact ⟨hstate, Nat.lt_of_not_le hjudged⟩
          · exact hwaits other h
      · intro other h
        rw [hheld] at h
        exact rations.held other (hperm.mem_iff.2 (List.mem_cons_of_mem _ h))
  | @turned report after hgrant hheld turned =>
      refine rations.quiet dealt hgrant ?_ ?_
      · rcases turned.idle_cases with hidle | stocked
        · simpa only [hidle] using hwaits
        · intro state h
          obtain ⟨hrequested, hbudget⟩ := (stocked.bore state h).fresh
          have hnew := rations.unborn state.id (stocked.batch.mem_range h).1
          rw [hrequested, hnew]
          exact ⟨⟨hbudget.trans rations.budget_eq, Nat.le_refl 0⟩, rations.limit_pos⟩
      · simpa only [hheld] using rations.held

theorem Rations.run (rations : sys.Rations limit given) (apart : sys.Apart)
    {actions : List Action} (faithful : ∀ action ∈ actions, action.faithful = true) :
    (sys.run actions).Rations limit (fun id => given id + sys.grants id actions) ∧
      (sys.run actions).Apart := by
  induction actions generalizing sys given with
  | nil => exact ⟨rations, apart⟩
  | cons action actions ih =>
      rw [List.forall_mem_cons] at faithful
      have dealt := sys.step_dealt faithful.1
      simp only [grants, ← Nat.add_assoc]
      exact ih (rations.dealt apart dealt) (apart.dealt dealt) faithful.2

theorem rations_make {config : Config} (hbudget : 0 < config.budget) (hook : Option InitHook)
    (root : Token) (world : World) :
    (make config hook root world).Rations config.budget (fun _ => 0) ∧
      (make config hook root world).Apart := by
  constructor
  · exact
      { limit_pos := hbudget
        budget_eq := rfl
        idle := List.forall_mem_nil _
        below := List.forall_mem_nil _
        held := List.forall_mem_nil _
        given_le := fun _ => Nat.zero_le _
        unborn := fun _ _ => rfl
        timely := by simp [make, Site.idle] }
  · exact ⟨fun _ => Nat.zero_le _, List.forall_mem_nil _⟩

/-! ### The law -/

theorem Dealt.mem_of_grants {answer : Report × System} (dealt : sys.Dealt answer)
    (h : answer.1.grants id ≠ 0) : id ∈ answer.2.ids := by
  have hlent {after : System} {state : LuaState} (hheld : after.held = state :: sys.held)
      (h : (Report.granted state).grants id ≠ 0) : id ∈ after.ids := by
    by_cases heq : state.id = id
    · rw [← heq]
      exact mem_ids_of_held (hheld ▸ List.mem_cons_self)
    · exact absurd (if_neg heq) h
  cases dealt.moved with
  | still hgrant | parted hgrant | turned hgrant =>
      exact absurd (Report.grants_of_not_grant hgrant id) h
  | touched => exact absurd rfl h
  | reused _ hheld => exact hlent hheld h
  | built _ _ _ _ _ _ hheld => exact hlent hheld h

/-- A state that has left the pool never comes back. -/
theorem gone_run (hborn : id.number < sys.site.world.states) (hgone : id ∉ sys.ids)
    {actions : List Action} (faithful : ∀ action ∈ actions, action.faithful = true) :
    id ∉ (sys.run actions).ids ∧ sys.grants id actions = 0 := by
  induction actions generalizing sys with
  | nil => exact ⟨hgone, rfl⟩
  | cons action actions ih =>
      rw [List.forall_mem_cons] at faithful
      have dealt := sys.step_dealt faithful.1
      have hgone' : id ∉ (sys.step action).2.ids := by
        intro hmem
        rcases dealt.grows.mem_cases hmem with hold | ⟨hnew, -⟩
        · exact hgone hold
        · omega
      have hnone : (sys.step action).1.grants id = 0 :=
        Decidable.of_not_not fun hne => hgone' (dealt.mem_of_grants hne)
      obtain ⟨hlater, hgrants⟩ :=
        ih (Nat.lt_of_lt_of_le hborn dealt.states_le) hgone' faithful.2
      refine ⟨hlater, ?_⟩
      rw [grants, hnone, hgrants]

theorem report_part (hopen : sys.isOpen = true) {state : LuaState} {rest : List LuaState}
    (hpick : pick id sys.held = some (state, rest)) (parting : Parting) :
    (sys.step (.part .pool id parting)).1 =
      .ofOutcome (fun () => .done) (parting.perform sys.site state).1 := by
  simp only [step, act, ifOpen, hopen, ↓reduceIte, part, states, hpick, takeBack]

/-- What a request budget comes to when each state was handed out a number of times. -/
structure Rationed (sys : System) (limit : Nat) (given : StateId → Nat) : Prop where
  waiting : ∀ state ∈ sys.site.pool.idle, state.requested < limit
  given_le : ∀ id, given id ≤ limit
  /-- A state that comes back after its last request is closed for that, which cancels its token,
  and never seen again. -/
  retired : ∀ id state rest parting, pick id sys.held = some (state, rest) →
    given id = limit ∨ limit ≤ state.requested → state.closed = false →
    sys.site.pool.status.accepts = true → parting = .put ∨ parting = .dropGuard →
    let answer := sys.step (.part .pool id parting)
    answer.1 = .done ∧
      sys.site.pool.news answer.2.site.pool = [.cleanedUp id .requestBudget] ∧
      answer.2.site.world = sys.site.world.cancel state.token ∧
      ∀ actions : List Action, (∀ action ∈ actions, action.faithful = true) →
        id ∉ (answer.2.run actions).ids ∧ answer.2.grants id actions = 0
  /-- Any other one waits again, unless its token is cancelled.  The clock is not asked. -/
  spared : ∀ id state rest parting, pick id sys.held = some (state, rest) →
    state.requested < limit → state.closed = false → sys.site.pool.status.accepts = true →
    sys.site.isCancelled state.token = false → parting = .put ∨ parting = .dropGuard →
    let answer := sys.step (.part .pool id parting)
    answer.1 = .done ∧ id ∈ answer.2.site.pool.idle.map (·.id)
  timely : ∀ id, Event.cleanedUp id .idleTimeout ∉ sys.site.pool.journal

theorem Slotted.room {lost : Nat} (slotted : sys.Slotted lost) {state : LuaState}
    {rest : List LuaState} (hpick : pick id sys.held = some (state, rest)) :
    sys.isOpen = true ∧ 0 < sys.site.pool.serving ∧ 0 < sys.site.pool.length := by
  have hlength := (perm_of_pick hpick).2.length_eq
  have hserving := slotted.slots.serving_eq
  have hle := slotted.slots.le_length
  rw [List.length_cons] at hlength
  refine ⟨slotted.opened ?_, by omega, by omega⟩
  intro hnil
  rw [hnil] at hlength
  cases hlength

theorem Rations.retired {lost : Nat} (rations : sys.Rations limit given) (apart : sys.Apart)
    (slotted : sys.Slotted lost) {state : LuaState} {rest : List LuaState} {parting : Parting}
    (hpick : pick id sys.held = some (state, rest))
    (hspent : given id = limit ∨ limit ≤ state.requested) (hclosed : state.closed = false)
    (haccepts : sys.site.pool.status.accepts = true)
    (hback : parting = .put ∨ parting = .dropGuard) :
    let answer := sys.step (.part .pool id parting)
    answer.1 = .done ∧
      sys.site.pool.news answer.2.site.pool = [.cleanedUp id .requestBudget] ∧
      answer.2.site.world = sys.site.world.cancel state.token ∧ id ∉ answer.2.ids := by
  obtain ⟨hopen, hserving, hlength⟩ := slotted.room hpick
  obtain ⟨rfl, hperm⟩ := perm_of_pick hpick
  obtain ⟨hbudget, hgiven⟩ := rations.held state (hperm.mem_iff.2 List.mem_cons_self)
  have hlimit := rations.limit_pos
  have hjudged : state.mustTerminate sys.site.world.clock = .ok true := by
    rw [LuaState.mustTerminate_of_budget (by omega), hbudget]
    congr 1
    rw [decide_eq_true_eq]
    rcases hspent with h | h <;> omega
  obtain ⟨hresult, hnews, hworld, hidle⟩ :=
    Site.put_of_spent hclosed haccepts hjudged hserving hlength
  have hperform := Parting.perform_of_put hback hresult
  obtain ⟨hsite, hheld, -⟩ := step_part hopen hpick parting
  have hreason : sys.site.pool.retirementReason = .requestBudget := by
    rw [Pool.retirementReason, if_pos (by rw [rations.budget_eq]; exact hlimit)]
  obtain ⟨hrest, hwaits⟩ := apart.not_mem_of_held hperm
  refine ⟨?_, ?_, ?_, ?_⟩
  · rw [report_part hopen hpick, hperform]
    rfl
  · rw [hsite, hperform, hnews, hreason]
  · rw [hsite, hperform, hworld]
  · simp only [ids, hsite, hperform, hidle, hheld, List.mem_append]
    rintro (h | h)
    · exact hwaits h
    · exact hrest h

theorem Rations.spared {lost : Nat} (rations : sys.Rations limit given)
    (slotted : sys.Slotted lost) {state : LuaState} {rest : List LuaState} {parting : Parting}
    (hpick : pick id sys.held = some (state, rest)) (hbelow : state.requested < limit)
    (hclosed : state.closed = false) (haccepts : sys.site.pool.status.accepts = true)
    (hlive : sys.site.isCancelled state.token = false)
    (hback : parting = .put ∨ parting = .dropGuard) :
    let answer := sys.step (.part .pool id parting)
    answer.1 = .done ∧ id ∈ answer.2.site.pool.idle.map (·.id) := by
  obtain ⟨hopen, hserving, -⟩ := slotted.room hpick
  obtain ⟨rfl, hperm⟩ := perm_of_pick hpick
  obtain ⟨hbudget, -⟩ := rations.held state (hperm.mem_iff.2 List.mem_cons_self)
  have hjudged : state.mustTerminate sys.site.world.clock = .ok false := by
    rw [LuaState.mustTerminate_of_budget (by omega), hbudget]
    congr 1
    rw [decide_eq_false_iff_not]
    omega
  obtain ⟨hresult, hidle⟩ := Site.put_of_unspent hclosed haccepts hjudged hlive hserving
  have hperform := Parting.perform_of_put hback hresult
  obtain ⟨hsite, -, -⟩ := step_part hopen hpick parting
  constructor
  · rw [report_part hopen hpick, hperform]
    rfl
  · rw [hsite, hperform, hidle, List.map_cons]
    exact List.mem_cons_self

/-- A pool with a budget keeps to it, whatever its callers do to the states that they hold. -/
theorem run_rationed {config : Config} (h : config.Built) (hbudget : 0 < config.budget)
    (hook : Option InitHook) (root : Token) (world : World) {actions : List Action}
    (faithful : ∀ action ∈ actions, action.faithful = true) :
    ((make config hook root world).run actions).Rationed config.budget
      fun id => (make config hook root world).grants id actions := by
  have slotted := (slotted_make h hook root world).run faithful
  obtain ⟨rations, apart⟩ := rations_make hbudget hook root world
  obtain ⟨rations, apart⟩ := rations.run apart faithful
  simp only [Nat.zero_add] at rations
  generalize (fun id => (make config hook root world).grants id actions) = given at rations
  generalize (make config hook root world).run actions = sys at slotted rations apart
  exact
    { waiting := rations.below
      given_le := rations.given_le
      retired := fun id state rest parting hpick hspent hclosed haccepts hback => by
        obtain ⟨hreport, hnews, hworld, hgone⟩ :=
          rations.retired apart slotted hpick hspent hclosed haccepts hback
        obtain ⟨rfl, hperm⟩ := perm_of_pick hpick
        have hborn := apart.born _ (mem_ids_of_held (hperm.mem_iff.2 List.mem_cons_self))
        have dealt : sys.Dealt (sys.step (.part .pool state.id parting)) := step_dealt rfl
        exact ⟨hreport, hnews, hworld, fun actions faithful =>
          gone_run (Nat.lt_of_lt_of_le hborn dealt.states_le) hgone faithful⟩
      spared := fun id state rest parting hpick hbelow hclosed haccepts hlive hback =>
        rations.spared slotted hpick hbelow hclosed haccepts hlive hback
      timely := rations.timely }

/-- Each state of this small pool serves two requests. -/
def frugal : Config := { Config.small with budget := 2 }

theorem built_frugal : frugal.Built := by
  have hread : IdleTimeout.read "1h" = .ok ⟨1, .hours⟩ := rfl
  have h : Config.ofPolicy 4 2 2 (-1) "1h" = .ok frugal := by
    simp [Config.ofPolicy, hread, frugal, Config.small, Config.default]
    decide
  exact .ofPolicy h

/-- A state comes back hours after its first request, and is out for its second one. -/
def spending : List Action :=
  [.advance 0, .advance 0, .advance 0, .get ⟨0⟩, .tick 90000000 90000000, .part .pool ⟨1⟩ .put,
    .get ⟨0⟩]

theorem spending_rationed :
    ((make frugal none ⟨0⟩ clean).grants ⟨1⟩ spending = 2 ∧
      ((make frugal none ⟨0⟩ clean).run spending).held.map (fun state => (state.id, state.closed)) =
        [(⟨1⟩, false)] ∧
      ((make frugal none ⟨0⟩ clean).run spending).site.pool.status = .running) ∧
      ((make frugal none ⟨0⟩ clean).run spending).Rationed frugal.budget
        fun id => (make frugal none ⟨0⟩ clean).grants id spending :=
  ⟨by decide +kernel, run_rationed built_frugal (by decide) none ⟨0⟩ clean (by decide)⟩

end System

end StatePool
