import StatePool.Proofs.Budget
import StatePool.Proofs.Inheritance
import StatePool.Proofs.Trips

/-!
What comes of giving a state back.

There may be several grounds on which a state is closed when it comes back, and the first of them
counts.  A state is judged by its own limits, and the reason that is told is read off the limits of
the pool, so it is the true one because the two are the same.
-/

namespace StatePool

namespace LuaState

variable {state : LuaState} {clock : Clock} {fault : ClockFault}

def Spent (state : LuaState) : Prop :=
  0 < state.budget ∧ state.budget ≤ state.requested

def Outlived (state : LuaState) (clock : Clock) : Prop :=
  state.budget = 0 ∧ 0 < state.idleSeconds ∧
    ∃ now, clock.now = .ok now ∧ signedSeconds state.idleSeconds < state.age now

/-- Its age decides, and cannot be told. -/
def Timeless (state : LuaState) (clock : Clock) (fault : ClockFault) : Prop :=
  state.budget = 0 ∧ 0 < state.idleSeconds ∧ clock.now = .error fault

theorem Spent.mustTerminate (spent : state.Spent) (clock : Clock) :
    state.mustTerminate clock = .ok true := by
  rw [mustTerminate_of_budget spent.1, decide_eq_true spent.2]

theorem Outlived.mustTerminate (outlived : state.Outlived clock) :
    state.mustTerminate clock = .ok true := by
  obtain ⟨hbudget, hidle, now, hclock, hage⟩ := outlived
  rw [mustTerminate_of_idle hbudget hidle hclock, decide_eq_true hage]

theorem spent_or_outlived (h : state.mustTerminate clock = .ok true) :
    state.Spent ∨ state.Outlived clock := by
  unfold LuaState.mustTerminate at h
  split at h
  · next hbudget =>
      rw [Except.ok.injEq, decide_eq_true_eq] at h
      exact .inl ⟨hbudget, h⟩
  · next hbudget =>
      split at h
      · cases h
      · next hidle =>
          split at h
          · cases h
          · next now hclock =>
              rw [Except.ok.injEq, decide_eq_true_eq] at h
              exact .inr ⟨by omega, by omega, now, hclock, h⟩

end LuaState

namespace Site

variable {site : Site} {state : LuaState} {instant : Int}

/-- What becomes of an open state that comes back, by the grounds in the order of their priority. -/
inductive Grounds (site : Site) (state : LuaState) :
    Except ClockFault (Option CleanupReason) → Prop
  | rejected (haccepts : site.pool.status.accepts = false) :
      Grounds site state (.ok (some .rejected))
  | spent (haccepts : site.pool.status.accepts = true) (h : state.Spent) :
      Grounds site state (.ok (some .requestBudget))
  | outlived (haccepts : site.pool.status.accepts = true) (h : state.Outlived site.world.clock) :
      Grounds site state (.ok (some .idleTimeout))
  | cancelled (haccepts : site.pool.status.accepts = true)
      (hkeeps : state.mustTerminate site.world.clock = .ok false)
      (hcancelled : site.isCancelled state.token = true) :
      Grounds site state (.ok (some .cancelled))
  | kept (haccepts : site.pool.status.accepts = true)
      (hkeeps : state.mustTerminate site.world.clock = .ok false)
      (hlive : site.isCancelled state.token = false) : Grounds site state (.ok none)
  | timeless {fault : ClockFault} (haccepts : site.pool.status.accepts = true)
      (h : state.Timeless site.world.clock fault) : Grounds site state (.error fault)

theorem ruling_of_retired (haccepts : site.pool.status.accepts = true)
    (h : state.mustTerminate site.world.clock = .ok true) :
    site.ruling state = .ok (some site.pool.retirementReason) := by
  simp only [ruling, haccepts, h, Bool.not_true, Bool.false_eq_true, ↓reduceIte]

theorem ruling_of_kept (haccepts : site.pool.status.accepts = true)
    (h : state.mustTerminate site.world.clock = .ok false) :
    site.ruling state =
      if site.isCancelled state.token then .ok (some .cancelled) else .ok none := by
  simp only [ruling, haccepts, h, Bool.not_true, Bool.false_eq_true, ↓reduceIte]

theorem retirementReason_of_spent (hbudget : state.budget = site.pool.config.budget)
    (h : state.Spent) : site.pool.retirementReason = .requestBudget := by
  rw [Pool.retirementReason, if_pos (hbudget ▸ h.1)]

theorem retirementReason_of_outlived (hbudget : state.budget = site.pool.config.budget)
    (h : state.Outlived site.world.clock) : site.pool.retirementReason = .idleTimeout := by
  have hnone : ¬ 0 < site.pool.config.budget := by
    have := h.1
    omega
  rw [Pool.retirementReason, if_neg hnone]

/-- The grounds exclude each other, and there always is one. -/
theorem grounds_iff (hbudget : state.budget = site.pool.config.budget)
    {fate : Except ClockFault (Option CleanupReason)} :
    site.Grounds state fate ↔ fate = site.ruling state := by
  constructor
  · intro grounds
    cases grounds with
    | rejected haccepts => simp [ruling, haccepts]
    | spent haccepts h =>
        rw [ruling_of_retired haccepts (h.mustTerminate _), retirementReason_of_spent hbudget h]
    | outlived haccepts h =>
        rw [ruling_of_retired haccepts h.mustTerminate, retirementReason_of_outlived hbudget h]
    | cancelled haccepts hkeeps hcancelled =>
        rw [ruling_of_kept haccepts hkeeps, if_pos hcancelled]
    | kept haccepts hkeeps hlive =>
        rw [ruling_of_kept haccepts hkeeps, hlive, if_neg Bool.false_ne_true]
    | timeless haccepts h =>
        obtain ⟨hbudget, hidle, hclock⟩ := h
        rw [ruling_of_ageless haccepts hbudget hidle hclock]
  · rintro rfl
    cases haccepts : site.pool.status.accepts with
    | false =>
        simp only [ruling, haccepts, Bool.not_false, ↓reduceIte]
        exact .rejected haccepts
    | true =>
        cases hjudged : state.mustTerminate site.world.clock with
        | error fault =>
            have timeless := LuaState.mustTerminate_eq_error hjudged
            simp only [ruling, haccepts, hjudged, Bool.not_true, Bool.false_eq_true, ↓reduceIte]
            exact .timeless haccepts timeless
        | ok terminate =>
            cases terminate with
            | true =>
                rw [ruling_of_retired haccepts hjudged]
                rcases LuaState.spent_or_outlived hjudged with h | h
                · rw [retirementReason_of_spent hbudget h]
                  exact .spent haccepts h
                · rw [retirementReason_of_outlived hbudget h]
                  exact .outlived haccepts h
            | false =>
                rw [ruling_of_kept haccepts hjudged]
                cases hcancelled : site.isCancelled state.token with
                | true => exact .cancelled haccepts hjudged hcancelled
                | false => exact .kept haccepts hjudged hcancelled

/-! ### What is left behind -/

/-- One checkout has ended, and one event tells so. -/
structure Checkin (site : Site) (event : Event) (after : Site) : Prop where
  serving_eq : after.pool.serving + 1 = site.pool.serving
  journal_eq : after.pool.journal = site.pool.journal.push event
  total_eq : after.pool.total = site.pool.total
  status_eq : after.pool.status = site.pool.status
  config_eq : after.pool.config = site.pool.config
  root_eq : after.pool.root = site.pool.root
  /-- The end of the last checkout wakes a drain that sleeps, and no other one does. -/
  parked_iff : after.pool.parked = true ↔ site.pool.parked = true ∧ after.pool.serving ≠ 0

structure Closes (site : Site) (state : LuaState) (reason : CleanupReason) (after : Site) : Prop
    extends site.Checkin (.cleanedUp state.id reason) after where
  length_eq : after.pool.length + 1 = site.pool.length
  idle_eq : after.pool.idle = site.pool.idle
  world_eq : after.world = (state.close site.world).2

/-- A state that was checked out at an instant waits behind all others. -/
structure Requeues (site : Site) (state : LuaState) (instant : Int) (after : Site) : Prop
    extends site.Checkin (.released state.id (site.world.clock.since instant)) after where
  length_eq : after.pool.length = site.pool.length
  idle_eq : after.pool.idle =
    { state with serving := false, servingSince := none } :: site.pool.idle
  world_eq : after.world = site.world

theorem Taken.closes (taken : site.Taken state instant) (reason : CleanupReason) :
    site.Closes state reason (site.retired state reason) := by
  have hserving := taken.serving_pos
  have hlength := taken.length_pos
  constructor
  · constructor
    · exact Nat.sub_add_cancel hserving
    · rfl
    · rfl
    · rfl
    · rfl
    · rfl
    · simp [retired, Pool.emit, Pool.released]
  · exact Nat.sub_add_cancel hlength
  · rfl
  · rfl

theorem Taken.requeues (taken : site.Taken state instant) :
    site.Requeues state instant (site.requeued state instant) := by
  have hserving := taken.serving_pos
  constructor
  · constructor
    · exact Nat.sub_add_cancel hserving
    · rfl
    · rfl
    · rfl
    · rfl
    · rfl
    · simp [requeued, Pool.emit, Pool.released]
  · rfl
  · rfl
  · rfl

/-- What the one who gives a state back is told, and what is left behind. -/
inductive Returned (site : Site) (state : LuaState) :
    Except ClockFault (Option CleanupReason) → Outcome PoolError Unit × Site → Prop
  | exiting {after : Site} (hstatus : site.pool.status = .exiting)
      (closes : site.Closes state .rejected after) :
      Returned site state (.ok (some .rejected)) (.error .exiting, after)
  | dead {after : Site} (hstatus : site.pool.status = .dead)
      (closes : site.Closes state .rejected after) :
      Returned site state (.ok (some .rejected)) (.error .dead, after)
  | retired {reason : CleanupReason} {after : Site} (hreason : reason ≠ .rejected)
      (closes : site.Closes state reason after) :
      Returned site state (.ok (some reason)) (.ok (), after)
  | kept {instant : Int} {after : Site} (hsince : state.servingSince = some instant)
      (requeues : site.Requeues state instant after) :
      Returned site state (.ok none) (.ok (), after)
  /-- Nothing was done but to drop the state. -/
  | timeless {fault : ClockFault} :
      Returned site state (.error fault) (.panic (.clock fault), site.forget state)

theorem Taken.returned (taken : site.Taken state instant)
    {fate : Except ClockFault (Option CleanupReason)} (grounds : site.Grounds state fate)
    (hruling : fate = site.ruling state) : site.Returned state fate (site.put state) := by
  have closes (reason : CleanupReason) := taken.closes reason
  rw [taken.put_eq, ← hruling]
  cases grounds with
  | rejected haccepts =>
      simp only [haccepts, Bool.false_eq_true, ↓reduceIte, Pool.refusal]
      cases hstatus : site.pool.status with
      | ready | running =>
          rw [hstatus] at haccepts
          cases haccepts
      | exiting => exact .exiting hstatus (closes .rejected)
      | dead => exact .dead hstatus (closes .rejected)
  | spent haccepts | outlived haccepts | cancelled haccepts =>
      simp only [haccepts, ↓reduceIte]
      exact .retired nofun (closes _)
  | kept haccepts => exact .kept taken.since taken.requeues
  | timeless haccepts => exact .timeless

end Site

namespace System

variable {sys : System} {state : LuaState}

/-- An open state that its holder gives back meets one fate, on the first ground that there is. -/
theorem lived_returned (lived : sys.Lived) (hheld : state ∈ sys.held)
    (hclosed : state.closed = false) :
    ∃ fate, (∀ other, sys.site.Grounds state other ↔ other = fate) ∧
      sys.site.Returned state fate (sys.site.put state) := by
  have limited := lived.limited (List.mem_append_right _ hheld)
  have hgrounds (fate : Except ClockFault (Option CleanupReason)) :
      sys.site.Grounds state fate ↔ fate = sys.site.ruling state :=
    Site.grounds_iff limited.budget_eq
  obtain ⟨instant, hsince⟩ := (lived.sound.books.held_lent state hheld).since hclosed
  have taken := lived.sound.taken hheld hclosed hsince
  exact ⟨sys.site.ruling state, hgrounds, taken.returned ((hgrounds _).2 rfl) rfl⟩

theorem engaged_returned :
    ∃ state ∈ engaged.held, state.closed = false ∧
      ∃ fate, (∀ other, engaged.site.Grounds state other ↔ other = fate) ∧
        engaged.site.Returned state fate (engaged.site.put state) := by
  obtain ⟨state, hheld, hclosed⟩ : ∃ state ∈ engaged.held, state.closed = false :=
    ⟨_, List.mem_cons_self, rfl⟩
  exact ⟨state, hheld, hclosed, lived_returned reachable_engaged.lived hheld hclosed⟩

/-- Giving back does not always end the checkout. -/
theorem not_put_frees :
    ¬ ∀ sys : System, sys.Reachable → ∀ state ∈ sys.held, state.closed = false →
      (sys.site.put state).2.pool.serving + 1 = sys.site.pool.serving := by
  intro frees
  have reachable : (ancient.run [.get ⟨0⟩]).Reachable := reachable_ancient.run (by decide)
  obtain ⟨state, hheld, hclosed, hserving⟩ : ∃ state ∈ (ancient.run [.get ⟨0⟩]).held,
      state.closed = false ∧
        ((ancient.run [.get ⟨0⟩]).site.put state).2.pool.serving = 1 :=
    ⟨_, List.mem_cons_self, rfl, rfl⟩
  have hbefore : (ancient.run [.get ⟨0⟩]).site.pool.serving = 1 := rfl
  have := frees _ reachable state hheld hclosed
  omega

end System

end StatePool
