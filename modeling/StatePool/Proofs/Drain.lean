import StatePool.Proofs.Sound

/-!
Draining while others use the pool.

A drain is two sections of the pool, with any number of sections of others around them.  The first
one closes the pool, which stays closed until a life of it is started; the second one sleeps until
nothing is checked out.
-/

namespace StatePool

theorem Pool.serving_setStatus (pool : Pool) (target : Status) :
    (pool.setStatus target).serving = pool.serving := by
  rcases pool.setStatus_eq target with h | ⟨-, h⟩
  · rw [h]
  · rw [h]
    rfl

namespace Site

variable {site after : Site} {state : LuaState}

/-- A parting leaves the status as it is and ends one checkout at most. -/
theorem Parted.serving_le {result : Outcome PoolError Unit}
    (h : Parted site state (result, after)) :
    after.pool.status = site.pool.status ∧ after.pool.serving ≤ site.pool.serving := by
  cases h with
  | kept => exact ⟨rfl, Nat.le_refl _⟩
  | retired => exact ⟨rfl, Nat.sub_le _ _⟩
  | recycled => exact ⟨rfl, Nat.sub_le _ _⟩

end Site

namespace LifecycleRun

variable {run next : LifecycleRun} {site after : Site}

/-- A closed pool is opened by nothing but the start of a life. -/
theorem Stepped.stays_closed (h : Stepped run site (next, after)) (hseeds : run.seedRoot = none)
    (hclosed : site.pool.status.accepts = false) :
    after.pool.status.accepts = false ∧ after.pool.serving ≤ site.pool.serving := by
  cases h with
  | entered | refused | looked | asleep | drained => exact ⟨hclosed, Nat.le_refl _⟩
  | closed =>
      exact ⟨accepts_readyExit site, Nat.le_of_eq (site.pool.serving_setStatus .exiting)⟩
  | seeded hphase => simp [seedRoot, hphase] at hseeds
  | sealed =>
      exact ⟨accepts_setStatus_dead hclosed, Nat.le_of_eq (site.pool.serving_setStatus .dead)⟩

end LifecycleRun

namespace System

variable {sys : System}

/-- A call is about to close the pool for a drain. -/
def Closing (sys : System) (index : Nat) : Prop :=
  ∃ run, sys.calls[index]? = some run ∧ run.behindClosing ≠ none

/-- A call is in the second section of a drain, asleep or not. -/
def Draining (sys : System) (index : Nat) : Prop :=
  ∃ run, sys.calls[index]? = some run ∧ run.behindDrain ≠ none

/-- The action is the section in which a lifecycle call starts a life of the pool. -/
def seeds (sys : System) : Action → Bool
  | .advance index =>
      sys.lock = some index && sys.calls[index]?.any fun run => run.seedRoot.isSome
  | _ => false

/-- No life of the pool is started on the way. -/
def Unseeded (sys : System) : List Action → Prop
  | [] => True
  | action :: actions => sys.seeds action = false ∧ (sys.step action).2.Unseeded actions

/-! ### One drain at a time -/

theorem Sound.lock_of_busy (sound : sys.Sound) {index : Nat} {run : LifecycleRun}
    (hcall : sys.calls[index]? = some run)
    (hbusy : run.behindClosing ≠ none ∨ run.behindDrain ≠ none) :
    sys.lock = some index ∧ run.result? = none := by
  obtain ⟨call, phase⟩ := run
  have hphase : phase ≠ .entering ∧ ∀ result, phase ≠ .done result := by
    constructor
    · rintro rfl
      simp [LifecycleRun.behindClosing, LifecycleRun.behindDrain] at hbusy
    · rintro result rfl
      simp [LifecycleRun.behindClosing, LifecycleRun.behindDrain] at hbusy
  have hresult : LifecycleRun.result? ⟨call, phase⟩ = none := by
    cases phase with
    | done result => exact absurd rfl (hphase.2 result)
    | _ => rfl
  refine ⟨Decidable.byContradiction fun hlock => ?_, hresult⟩
  rcases sound.waits index _ hlock hcall with h | h
  · exact hphase.1 h
  · exact h hresult

theorem Sound.one_drain (sound : sys.Sound) {i j : Nat} (hi : sys.Closing i ∨ sys.Draining i)
    (hj : sys.Closing j ∨ sys.Draining j) : i = j := by
  have lock_of (index : Nat) (h : sys.Closing index ∨ sys.Draining index) :
      sys.lock = some index := by
    rcases h with ⟨run, hcall, hbusy⟩ | ⟨run, hcall, hbusy⟩
    · exact (sound.lock_of_busy hcall (.inl hbusy)).1
    · exact (sound.lock_of_busy hcall (.inr hbusy)).1
  have heq := (lock_of i hi).symm.trans (lock_of j hj)
  exact Option.some.inj heq

/-! ### The pool stays closed -/

theorem Acted.stays_closed {action : Action} {answer : Report × System}
    (h : Acted sys action answer) (hseeds : sys.seeds action = false)
    (hclosed : sys.site.pool.status.accepts = false) :
    answer.1.isGrant = false ∧ answer.2.site.pool.status.accepts = false ∧
      answer.2.site.pool.serving ≤ sys.site.pool.serving := by
  cases h with
  | stirred quiet => exact ⟨quiet.isGrant, hclosed, Nat.le_refl _⟩
  | adopted | alienated | touched | configured | called | locked | unlocked =>
      exact ⟨rfl, hclosed, Nat.le_refl _⟩
  | checkedOut hopen checked =>
      cases checked with
      | refused | full | failed | panicked => exact ⟨rfl, hclosed, Nat.le_refl _⟩
      | reused haccepts => exact absurd (haccepts.symm.trans hclosed) nofun
      | built haccepts => exact absurd (haccepts.symm.trans hclosed) nofun
  | parted hopen hperm parted =>
      obtain ⟨hstatus, hserving⟩ := parted.serving_le
      refine ⟨Report.isGrant_ofOutcome, ?_, hserving⟩
      simp only [takeBack]
      rw [hstatus]
      exact hclosed
  | @advanced index run next site hlock hcall hresult stepped =>
      have hroot : run.seedRoot = none := by simpa [seeds, hlock, hcall] using hseeds
      exact ⟨next.isGrant_report, stepped.stays_closed hroot hclosed⟩

theorem Reachable.stays_closed (h : sys.Reachable) {actions : List Action}
    (honest : ∀ action ∈ actions, action.honest = true) (hseeds : sys.Unseeded actions)
    (hclosed : sys.site.pool.status.accepts = false) :
    (sys.run actions).site.pool.status.accepts = false := by
  induction actions generalizing sys with
  | nil => exact hclosed
  | cons action actions ih =>
      rw [List.forall_mem_cons] at honest
      have acted := act_acted h.sound honest.1
      exact ih (h.step honest.1) honest.2 hseeds.2 (acted.stays_closed hseeds.1 hclosed).2.1

theorem Sound.closes (sound : sys.Sound) {index : Nat} (hclosing : sys.Closing index) :
    (sys.step (.advance index)).2.site.pool.status.accepts = false := by
  obtain ⟨run, hcall, hbusy⟩ := hclosing
  obtain ⟨hlock, hresult⟩ := sound.lock_of_busy hcall (.inl hbusy)
  obtain ⟨next, site, stepped, heq⟩ := sound.advance_stepped hlock hcall hresult
  obtain ⟨phase, hclosing⟩ := Option.ne_none_iff_exists'.1 hbusy
  obtain ⟨-, rfl⟩ := stepped.of_closing hclosing
  simp only [step, act, heq]
  exact LifecycleRun.accepts_readyExit sys.site

/-! ### The end of a drain -/

theorem Sound.ends_drain (sound : sys.Sound) {index : Nat} (hdraining : sys.Draining index)
    (hserving : sys.site.pool.serving = 0) :
    ¬ (sys.step (.advance index)).2.Draining index := by
  obtain ⟨run, hcall, hbusy⟩ := hdraining
  obtain ⟨hlock, hresult⟩ := sound.lock_of_busy hcall (.inr hbusy)
  obtain ⟨next, site, stepped, heq⟩ := sound.advance_stepped hlock hcall hresult
  obtain ⟨phase, hdrain⟩ := Option.ne_none_iff_exists'.1 hbusy
  have hlt := (List.getElem?_eq_some_iff.1 hcall).1
  rintro ⟨run', hcall', hdrain'⟩
  simp only [step, act, heq, note, List.getElem?_set_self hlt, Option.some.injEq] at hcall'
  subst hcall'
  rcases stepped.of_drain hdrain with ⟨-, hpos⟩ | ⟨rfl, -⟩
  · omega
  · exact hdrain' (LifecycleRun.behindDrain_eq_none hdrain)

/-- Only its own section takes a call out of a drain. -/
theorem Acted.drained {action : Action} {answer : Report × System} (h : Acted sys action answer)
    {index : Nat} (hbefore : sys.Draining index) (hafter : ¬ answer.2.Draining index) :
    answer.2.site.pool.Drained := by
  obtain ⟨run, hcall, hbusy⟩ := hbefore
  have hlt := (List.getElem?_eq_some_iff.1 hcall).1
  cases h with
  | stirred | adopted | alienated | touched | parted | configured | locked | unlocked =>
      exact absurd ⟨run, hcall, hbusy⟩ hafter
  | @checkedOut _ result site hopen checked =>
      cases result <;> exact absurd ⟨run, hcall, hbusy⟩ hafter
  | called =>
      exact absurd ⟨run, (List.getElem?_append_left hlt).trans hcall, hbusy⟩ hafter
  | @advanced other run' next site hlock hcall' hresult stepped =>
      by_cases heq : other = index
      · subst heq
        cases hcall.symm.trans hcall'
        obtain ⟨phase, hdrain⟩ := Option.ne_none_iff_exists'.1 hbusy
        rcases stepped.of_drain hdrain with ⟨rfl, -⟩ | ⟨-, -, drained⟩
        · exact absurd ⟨next, List.getElem?_set_self hlt, hbusy⟩ hafter
        · exact drained
      · exact absurd ⟨run, (List.getElem?_set_ne heq).trans hcall, hbusy⟩ hafter

/-! ### The protocol -/

structure DrainProtocol (sys : System) : Prop where
  /-- Who sleeps in a drain is woken by the end of a checkout that is still to come. -/
  asleep : ∀ index, sys.Draining index → sys.site.pool.parked = true → 0 < sys.site.pool.serving
  alone : ∀ i j, sys.Closing i ∨ sys.Draining i → sys.Closing j ∨ sys.Draining j → i = j
  /-- Without checkouts a drain is over after its next section. -/
  ends : ∀ index, sys.Draining index → sys.site.pool.serving = 0 →
    ¬ (sys.step (.advance index)).2.Draining index
  complete : ∀ index, sys.Draining index → ∀ action : Action, action.honest = true →
    ¬ (sys.step action).2.Draining index → (sys.step action).2.site.pool.Drained
  /-- From the first section of a drain until the next life starts, nothing is handed out. -/
  closed : ∀ index, sys.Closing index → ∀ actions : List Action,
    (∀ action ∈ actions, action.honest = true) →
    (sys.step (.advance index)).2.Unseeded actions →
    let later := (sys.step (.advance index)).2.run actions
    ∀ action : Action, action.honest = true → later.seeds action = false →
      (later.step action).1.isGrant = false ∧
      (later.step action).2.site.pool.serving ≤ later.site.pool.serving

theorem reachable_drainProtocol (h : sys.Reachable) : sys.DrainProtocol where
  asleep _ _ hparked := h.sound.books.parked_serving hparked
  alone _ _ := h.sound.one_drain
  ends _ := h.sound.ends_drain
  complete _ hdraining _ honest hafter := (act_acted h.sound honest).drained hdraining hafter
  closed index hclosing actions honest hseeds := by
    intro later action haction hunseeded
    have hnext : (sys.step (.advance index)).2.Reachable := h.step rfl
    have hclosed := hnext.stays_closed honest hseeds (h.sound.closes hclosing)
    have acted := act_acted (hnext.run honest).sound haction
    obtain ⟨hgrant, -, hserving⟩ := acted.stays_closed hunseeded hclosed
    exact ⟨hgrant, hserving⟩

/-- A pool of one state, which is out while a shutdown waits for it. -/
def awaited : System :=
  (make .default none ⟨0⟩ clean).run
    [.advance 0, .advance 0, .advance 0, .get ⟨0⟩, .call .shutdown, .advance 1, .advance 1,
      .advance 1, .advance 1]

theorem reachable_awaited : awaited.Reachable :=
  (Reachable.made .default none ⟨0⟩ clean).run (by decide)

theorem awaited_drainProtocol :
    (awaited.Draining 1 ∧ awaited.site.pool.parked = true) ∧ awaited.DrainProtocol :=
  ⟨⟨⟨⟨.shutdown, .draining⟩, by decide, by decide⟩, by decide⟩,
    reachable_drainProtocol reachable_awaited⟩

end System

end StatePool
