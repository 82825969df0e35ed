import StatePool.Proofs.Sound

/-!
The counters of a pool agree with the states that it has and with those that are checked out, and no
section finds them otherwise.
-/

namespace StatePool

namespace Site

variable {site after : Site} {state : LuaState}

theorem CheckedOut.isBreach {result : Outcome PoolError LuaState}
    (h : CheckedOut site (result, after)) : result.isBreach = false := by
  cases h with
  | panicked hfault => exact hfault
  | refused | full | failed | reused | built => rfl

theorem Parted.isBreach {result : Outcome PoolError Unit} (h : Parted site state (result, after)) :
    result.isBreach = false := by
  cases h with
  | kept hresult | retired hresult | recycled hresult => exact hresult

end Site

namespace System

variable {sys : System}

/-- What the counters of a pool promise. -/
structure Balanced (sys : System) : Prop where
  length_eq : sys.site.pool.length = sys.site.pool.idle.length + sys.site.pool.serving
  serving_eq : sys.site.pool.serving = sys.out.length
  length_le : 0 < sys.site.pool.config.capacity →
    sys.site.pool.length ≤ sys.site.pool.config.capacity
  idle_nodup : (sys.site.pool.idle.map (·.id)).Nodup
  /-- No state waits that somebody holds, or could come back. -/
  apart : ∀ state ∈ sys.site.pool.idle, state.id ∉ sys.out ∧
    ∀ origin, state.id ∉ (sys.states origin).map (·.id)
  held_out : ∀ state ∈ sys.held, state.id ∈ sys.out
  idle_serving : ∀ state ∈ sys.site.pool.idle, state.serving = false

theorem Sound.balanced (sound : sys.Sound) : sys.Balanced where
  length_eq := sound.books.length_eq
  serving_eq := sound.books.serving_eq
  length_le := sound.books.length_le
  idle_nodup := sound.books.idle_nodup
  apart state hstate := by
    obtain ⟨hout, hstrangers⟩ := sound.books.idle_apart hstate
    refine ⟨hout, fun origin => ?_⟩
    cases origin with
    | caller => exact hstrangers
    | pool =>
        intro hheld
        obtain ⟨other, hother, heq⟩ := List.mem_map.1 hheld
        exact hout (heq ▸ sound.books.out_of_held hother)
  held_out _ := sound.books.out_of_held
  idle_serving state hstate := (sound.books.idle_rests state hstate).1

theorem isBreach_grant (sys : System) (result : Outcome PoolError LuaState) (site : Site) :
    (sys.grant (result, site)).1.isBreach = result.isBreach := by
  cases result <;> rfl

theorem Acted.isBreach {action : Action} {answer : Report × System} (h : Acted sys action answer) :
    answer.1.isBreach = false := by
  cases h with
  | stirred quiet => exact quiet.isBreach
  | checkedOut hopen checked => exact (isBreach_grant sys _ _).trans checked.isBreach
  | parted hopen hperm parted => exact Report.isBreach_ofOutcome.trans parted.isBreach
  | advanced hlock hcall hresult stepped => exact stepped.isBreach_report hresult
  | adopted | alienated | touched | configured | called | locked | unlocked => rfl

/-- Whatever honest callers did, the counters are right, and no section that follows will complain
about them or take one below zero. -/
theorem reachable_balanced (h : sys.Reachable) :
    sys.Balanced ∧ ∀ action : Action, action.honest = true → ∀ fault : Fault,
      (sys.step action).1 = .panicked fault → fault.isBreach = false := by
  refine ⟨h.sound.balanced, fun action honest fault hreport => ?_⟩
  have hbreach := (act_acted h.sound honest).isBreach
  simp only [step] at hreport
  rw [hreport] at hbreach
  exact hbreach

/-- Both seeds of a pool are handed out; then one of them is cancelled and given back. -/
def lent : System :=
  (make .small none ⟨0⟩ clean).run
    [.advance 0, .advance 0, .advance 0, .get ⟨0⟩, .get ⟨0⟩, .touch .pool ⟨1⟩ .cancel,
      .part .pool ⟨1⟩ .put]

theorem reachable_lent : lent.Reachable :=
  (Reachable.made Config.built_small none ⟨0⟩ clean).run (by decide)

theorem lent_balanced :
    (lent.site.pool.length = 1 ∧ lent.site.pool.serving = 1) ∧ lent.Balanced ∧
      ∀ action : Action, action.honest = true → ∀ fault : Fault,
        (lent.step action).1 = .panicked fault → fault.isBreach = false :=
  ⟨by decide, reachable_balanced reachable_lent⟩

end System

end StatePool
