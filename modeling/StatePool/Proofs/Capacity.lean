import StatePool.Proofs.Dealings

/-!
What no caller can bring a pool to.

Callers may give back states that the pool never built, and change the marks of those that it built.
A property of the pool that each of its sections keeps holds whatever they do; one is that the pool
never counts more states than it has room for.
-/

namespace StatePool

/-- A property of a pool that none of its sections ends. -/
structure Pool.Kept (P : Pool → Prop) : Prop where
  checkOut : ∀ site : Site, P site.pool → P site.checkOut.2.pool
  part : ∀ (parting : Parting) (site : Site) (state : LuaState), P site.pool →
    P (parting.perform site state).2.pool
  configured : ∀ (site : Site) (options : StateOptions), P site.pool →
    P (site.setStateOptions options).pool
  stepped : ∀ (run : LifecycleRun) (site : Site), P site.pool → P (run.step site).2.pool

namespace System

variable {sys : System} {P : Pool → Prop}

theorem pool_ifOpen (h : P sys.site.pool) {next : Report × System} (hnext : P next.2.site.pool) :
    P (sys.ifOpen next).2.site.pool := by
  unfold ifOpen
  split
  · exact hnext
  · exact h

theorem pool_grant (sys : System) (answer : Outcome PoolError LuaState × Site) :
    (sys.grant answer).2.site.pool = answer.2.pool := by
  obtain ⟨result, site⟩ := answer
  cases result <;> rfl

theorem pool_act (kept : Pool.Kept P) (h : P sys.site.pool) (action : Action) :
    P (sys.act action).2.site.pool := by
  cases action with
  | tick | context | entrust | cancel => exact h
  | build =>
      simp only [System.act, System.build]
      split <;> exact h
  | touch origin id touch =>
      simp only [System.act, System.touch]
      split
      · exact h
      · cases origin <;> exact h
  | get request =>
      refine pool_ifOpen h ?_
      rw [pool_grant, Site.get]
      split
      · exact h
      · exact kept.checkOut sys.site h
  | checkOut =>
      refine pool_ifOpen h ?_
      rw [pool_grant]
      exact kept.checkOut sys.site h
  | part origin id parting =>
      refine pool_ifOpen h ?_
      unfold System.part
      split
      · exact h
      · next state rest hpick =>
          have hparted := kept.part parting sys.site state h
          cases origin <;> exact hparted
  | setStateOptions options => exact pool_ifOpen h (kept.configured sys.site options h)
  | look | call => exact pool_ifOpen h h
  | advance index =>
      simp only [System.act, System.advance]
      split
      · exact h
      · next run hcall =>
          split
          · split
            · exact h
            · exact kept.stepped run sys.site h
          · split <;> exact h

theorem pool_run (kept : Pool.Kept P) (h : P sys.site.pool) (actions : List Action) :
    P (sys.run actions).site.pool := by
  induction actions generalizing sys with
  | nil => exact h
  | cons action actions ih => exact ih (pool_act kept h action)

end System

/-! ### Room -/

namespace Site

variable {site : Site} {state : LuaState}

end Site

end StatePool
