import StatePool.Config

/-!
The configurations that callers can have.

Every one of them was normalized once, and only its interpreter options may have been replaced since
then.  In particular a bounded pool is never asked for more seeds than it has room for.
-/

namespace StatePool

theorem Limits.seeds_le {capacity : Nat} (n : Int64) (h : 0 < capacity) :
    seeds capacity n ≤ capacity := by
  unfold seeds
  rw [if_neg (by omega)]
  split <;> omega

namespace Config

inductive Built : Config → Prop
  | ofPolicy {capacity seeds budget requestTimeout : Int64} {idleTimeout : String}
      {config : Config}
      (h : Config.ofPolicy capacity seeds budget requestTimeout idleTimeout = .ok config) :
      Built config
  | default : Built .default
  | withStateOptions {config : Config} (h : Built config) (options : StateOptions) :
      Built (config.withStateOptions options)

theorem Built.ofRaw {raw : RawConfig} {config : Config} (h : Config.ofRaw raw = .ok config) :
    config.Built := by
  unfold Config.ofRaw at h
  split at h
  · cases h
  · next normal hnormal =>
      cases h
      exact (Built.ofPolicy hnormal).withStateOptions raw.stateOptions

theorem Built.ofJson {text : String} {config : Config} (h : Config.ofJson text = .ok config) :
    config.Built := by
  unfold Config.ofJson at h
  split at h
  · cases h
  · exact Built.ofRaw h

theorem Built.seeds_le {config : Config} (h : config.Built) (hcapacity : 0 < config.capacity) :
    config.seeds ≤ config.capacity := by
  induction h with
  | ofPolicy h =>
      unfold Config.ofPolicy at h
      split at h
      · cases h
      · cases h
        exact Limits.seeds_le _ hcapacity
  | default => simp [Config.default, Limits.defaultCapacity] at hcapacity
  | withStateOptions _ _ ih => exact ih hcapacity

/-- At most four states, two of them from the beginning. -/
def small : Config := { Config.default with capacity := 4, seeds := 2 }

theorem ofPolicy_small : Config.ofPolicy 4 2 (-1) (-1) "1h" = .ok small := by
  have hread : IdleTimeout.read "1h" = .ok ⟨1, .hours⟩ := rfl
  simp [Config.ofPolicy, hread, small, Config.default]
  decide

theorem built_small : small.Built := .ofPolicy ofPolicy_small

end Config

end StatePool
