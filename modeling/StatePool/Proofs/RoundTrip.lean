import StatePool.Proofs.Layout
import StatePool.Proofs.NormalForm

/-!
Configurations survive being written down.

A raw policy is read back as it was, whatever its numbers and texts are.  A configuration writes one
more field than a raw policy has; that one is passed over, and what is read is the raw policy whose
normal form the configuration is.
-/

namespace StatePool

open Json

namespace RawConfig

theorem ofJson_toJson (raw : RawConfig) : ofJson raw.toJson = .ok raw :=
  raw.document_toJson.ofJson

end RawConfig

namespace Config

variable {config : Config}

theorem Normal.layout_write (normal : config.Normal) :
    (RawConfig.wording true).Layout config.toRaw config.write := by
  have hnumber {n : Nat} (h : n < Nat.pow 2 63) : writeNat n = writeInt (Int64.ofNat n).toInt := by
    rw [Int64.toInt_ofNat_of_lt h, writeInt_natCast]
  have hmembers : (RawConfig.wording true).Members config.toRaw true
      [.capacity, .seeds, .budget, .idleTimeout, .requestTimeout, .stateOptions] (writeEntries true
      [("max_num".toList, writeNat config.capacity), ("start_num".toList, writeNat config.seeds),
        ("max_request".toList, writeNat config.budget),
        ("idle_timeout".toList, quote config.idleTimeout.toList),
        ("idle_timeout_secs".toList, writeNat config.idleSeconds),
        ("request_terminate_timeout".toList, writeNat config.requestTimeout),
        ("state_options".toList, config.stateOptions.write)]) := by
    refine .written (by decide) (hnumber normal.capacity_lt) ?_
    refine .written (by decide) (hnumber normal.seeds_lt) ?_
    refine .written (by decide) (hnumber normal.budget_lt) ?_
    refine .written (by decide) ⟨_, quoted_flatMap_escapeChar true _, rfl⟩ ?_
    refine .writtenUnknown rfl (by decide) (.number (number_writeNat config.idleSeconds)) ?_
    refine .written (by decide) (hnumber normal.requestTimeout_lt) ?_
    exact .written (by decide) (config.stateOptions.layout_write true) (.none Blanks.nil)
  refine .object (by decide) ?_ hmembers
  rintro (_ | _ | _ | _ | _ | _) h <;> simp at h

/-- The text of a configuration is a document of the raw policy that says the same. -/
theorem Normal.document_toJson (normal : config.Normal) :
    config.toRaw.Document config.toJson.toList := by
  have h := RawConfig.Document.mk Blanks.nil normal.layout_write Blanks.nil
  rwa [List.nil_append, List.append_nil, ← String.toList_ofList (l := config.write)] at h

theorem Normal.ofJson_toJson (normal : config.Normal) : ofJson config.toJson = .ok config := by
  have hread : RawConfig.ofJson config.toJson = .ok config.toRaw :=
    normal.document_toJson.ofJson
  simp only [ofJson, hread]
  exact normal.ofRaw_toRaw

/-- What is written is read back: a raw policy as it was, and a configuration, however it came about
and whatever options it was given since, as the same configuration. -/
theorem reads_back :
    (∀ raw : RawConfig, RawConfig.ofJson raw.toJson = .ok raw) ∧
      ∀ config : Config, config.Built → Config.ofJson config.toJson = .ok config :=
  ⟨RawConfig.ofJson_toJson, fun _ h => h.normal.ofJson_toJson⟩

/-- Everything at its limit, and more seconds of idleness than 64 bits hold. -/
def immense : Config where
  capacity := 9223372036854775807
  seeds := 4611686018427387904
  budget := 9223372036854775807
  idleTimeout := "9223372036854775807d"
  idleSeconds := 18446744073709551615
  requestTimeout := 9223372036854775807
  stateOptions := { libs := .minimal, memoryLimit := 18446744073709551615 }

theorem built_immense : immense.Built := by
  have h : Config.ofPolicy Int64.maxValue 0 Int64.maxValue Int64.maxValue "+009223372036854775807d" =
      .ok (immense.withStateOptions {}) := by
    have hread : IdleTimeout.read "+009223372036854775807d" =
        .ok ⟨Int64.maxValue, .days⟩ := rfl
    have hseeds : Limits.seeds (Limits.capacity Int64.maxValue) 0 = immense.seeds := by decide
    have hseconds : IdleTimeout.seconds ⟨Int64.maxValue, .days⟩ = immense.idleSeconds := by decide
    simp only [Config.ofPolicy, hread, hseeds, hseconds]
    rfl
  exact (Built.ofPolicy h).withStateOptions immense.stateOptions

theorem immense_reads_back :
    immense.Built ∧ (∀ raw : RawConfig, RawConfig.ofJson raw.toJson = .ok raw) ∧
      Config.ofJson immense.toJson = .ok immense :=
  ⟨built_immense, reads_back.1, reads_back.2 immense built_immense⟩

end Config

end StatePool
