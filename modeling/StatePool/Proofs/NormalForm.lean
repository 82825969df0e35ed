import StatePool.Proofs.Numerals
import StatePool.Proofs.Policy

/-!
The normal form of configurations.

A configuration in normal form is the policy of some raw one with nothing left to correct, and its
idle timeout is the canonical text of the seconds it stands for.  So reading its own numbers and its
own text once more changes nothing.
-/

namespace StatePool

namespace Limits

theorem not_ofNat_neg {n : Nat} (h : n < Nat.pow 2 63) : ¬ Int64.ofNat n < 0 :=
  Int64.not_lt.2 (Int64.zero_le_ofNat_of_lt h)

theorem orDefault_lt {default : Nat} (h : default < Nat.pow 2 63) (n : Int64) :
    orDefault default n < Nat.pow 2 63 := by
  unfold orDefault
  split
  · exact h
  · exact n.toNatClampNeg_lt

theorem orDefault_ofNat (default : Nat) {n : Nat} (h : n < Nat.pow 2 63) :
    orDefault default (Int64.ofNat n) = n := by
  rw [orDefault, if_neg (not_ofNat_neg h), Int64.toNatClampNeg_ofNat_of_lt h]

theorem seeds_pos (capacity : Nat) (n : Int64) : 0 < seeds capacity n := by
  have hpositive (h : ¬ n ≤ 0) : 0 < n.toNatClampNeg :=
    n.toNatClampNeg_pos_iff.2 (Int64.not_le.1 h)
  unfold seeds defaultSeeds
  split
  · split
    · exact Nat.one_pos
    · next h => exact hpositive h
  · split
    · exact Nat.succ_pos _
    · next h => exact hpositive fun hle => h (.inl hle)

theorem seeds_lt {capacity : Nat} (h : capacity < Nat.pow 2 63) (n : Int64) :
    seeds capacity n < Nat.pow 2 63 := by
  have hlt := n.toNatClampNeg_lt
  have hhalf : Nat.pow 2 63 = 9223372036854775808 := rfl
  unfold seeds defaultSeeds
  split
  · split <;> omega
  · split <;> omega

/-- A number of seeds that fits is kept. -/
theorem seeds_ofNat {capacity n : Nat} (h : n < Nat.pow 2 63) (hpos : 0 < n)
    (hle : 0 < capacity → n ≤ capacity) : seeds capacity (Int64.ofNat n) = n := by
  have hvalue := Int64.toNatClampNeg_ofNat_of_lt h
  have hsign : ¬ Int64.ofNat n ≤ 0 := by
    rw [Int64.not_le, ← Int64.toNatClampNeg_pos_iff, hvalue]
    exact hpos
  simp only [seeds, hsign, hvalue, ↓reduceIte, false_or]
  split
  · rfl
  · next hcapacity =>
      have := hle (Nat.pos_of_ne_zero hcapacity)
      rw [if_neg (by omega)]

end Limits

namespace IdleTimeout

theorem split?_append {front : List Char} (h : front ≠ []) (unit : TimeUnit) :
    split? (front ++ [unit.letter]) = some (front, unit) := by
  have hreverse : (front ++ [unit.letter]).reverse = unit.letter :: front.reverse := by simp
  unfold split?
  rw [hreverse]
  cases hfront : front.reverse with
  | nil => exact absurd (List.reverse_eq_nil_iff.1 hfront) h
  | cons c rest =>
      simp only [TimeUnit.ofLetter?_letter, Option.map_some, ← hfront, List.reverse_reverse]

/-- The canonical text of a timeout is read back. -/
theorem read_text {timeout : IdleTimeout} (h : 0 ≤ timeout.count) :
    read (String.ofList timeout.text) = .ok timeout := by
  have hvalue : Int64.ofInt timeout.count.toNatClampNeg = timeout.count := by
    rw [Int64.ofInt_eq_ofNat, Int64.ofNat_toNatClampNeg _ h]
  have hdigits := Text.readInt64_toDigits timeout.count.toNatClampNeg_lt
  simp only [read, String.toList_ofList, text, split?_append Nat.toDigits_ne_nil, hdigits, hvalue,
    Int64.not_lt.2 h, ↓reduceIte]

/-- A negative number is never left. -/
theorem count_of_read {text : String} {timeout : IdleTimeout} (h : read text = .ok timeout) :
    0 ≤ timeout.count := by
  unfold read at h
  split at h
  · cases h
  · split at h
    · cases h
    · next n hn =>
        cases h
        simp only
        split
        · decide
        · next hsign => exact Int64.not_lt.1 hsign

end IdleTimeout

namespace Config

structure Normal (config : Config) : Prop where
  capacity_lt : config.capacity < Nat.pow 2 63
  seeds_pos : 0 < config.seeds
  seeds_lt : config.seeds < Nat.pow 2 63
  seeds_le : 0 < config.capacity → config.seeds ≤ config.capacity
  budget_lt : config.budget < Nat.pow 2 63
  requestTimeout_lt : config.requestTimeout < Nat.pow 2 63
  idle_eq : ∃ timeout : IdleTimeout, 0 ≤ timeout.count ∧
    config.idleTimeout = String.ofList timeout.text ∧ config.idleSeconds = timeout.seconds

theorem Built.normal {config : Config} (h : config.Built) : config.Normal := by
  induction h with
  | @ofPolicy capacity seeds budget requestTimeout idleTimeout config h =>
      unfold Config.ofPolicy at h
      split at h
      · cases h
      · next timeout hread =>
          cases h
          have hcapacity := Limits.orDefault_lt (by decide : Limits.defaultCapacity < _) capacity
          exact
            { capacity_lt := hcapacity
              seeds_pos := Limits.seeds_pos _ _
              seeds_lt := Limits.seeds_lt hcapacity _
              seeds_le := Limits.seeds_le _
              budget_lt := Limits.orDefault_lt (by decide) budget
              requestTimeout_lt := Limits.orDefault_lt (by decide) requestTimeout
              idle_eq := ⟨timeout, IdleTimeout.count_of_read hread, rfl, rfl⟩ }
  | default =>
      exact
        { capacity_lt := by decide
          seeds_pos := by decide
          seeds_lt := by decide
          seeds_le := by decide
          budget_lt := by decide
          requestTimeout_lt := by decide
          idle_eq := ⟨⟨1, .hours⟩, by decide, by decide, by decide⟩ }
  | withStateOptions _ options ih => exact { ih with }

/-- The raw policy that says what a configuration says. -/
def toRaw (config : Config) : RawConfig where
  capacity := .ofNat config.capacity
  seeds := .ofNat config.seeds
  budget := .ofNat config.budget
  requestTimeout := .ofNat config.requestTimeout
  idleTimeout := config.idleTimeout
  stateOptions := config.stateOptions

theorem Normal.ofRaw_toRaw {config : Config} (normal : config.Normal) :
    ofRaw config.toRaw = .ok config := by
  obtain ⟨timeout, hcount, htext, hseconds⟩ := normal.idle_eq
  have hcapacity : Limits.capacity (Int64.ofNat config.capacity) = config.capacity :=
    Limits.orDefault_ofNat _ normal.capacity_lt
  have hseeds := Limits.seeds_ofNat normal.seeds_lt normal.seeds_pos normal.seeds_le
  have hbudget : Limits.budget (Int64.ofNat config.budget) = config.budget :=
    Limits.orDefault_ofNat _ normal.budget_lt
  have hrequest : Limits.requestTimeout (Int64.ofNat config.requestTimeout) =
      config.requestTimeout :=
    Limits.orDefault_ofNat _ normal.requestTimeout_lt
  simp only [ofRaw, toRaw, ofPolicy, htext, IdleTimeout.read_text hcount, hcapacity, hseeds,
    hbudget, hrequest, ← hseconds]
  simp only [withStateOptions, ← htext]

/-- The normal form says just which configurations callers can have. -/
theorem built_iff_normal {config : Config} : config.Built ↔ config.Normal :=
  ⟨Built.normal, fun normal => Built.ofRaw normal.ofRaw_toRaw⟩

/-- A configuration that is left as it is when it is normalized once more. -/
structure Settled (config : Config) : Prop where
  seeds_pos : 1 ≤ config.seeds
  seeds_le : 0 < config.capacity → config.seeds ≤ config.capacity
  capacity_lt : config.capacity < Nat.pow 2 63
  seeds_lt : config.seeds < Nat.pow 2 63
  budget_lt : config.budget < Nat.pow 2 63
  requestTimeout_lt : config.requestTimeout < Nat.pow 2 63
  idle_read : ∃ timeout, IdleTimeout.read config.idleTimeout = .ok timeout ∧
    config.idleSeconds = IdleTimeout.secondsOf timeout.count (some timeout.unit)
  renewed : (ofPolicy (.ofNat config.capacity) (.ofNat config.seeds) (.ofNat config.budget)
    (.ofNat config.requestTimeout) config.idleTimeout).map
      (fun normal => normal.withStateOptions config.stateOptions) = .ok config

theorem Normal.settled {config : Config} (normal : config.Normal) : config.Settled where
  seeds_pos := normal.seeds_pos
  seeds_le := normal.seeds_le
  capacity_lt := normal.capacity_lt
  seeds_lt := normal.seeds_lt
  budget_lt := normal.budget_lt
  requestTimeout_lt := normal.requestTimeout_lt
  idle_read := by
    obtain ⟨timeout, hcount, htext, hseconds⟩ := normal.idle_eq
    exact ⟨timeout, htext ▸ IdleTimeout.read_text hcount, hseconds⟩
  renewed := by
    have hraw := normal.ofRaw_toRaw
    unfold ofRaw at hraw
    split at hraw
    · cases hraw
    · next renewed hrenewed =>
        have hpolicy : ofPolicy (.ofNat config.capacity) (.ofNat config.seeds)
            (.ofNat config.budget) (.ofNat config.requestTimeout) config.idleTimeout =
              .ok renewed := hrenewed
        rw [hpolicy]
        exact hraw

/-- Normalizing is done once: whatever the policy was and whatever options were put in since then,
a configuration is in normal form, and its own numbers and text lead back to it. -/
theorem normalized_once :
    (∀ raw config, ofRaw raw = .ok config → config.Built) ∧
      (∀ text config, ofJson text = .ok config → config.Built) ∧
      ∀ config : Config, config.Built → config.Settled :=
  ⟨fun _ _ => Built.ofRaw, fun _ _ => Built.ofJson, fun _ h => h.normal.settled⟩

/-- Too many seeds, and a timeout that is not written as it should be. -/
def untidy : RawConfig where
  capacity := 5
  seeds := 9
  budget := -3
  requestTimeout := -1
  idleTimeout := "+007m"
  stateOptions := { memoryLimit := 65536 }

def tidied : Config where
  capacity := 5
  seeds := 3
  budget := 0
  idleTimeout := "7m"
  idleSeconds := 420
  requestTimeout := 120
  stateOptions := { memoryLimit := 65536 }

theorem ofRaw_untidy : ofRaw untidy = .ok tidied := by
  have hread : IdleTimeout.read untidy.idleTimeout = .ok ⟨7, .minutes⟩ := rfl
  simp only [ofRaw, ofPolicy, hread, Except.ok.injEq]
  decide

theorem tidied_settled : ofRaw untidy = .ok tidied ∧ tidied.Built ∧ tidied.Settled := by
  have hbuilt := normalized_once.1 untidy tidied ofRaw_untidy
  exact ⟨ofRaw_untidy, hbuilt, normalized_once.2.2 tidied hbuilt⟩

end Config

end StatePool
