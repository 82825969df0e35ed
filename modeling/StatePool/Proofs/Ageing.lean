import StatePool.Proofs.Inheritance

/-!
How old a state gets.

Idle timeouts and ages are counted in whole seconds, so a state is retired in the second that follows
its timeout.  Ages are signed numbers of 64 bits and timeouts are not: one of 2^63 seconds or more is
taken for a negative number, and states that should live on for ever are too old from the start.
-/

namespace StatePool

namespace Clock

theorem wholeSeconds_bounds (ms : Int) :
    1000 * wholeSeconds ms ≤ ms ∧ ms < 1000 * wholeSeconds ms + 1000 := by
  rw [wholeSeconds, Int.fdiv_eq_ediv_of_nonneg ms (by omega)]
  omega

end Clock

namespace LuaState

variable {state : LuaState} {now : Int}

/-- An age in whole seconds is off by less than a second. -/
theorem lt_age_bounds (state : LuaState) (now seconds : Int) :
    (seconds < state.age now → 1000 * seconds < now - state.createdAt) ∧
      (1000 * (seconds + 1) ≤ now - state.createdAt → seconds < state.age now) := by
  have hnow := Clock.wholeSeconds_bounds now
  have hborn := Clock.wholeSeconds_bounds state.createdAt
  unfold age
  omega

theorem age_nonneg (h : state.createdAt ≤ now) : 0 ≤ state.age now := by
  have hnow := Clock.wholeSeconds_bounds now
  have hborn := Clock.wholeSeconds_bounds state.createdAt
  unfold age
  omega

/-- A number beyond the signed ones is taken for the one that is 2^64 less. -/
theorem signedSeconds_of_ge {seconds : Nat} (h : Nat.pow 2 63 ≤ seconds)
    (hfits : seconds < Nat.pow 2 64) : signedSeconds seconds = seconds - Nat.pow 2 64 := by
  have hhalf : Nat.pow 2 63 = 9223372036854775808 := rfl
  have hwhole : Nat.pow 2 64 = 18446744073709551616 := rfl
  have hmod : (seconds : Int) % ((Nat.pow 2 64 : Nat) : Int) = seconds :=
    Int.emod_eq_of_lt (by omega) (by omega)
  unfold signedSeconds
  rw [Int.bmod_def, hmod, if_neg (by omega)]

end LuaState

/-! ### Timeouts -/

namespace IdleTimeout

def nominal (timeout : IdleTimeout) : Nat :=
  timeout.count.toNatClampNeg * timeout.unit.length

theorem seconds_eq {timeout : IdleTimeout} (h : 0 < timeout.count) :
    timeout.seconds = min timeout.nominal (Nat.pow 2 64 - 1) := by
  have hpos : ¬ timeout.count ≤ 0 := Int64.not_le.2 h
  simp only [seconds, secondsOf, if_neg hpos, nominal]

theorem nominal_pos {timeout : IdleTimeout} (h : 0 < timeout.count) : 0 < timeout.nominal := by
  refine Nat.mul_pos ?_ ?_
  · have hcount := Int64.lt_iff_toInt_lt.1 h
    rw [Int64.toInt_zero] at hcount
    rw [Int64.toNatClampNeg]
    omega
  · cases timeout.unit <;> decide

end IdleTimeout

/-- A configuration without a request budget, and with an idle timeout of a number of seconds; its
interpreter options may be any. -/
inductive Config.Idles : Config → Nat → Prop
  | ofPolicy {capacity seeds budget requestTimeout : Int64} {text : String} {config : Config}
      {timeout : IdleTimeout}
      (h : Config.ofPolicy capacity seeds budget requestTimeout text = .ok config)
      (hread : IdleTimeout.read text = .ok timeout) (hcount : 0 < timeout.count)
      (hbudget : config.budget = 0) (options : StateOptions) :
      Idles (config.withStateOptions options) timeout.nominal

namespace Config

variable {config : Config} {seconds : Nat}

theorem Idles.seconds_pos (idles : config.Idles seconds) : 0 < seconds := by
  cases idles with
  | ofPolicy _ _ hcount => exact IdleTimeout.nominal_pos hcount

theorem Idles.idleSeconds_eq (idles : config.Idles seconds) :
    config.budget = 0 ∧ config.idleSeconds = min seconds (Nat.pow 2 64 - 1) := by
  cases idles with
  | ofPolicy h hread hcount hbudget =>
      refine ⟨hbudget, ?_⟩
      simp only [Config.ofPolicy, hread] at h
      cases h
      exact IdleTimeout.seconds_eq hcount

/-- The number that ages are compared with. -/
def threshold (seconds : Nat) : Int :=
  if seconds < Nat.pow 2 63 then seconds else min seconds (Nat.pow 2 64 - 1) - Nat.pow 2 64

theorem Idles.mustTerminate_eq (idles : config.Idles seconds) {state : LuaState}
    (limited : state.Limited config) {clock : Clock} {now : Int} (hclock : clock.now = .ok now) :
    state.mustTerminate clock = .ok (threshold seconds < state.age now) := by
  obtain ⟨hbudget, hseconds⟩ := idles.idleSeconds_eq
  have hpos := idles.seconds_pos
  have hwhole : Nat.pow 2 64 = 18446744073709551616 := rfl
  have hhalf : Nat.pow 2 63 = 9223372036854775808 := rfl
  have hidle : state.idleSeconds = min seconds (Nat.pow 2 64 - 1) :=
    limited.idleSeconds_eq.trans hseconds
  have hsigned : LuaState.signedSeconds state.idleSeconds = threshold seconds := by
    unfold threshold
    split
    · next hlt =>
        rw [hidle, Nat.min_eq_left (by omega), LuaState.signedSeconds_of_lt hlt]
    · next hge =>
        rw [hidle, LuaState.signedSeconds_of_ge (by omega) (by omega)]
  rw [LuaState.mustTerminate_of_idle (limited.budget_eq.trans hbudget) (by omega) hclock, hsigned]

structure Retires (config : Config) (seconds : Nat) : Prop where
  limited : ∀ hook root world spared sys,
    (System.make config hook root world).Meanwhile spared sys →
      ∀ state ∈ sys.lodgers, state.Limited config
  judged : ∀ (state : LuaState) (clock : Clock) (now : Int), state.Limited config →
    clock.now = .ok now → state.mustTerminate clock = .ok (threshold seconds < state.age now)
  never_early : seconds < Nat.pow 2 63 → ∀ (state : LuaState) (clock : Clock) (now : Int),
    state.Limited config → clock.now = .ok now → state.mustTerminate clock = .ok true →
      1000 * seconds < now - state.createdAt
  never_late : seconds < Nat.pow 2 63 → ∀ (state : LuaState) (clock : Clock) (now : Int),
    state.Limited config → clock.now = .ok now →
      1000 * (seconds + 1) ≤ now - state.createdAt → state.mustTerminate clock = .ok true
  /-- A shorter timeout would have retired the state as well. -/
  lengthened : seconds < Nat.pow 2 63 → ∀ (other : Config) (fewer : Nat), other.Idles fewer →
    fewer ≤ seconds → ∀ (state twin : LuaState) (clock : Clock) (now : Int),
      state.Limited config → twin.Limited other → twin.createdAt = state.createdAt →
        clock.now = .ok now → state.mustTerminate clock = .ok true →
          twin.mustTerminate clock = .ok true
  /-- A timeout beyond the signed seconds retires every state that was not born in the future. -/
  overlong : Nat.pow 2 63 ≤ seconds → ∀ (state : LuaState) (clock : Clock) (now : Int),
    state.Limited config → clock.now = .ok now → state.createdAt ≤ now →
      state.mustTerminate clock = .ok true

theorem threshold_of_lt (h : seconds < Nat.pow 2 63) : threshold seconds = seconds :=
  if_pos h

theorem threshold_of_ge (h : Nat.pow 2 63 ≤ seconds) : threshold seconds < 0 := by
  have hwhole : Nat.pow 2 64 = 18446744073709551616 := rfl
  rw [threshold, if_neg (by omega)]
  omega

theorem Idles.mustTerminate_iff (idles : config.Idles seconds) {state : LuaState}
    (limited : state.Limited config) {clock : Clock} {now : Int} (hclock : clock.now = .ok now) :
    state.mustTerminate clock = .ok true ↔ threshold seconds < state.age now := by
  rw [idles.mustTerminate_eq limited hclock, Except.ok.injEq, decide_eq_true_eq]

theorem idles_retires (idles : config.Idles seconds) : config.Retires seconds where
  limited hook root world spared sys h :=
    fun _ => (System.uniform_made hook root world h).limited.of_lodger
  judged state clock now limited hclock := idles.mustTerminate_eq limited hclock
  never_early hlt state clock now limited hclock h := by
    rw [idles.mustTerminate_iff limited hclock, threshold_of_lt hlt] at h
    exact (state.lt_age_bounds now seconds).1 h
  never_late hlt state clock now limited hclock h := by
    rw [idles.mustTerminate_iff limited hclock, threshold_of_lt hlt]
    exact (state.lt_age_bounds now seconds).2 h
  lengthened hlt other fewer shorter hle state twin clock now limited limited' hborn hclock h := by
    have hage : twin.age now = state.age now := by rw [LuaState.age, LuaState.age, hborn]
    rw [idles.mustTerminate_iff limited hclock, threshold_of_lt hlt] at h
    rw [shorter.mustTerminate_iff limited' hclock, threshold_of_lt (Nat.lt_of_le_of_lt hle hlt),
      hage]
    omega
  overlong hge state clock now limited hclock hborn := by
    rw [idles.mustTerminate_iff limited hclock]
    exact Int.lt_of_lt_of_le (threshold_of_ge hge) (LuaState.age_nonneg hborn)

theorem idles_small : small.Idles 3600 := by
  have hread : IdleTimeout.read "1h" = .ok ⟨1, .hours⟩ := rfl
  exact .ofPolicy ofPolicy_small hread (by decide) rfl {}

theorem small_retires : small.Idles 3600 ∧ small.Retires 3600 :=
  ⟨idles_small, idles_retires idles_small⟩

/-- States are to wait for 292 billion years. -/
def enduring : Config :=
  { Config.default with idleTimeout := "106751991167301d", idleSeconds := 9223372036854806400 }

theorem idles_enduring : enduring.Idles 9223372036854806400 := by
  have hread : IdleTimeout.read "106751991167301d" = .ok ⟨106751991167301, .days⟩ := rfl
  have h : Config.ofPolicy 0 1 0 120 "106751991167301d" = .ok enduring := by
    simp [Config.ofPolicy, hread, enduring, Config.default]
    decide
  exact .ofPolicy h hread (by decide) rfl {}

/-- A state may be retired before its idle timeout is over. -/
theorem not_retired_late :
    ¬ ∀ (config : Config) (seconds : Nat), config.Idles seconds →
      ∀ hook root world sys, (System.make config hook root world).Meanwhile [] sys →
        ∀ state ∈ sys.lodgers, ∀ now, sys.site.world.clock.now = .ok now →
          state.mustTerminate sys.site.world.clock = .ok true →
            1000 * seconds < now - state.createdAt := by
  intro late
  let sys := (System.make enduring none ⟨0⟩ System.clean).run [.advance 0, .advance 0]
  have h : (System.make enduring none ⟨0⟩ System.clean).Meanwhile [] sys :=
    .act (.act .refl rfl rfl) rfl rfl
  obtain ⟨state, hstate, hjudged, hborn⟩ : ∃ state ∈ sys.lodgers,
      state.mustTerminate sys.site.world.clock = .ok true ∧
        state.createdAt = sys.site.world.clock.wall :=
    ⟨_, List.mem_cons_self, rfl, rfl⟩
  have hclock : sys.site.world.clock.now = .ok sys.site.world.clock.wall := rfl
  have := late enduring _ idles_enduring none ⟨0⟩ System.clean sys h state hstate _ hclock hjudged
  omega

end Config

end StatePool
