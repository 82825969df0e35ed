import StatePool.Event

/-!
What an observer of a pool can tell from its events alone.

A replica follows the events one by one.  A ledger is a replica that also keeps when a state was
checked out last, and that takes no state for a new one twice.
-/

namespace StatePool

structure Replica where
  /-- The states that wait, as a stack. -/
  idle : List StateId := []
  out : List StateId := []
  status : Status := .ready
  /-- How many checkouts were seen. -/
  total : Nat := 0
  deriving DecidableEq, Repr

/-- Follows one event, unless it cannot have happened. -/
def Replica.follow (replica : Replica) : Event → Option Replica
  | .created id => some { replica with idle := id :: replica.idle }
  | .acquired id =>
      match replica.idle with
      | [] => none
      | top :: idle =>
          if top = id then
            some { replica with idle, out := id :: replica.out, total := replica.total + 1 }
          else none
  | .released id _ =>
      if id ∈ replica.out then
        some { replica with idle := id :: replica.idle, out := replica.out.erase id }
      else none
  | .cleanedUp id _ =>
      if id ∈ replica.idle then some { replica with idle := replica.idle.erase id }
      else if id ∈ replica.out then some { replica with out := replica.out.erase id }
      else none
  | .poolFull _ => some replica
  | .statusChanged source target =>
      if replica.status = source then some { replica with status := target } else none

def replay (events : List Event) : Option Replica :=
  events.foldlM Replica.follow {}

def Event.isAcquired : Event → Bool
  | .acquired _ => true
  | _ => false

/-! ### Ledgers -/

structure Ledger extends Replica where
  /-- When a state was last checked out. -/
  since : StateId → Int := fun _ => 0
  /-- All states seen so far have smaller numbers. -/
  bound : Nat := 0

namespace Ledger

/-- Enters one stamped event. -/
inductive Entered (ledger : Ledger) : Event × Int → Ledger → Prop
  | created {id : StateId} {instant : Int} (hfresh : ledger.bound ≤ id.number) :
      Entered ledger (.created id, instant)
        { ledger with idle := id :: ledger.idle, bound := id.number + 1 }
  | acquired {id : StateId} {instant : Int} {idle : List StateId}
      (hidle : ledger.idle = id :: idle) :
      Entered ledger (.acquired id, instant)
        { ledger with
          idle
          out := id :: ledger.out
          total := ledger.total + 1
          since := fun other => if other = id then instant else ledger.since other }
  | released {id : StateId} {instant : Int} (hout : id ∈ ledger.out) :
      Entered ledger (.released id (instant - ledger.since id).toNat, instant)
        { ledger with idle := id :: ledger.idle, out := ledger.out.erase id }
  | closedIdle {id : StateId} {reason : CleanupReason} {instant : Int} (hidle : id ∈ ledger.idle) :
      Entered ledger (.cleanedUp id reason, instant)
        { ledger with idle := ledger.idle.erase id }
  | closedOut {id : StateId} {reason : CleanupReason} {instant : Int} (hidle : id ∉ ledger.idle)
      (hout : id ∈ ledger.out) :
      Entered ledger (.cleanedUp id reason, instant) { ledger with out := ledger.out.erase id }
  | poolFull {capacity : Nat} {instant : Int} : Entered ledger (.poolFull capacity, instant) ledger
  | statusChanged {target : Status} {instant : Int} :
      Entered ledger (.statusChanged ledger.status target, instant) { ledger with status := target }

inductive Follows (start : Ledger) : List (Event × Int) → Ledger → Prop
  | nil : Follows start [] start
  | snoc {entries : List (Event × Int)} {entry : Event × Int} {ledger next : Ledger}
      (h : Follows start entries ledger) (entered : Entered ledger entry next) :
      Follows start (entries ++ [entry]) next

variable {start ledger next : Ledger} {entry : Event × Int} {entries rest : List (Event × Int)}

theorem Follows.single (entered : Entered start entry next) : Follows start [entry] next :=
  .snoc .nil entered

theorem Follows.trans (h : Follows start entries ledger) (later : Follows ledger rest next) :
    Follows start (entries ++ rest) next := by
  induction later with
  | nil => rwa [List.append_nil]
  | snoc _ entered ih =>
      rw [← List.append_assoc]
      exact ih.snoc entered

theorem Entered.follow_eq (h : Entered ledger entry next) :
    ledger.toReplica.follow entry.1 = some next.toReplica := by
  cases h with
  | created => rfl
  | acquired hidle => simp [Replica.follow, hidle]
  | released hout => simp [Replica.follow, hout]
  | closedIdle hidle => simp [Replica.follow, hidle]
  | closedOut hidle hout => simp [Replica.follow, hidle, hout]
  | poolFull => rfl
  | statusChanged => simp [Replica.follow]

theorem Follows.foldlM_eq (h : Follows start entries next) :
    (entries.map (·.1)).foldlM Replica.follow start.toReplica = some next.toReplica := by
  induction h with
  | nil => rfl
  | snoc _ entered ih =>
      rw [List.map_append, List.foldlM_append, ih]
      simpa using entered.follow_eq

theorem Follows.total_eq (h : Follows start entries next) :
    next.total = start.total + (entries.map (·.1)).countP Event.isAcquired := by
  induction h with
  | nil => rfl
  | snoc _ entered ih =>
      rw [List.map_append, List.countP_append, ← Nat.add_assoc, ← ih]
      cases entered <;> rfl

/-! ### No state is in two places -/

structure Tidy (ledger : Ledger) : Prop where
  once : ∀ id, ledger.idle.count id + ledger.out.count id ≤ 1
  below : ∀ id, id ∈ ledger.idle ∨ id ∈ ledger.out → id.number < ledger.bound

theorem Tidy.fresh (tidy : ledger.Tidy) {id : StateId} (h : ledger.bound ≤ id.number) :
    id ∉ ledger.idle ∧ id ∉ ledger.out := by
  constructor <;> intro hmem
  · have := tidy.below id (.inl hmem)
    omega
  · have := tidy.below id (.inr hmem)
    omega

theorem Tidy.apart (tidy : ledger.Tidy) {id : StateId} (h : id ∈ ledger.idle) :
    id ∉ ledger.out := by
  have honce := tidy.once id
  have hpos := List.count_pos_iff.2 h
  rw [← List.count_eq_zero]
  omega

theorem Entered.tidy (h : Entered ledger entry next) (tidy : ledger.Tidy) : next.Tidy := by
  cases h with
  | @created id _ hfresh =>
      obtain ⟨hidle, hout⟩ := tidy.fresh hfresh
      refine ⟨fun other => ?_, fun other hother => ?_⟩
      · have honce := tidy.once other
        simp only [List.count_cons, beq_iff_eq]
        split
        · next heq =>
            subst heq
            have hnone := List.count_eq_zero.2 hidle
            have hnot := List.count_eq_zero.2 hout
            omega
        · omega
      · simp only [List.mem_cons] at hother
        rcases hother with (rfl | hother) | hother
        · exact Nat.lt_succ_self _
        · have := tidy.below other (.inl hother)
          simp only
          omega
        · have := tidy.below other (.inr hother)
          simp only
          omega
  | @acquired id _ idle hidle =>
      refine ⟨fun other => ?_, fun other hother => tidy.below other ?_⟩
      · have honce := tidy.once other
        simp only [hidle, List.count_cons] at honce ⊢
        omega
      · simp only [hidle, List.mem_cons] at hother ⊢
        rcases hother with h | h | h
        · exact .inl (.inr h)
        · exact .inl (.inl h)
        · exact .inr h
  | @released id _ hout =>
      refine ⟨fun other => ?_, fun other hother => tidy.below other ?_⟩
      · have honce := tidy.once other
        have hpos := List.count_pos_iff.2 hout
        simp only [List.count_cons, List.count_erase, beq_iff_eq]
        split
        · next heq =>
            subst heq
            omega
        · omega
      · simp only [List.mem_cons] at hother
        rcases hother with (rfl | h) | h
        · exact .inr hout
        · exact .inl h
        · exact .inr (List.mem_of_mem_erase h)
  | @closedIdle id _ _ hidle =>
      refine ⟨fun other => ?_, fun other hother => tidy.below other ?_⟩
      · have honce := tidy.once other
        simp only [List.count_erase]
        omega
      · exact hother.imp_left List.mem_of_mem_erase
  | @closedOut id _ _ hidle hout =>
      refine ⟨fun other => ?_, fun other hother => tidy.below other ?_⟩
      · have honce := tidy.once other
        simp only [List.count_erase]
        omega
      · exact hother.imp_right List.mem_of_mem_erase
  | poolFull => exact tidy
  | statusChanged => exact { tidy with }

end Ledger

end StatePool
