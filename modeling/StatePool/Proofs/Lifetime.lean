import StatePool.Proofs.Replica

/-!
The life of one state, as an observer sees it.

Among the events that a ledger follows, those of a single state form the beginning of a lifetime: it
is created, checked out and given back any number of times, and closed.
-/

namespace StatePool

/-- The events of a state up to the end of a number of checkouts, each given by the instants of its
start and its end. -/
def beginning (id : StateId) (birth : Int) (checkouts : List (Int × Int)) : List (Event × Int) :=
  (.created id, birth) :: checkouts.flatMap fun (start, stop) =>
    [(.acquired id, start), (.released id (stop - start).toNat, stop)]

/-- All events of a state.  A last checkout that was never given back starts at `last`. -/
def lifetime (id : StateId) (birth : Int) (checkouts : List (Int × Int)) (last : Option Int)
    (reason : CleanupReason) (death : Int) : List (Event × Int) :=
  beginning id birth checkouts ++ last.toList.map (fun start => (.acquired id, start)) ++
    [(.cleanedUp id reason, death)]

theorem beginning_concat (id : StateId) (birth : Int) (checkouts : List (Int × Int))
    (start stop : Int) :
    beginning id birth (checkouts ++ [(start, stop)]) =
      beginning id birth checkouts ++
        [(.acquired id, start), (.released id (stop - start).toNat, stop)] := by
  simp [beginning]

/-- The events of one state among stamped events. -/
def historyOf (id : StateId) (entries : List (Event × Int)) : List (Event × Int) :=
  entries.filter fun entry => entry.1.state? = some id

theorem historyOf_concat (id : StateId) (entries : List (Event × Int)) (entry : Event × Int) :
    historyOf id (entries ++ [entry]) =
      historyOf id entries ++ if entry.1.state? = some id then [entry] else [] := by
  unfold historyOf
  rw [List.filter_append]
  congr 1
  split <;> simp_all

namespace Ledger

variable {start ledger next : Ledger} {id : StateId} {entry : Event × Int}
  {entries history : List (Event × Int)}

/-- How far a state has come, by the events that were about it. -/
inductive Course (ledger : Ledger) (id : StateId) : List (Event × Int) → Prop
  | unborn (hidle : id ∉ ledger.idle) (hout : id ∉ ledger.out) : Course ledger id []
  | waiting {birth : Int} {checkouts : List (Int × Int)} (hidle : id ∈ ledger.idle) :
      Course ledger id (beginning id birth checkouts)
  | lent {birth start : Int} {checkouts : List (Int × Int)} (hout : id ∈ ledger.out)
      (hsince : ledger.since id = start) :
      Course ledger id (beginning id birth checkouts ++ [(.acquired id, start)])
  | gone {birth : Int} {checkouts : List (Int × Int)} {last : Option Int} {reason : CleanupReason}
      {death : Int} (hidle : id ∉ ledger.idle) (hout : id ∉ ledger.out)
      (hbound : id.number < ledger.bound) :
      Course ledger id (lifetime id birth checkouts last reason death)

/-- Events about other states leave a state where it is. -/
theorem Course.mono (course : Course ledger id history)
    (hidle : id ∈ next.idle ↔ id ∈ ledger.idle) (hout : id ∈ next.out ↔ id ∈ ledger.out)
    (hsince : next.since id = ledger.since id) (hbound : ledger.bound ≤ next.bound) :
    Course next id history := by
  cases course with
  | unborn hidle' hout' => exact .unborn (mt hidle.1 hidle') (mt hout.1 hout')
  | waiting hidle' => exact .waiting (hidle.2 hidle')
  | lent hout' hstart => exact .lent (hout.2 hout') (hsince.trans hstart)
  | gone hidle' hout' hbound' =>
      exact .gone (mt hidle.1 hidle') (mt hout.1 hout') (Nat.lt_of_lt_of_le hbound' hbound)

theorem Course.waiting_of_mem (course : Course ledger id history) (tidy : ledger.Tidy)
    (hidle : id ∈ ledger.idle) : ∃ birth checkouts, history = beginning id birth checkouts := by
  cases course with
  | unborn hidle' => exact absurd hidle hidle'
  | waiting => exact ⟨_, _, rfl⟩
  | lent hout => exact absurd hout (tidy.apart hidle)
  | gone hidle' => exact absurd hidle hidle'

theorem Course.lent_of_mem (course : Course ledger id history) (tidy : ledger.Tidy)
    (hout : id ∈ ledger.out) :
    ∃ birth checkouts,
      history = beginning id birth checkouts ++ [(.acquired id, ledger.since id)] := by
  cases course with
  | unborn _ hout' => exact absurd hout hout'
  | waiting hidle => exact absurd hout (tidy.apart hidle)
  | lent _ hstart => exact ⟨_, _, by rw [hstart]⟩
  | gone _ hout' => exact absurd hout hout'

theorem not_mem_erase_of_count_le {ids : List StateId} (h : ids.count id ≤ 1) :
    id ∉ ids.erase id := by
  rw [← List.count_eq_zero, List.count_erase_self]
  omega

theorem Entered.course_self (h : Entered ledger entry next) (tidy : ledger.Tidy)
    (course : Course ledger id history) (hid : entry.1.state? = some id) :
    Course next id (history ++ [entry]) := by
  have honce := tidy.once id
  cases h with
  | @created _ instant hfresh =>
      cases hid
      obtain ⟨hidle, hout⟩ := tidy.fresh hfresh
      cases course with
      | unborn =>
          have heq : [] ++ [(Event.created id, instant)] = beginning id instant [] := rfl
          rw [heq]
          exact .waiting List.mem_cons_self
      | waiting hidle' => exact absurd hidle' hidle
      | lent hout' => exact absurd hout' hout
      | gone _ _ hbound => omega
  | acquired hidle =>
      cases hid
      obtain ⟨birth, checkouts, rfl⟩ := course.waiting_of_mem tidy (by simp [hidle])
      exact .lent List.mem_cons_self (if_pos rfl)
  | released hout =>
      cases hid
      obtain ⟨birth, checkouts, rfl⟩ := course.lent_of_mem tidy hout
      rw [List.append_assoc, List.singleton_append, ← beginning_concat]
      exact .waiting List.mem_cons_self
  | @closedIdle _ reason instant hidle =>
      cases hid
      obtain ⟨birth, checkouts, rfl⟩ := course.waiting_of_mem tidy hidle
      have heq : beginning id birth checkouts ++ [(.cleanedUp id reason, instant)] =
          lifetime id birth checkouts none reason instant := by
        simp [lifetime]
      rw [heq]
      exact .gone (not_mem_erase_of_count_le (by omega)) (tidy.apart hidle)
        (tidy.below id (.inl hidle))
  | @closedOut _ reason instant hidle hout =>
      cases hid
      obtain ⟨birth, checkouts, rfl⟩ := course.lent_of_mem tidy hout
      have heq : beginning id birth checkouts ++ [(.acquired id, ledger.since id)] ++
          [(.cleanedUp id reason, instant)] =
          lifetime id birth checkouts (some (ledger.since id)) reason instant := rfl
      rw [heq]
      exact .gone hidle (not_mem_erase_of_count_le (by omega)) (tidy.below id (.inr hout))
  | poolFull | statusChanged => cases hid

theorem Entered.course_other (h : Entered ledger entry next) (course : Course ledger id history)
    (hid : entry.1.state? ≠ some id) : Course next id history := by
  cases h with
  | created hfresh =>
      have hne : ¬ id = _ := fun heq => hid (congrArg some heq.symm)
      refine course.mono ?_ .rfl rfl (by simp only; omega)
      simp [hne]
  | acquired hidle =>
      have hne : ¬ id = _ := fun heq => hid (congrArg some heq.symm)
      refine course.mono ?_ ?_ (if_neg hne) (Nat.le_refl _) <;> simp [hne, hidle]
  | released hout =>
      have hne : ¬ id = _ := fun heq => hid (congrArg some heq.symm)
      refine course.mono ?_ ?_ rfl (Nat.le_refl _)
      · simp [hne]
      · exact List.mem_erase_of_ne hne
  | closedIdle hidle =>
      have hne : ¬ id = _ := fun heq => hid (congrArg some heq.symm)
      exact course.mono (List.mem_erase_of_ne hne) .rfl rfl (Nat.le_refl _)
  | closedOut hidle hout =>
      have hne : ¬ id = _ := fun heq => hid (congrArg some heq.symm)
      exact course.mono .rfl (List.mem_erase_of_ne hne) rfl (Nat.le_refl _)
  | poolFull => exact course
  | statusChanged => exact course.mono .rfl .rfl rfl (Nat.le_refl _)

theorem Follows.course (h : Follows {} entries ledger) (id : StateId) :
    ledger.Tidy ∧ Course ledger id (historyOf id entries) := by
  induction h with
  | nil => exact ⟨⟨fun _ => Nat.zero_le _, nofun⟩, .unborn nofun nofun⟩
  | @snoc entries entry _ _ _ entered ih =>
      obtain ⟨tidy, course⟩ := ih
      refine ⟨entered.tidy tidy, ?_⟩
      rw [historyOf_concat]
      by_cases hid : entry.1.state? = some id
      · rw [if_pos hid]
        exact entered.course_self tidy course hid
      · rw [if_neg hid, List.append_nil]
        exact entered.course_other course hid

/-- Wherever a state has come, it is at the beginning of a lifetime. -/
theorem Course.isPrefix (course : Course ledger id history) :
    ∃ birth checkouts last reason death,
      history <+: lifetime id birth checkouts last reason death := by
  cases course with
  | unborn => exact ⟨0, [], none, .shutdown, 0, List.nil_prefix⟩
  | @waiting birth checkouts =>
      refine ⟨birth, checkouts, none, .shutdown, 0, ?_⟩
      unfold lifetime
      rw [List.append_assoc]
      exact List.prefix_append _ _
  | @lent birth start checkouts =>
      exact ⟨birth, checkouts, some start, .shutdown, 0, List.prefix_append _ _⟩
  | gone => exact ⟨_, _, _, _, _, List.prefix_rfl⟩

end Ledger

end StatePool
