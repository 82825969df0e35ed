import StatePool.Proofs.Chronicle
import StatePool.Proofs.Slots

/-!
What goes on in a pool while somebody works on one of its states.

All others may use the pool meanwhile, and the world goes on; only the state itself they let alone,
as they cannot reach it.  So it is still there when the work is over, and nothing was told about it.
-/

namespace StatePool

/-- An action that leaves some states to their holders. -/
def Action.spares (spared : List StateId) : Action → Bool
  | .touch .pool id _ | .part .pool id _ => id ∉ spared
  | _ => true

theorem Action.spares_nil (action : Action) : action.spares [] = true := by
  cases action with
  | touch origin id touch => cases origin <;> rfl
  | part origin id parting => cases origin <;> rfl
  | _ => rfl

theorem Action.spares_mono {spared fewer : List StateId} {action : Action}
    (spares : action.spares spared = true) (h : ∀ id ∈ fewer, id ∈ spared) :
    action.spares fewer = true := by
  cases action with
  | touch origin id touch =>
      cases origin with
      | pool =>
          simp only [Action.spares, decide_eq_true_eq] at spares ⊢
          exact mt (h id) spares
      | caller => rfl
  | part origin id parting =>
      cases origin with
      | pool =>
          simp only [Action.spares, decide_eq_true_eq] at spares ⊢
          exact mt (h id) spares
      | caller => rfl
  | _ => rfl

namespace System

/-- What can come of a system while honest callers use it that spare some states. -/
inductive Meanwhile (spared : List StateId) (sys : System) : System → Prop
  | refl : Meanwhile spared sys sys
  | act {mid : System} (h : Meanwhile spared sys mid) {action : Action}
      (honest : action.honest = true) (spares : action.spares spared = true) :
      Meanwhile spared sys (mid.step action).2
  /-- The world goes on. -/
  | stir {mid : System} (h : Meanwhile spared sys mid) {world : World}
      (hstates : mid.site.world.states ≤ world.states) :
      Meanwhile spared sys (mid.withWorld world)

variable {sys mid next later : System} {spared fewer : List StateId}

theorem Meanwhile.trans (h : sys.Meanwhile spared mid) (later : mid.Meanwhile spared next) :
    sys.Meanwhile spared next := by
  induction later with
  | refl => exact h
  | act _ honest spares ih => exact ih.act honest spares
  | stir _ hstates ih => exact ih.stir hstates

theorem Meanwhile.mono (h : sys.Meanwhile spared next) (hfewer : ∀ id ∈ fewer, id ∈ spared) :
    sys.Meanwhile fewer next := by
  induction h with
  | refl => exact .refl
  | act _ honest spares ih => exact ih.act honest (Action.spares_mono spares hfewer)
  | stir _ hstates ih => exact ih.stir hstates

/-- What can come of making a pool and of honest callers, in any world that goes on. -/
def Lived (sys : System) : Prop :=
  ∃ config hook root world, Config.Built config ∧ (make config hook root world).Meanwhile [] sys

theorem Lived.meanwhile (lived : sys.Lived) (h : sys.Meanwhile spared next) : next.Lived := by
  obtain ⟨config, hook, root, world, built, before⟩ := lived
  exact ⟨config, hook, root, world, built, before.trans (h.mono nofun)⟩

theorem Reachable.lived (h : sys.Reachable) : sys.Lived := by
  induction h with
  | made built hook root world => exact ⟨_, hook, root, world, built, .refl⟩
  | @step before h action honest ih =>
      have later : before.Meanwhile [] (before.step action).2 :=
        .act .refl honest action.spares_nil
      exact ih.meanwhile later

theorem Meanwhile.sound (h : sys.Meanwhile spared next) (sound : sys.Sound) : next.Sound := by
  induction h with
  | refl => exact sound
  | act _ honest _ ih => exact { (act_acted ih honest).sound ih with }
  | stir _ hstates ih => exact ih.around rfl (ih.books.withWorld hstates) id

theorem Lived.sound (lived : sys.Lived) : sys.Sound := by
  obtain ⟨config, hook, root, world, built, h⟩ := lived
  exact h.sound (sound_make built hook root world)

theorem Meanwhile.isOpen (h : sys.Meanwhile spared next) (hopen : sys.isOpen = true) :
    next.isOpen = true := by
  induction h with
  | refl => exact hopen
  | @act _ _ action _ _ ih => exact isOpen_act ih action
  | stir _ _ ih => exact ih

/-! ### Spared states -/

theorem Acted.held {action : Action} {answer : Report × System} (h : Acted sys action answer)
    (spares : action.spares spared = true) {state : LuaState} (hid : state.id ∈ spared)
    (hheld : state ∈ sys.held) : state ∈ answer.2.held := by
  have hother {other : LuaState} {rest : List LuaState} (hperm : sys.held.Perm (other :: rest))
      (hspared : other.id ∉ spared) : state ∈ rest := by
    rcases List.mem_cons.1 (hperm.mem_iff.1 hheld) with rfl | h
    · exact absurd hid hspared
    · exact h
  cases h with
  | checkedOut hopen checked =>
      cases checked with
      | refused | full | failed | panicked => exact hheld
      | reused | built => exact List.mem_cons_of_mem _ hheld
  | touched honest hperm heq =>
      subst heq
      simp only [Action.spares, decide_eq_true_eq] at spares
      exact List.mem_cons_of_mem _ (hother hperm spares)
  | parted hopen hperm parted heq =>
      subst heq
      simp only [Action.spares, decide_eq_true_eq] at spares
      exact hother hperm spares
  | stirred | adopted | alienated | configured | called | locked | unlocked | advanced =>
      exact hheld

theorem Meanwhile.held (h : sys.Meanwhile spared next) (sound : sys.Sound) {state : LuaState}
    (hid : state.id ∈ spared) (hheld : state ∈ sys.held) : state ∈ next.held := by
  induction h with
  | refl => exact hheld
  | act before honest spares ih =>
      exact (act_acted (before.sound sound) honest).held spares hid ih
  | stir _ _ ih => exact ih

/-- Nothing is told about a state that is let alone. -/
def Quiet (before after : Pool) (id : StateId) : Prop :=
  ∃ events : List Event, after.journal = before.journal ++ events.toArray ∧
    ∀ event ∈ events, event.state? ≠ some id

theorem Quiet.of_journal_eq {before after : Pool} (h : after.journal = before.journal)
    (id : StateId) : Quiet before after id :=
  ⟨[], by simp [h], nofun⟩

theorem Quiet.trans {before mid after : Pool} {id : StateId} (h : Quiet before mid id)
    (later : Quiet mid after id) : Quiet before after id := by
  obtain ⟨events, hjournal, hevents⟩ := h
  obtain ⟨more, hmore, hlater⟩ := later
  refine ⟨events ++ more, ?_, fun event hevent => ?_⟩
  · apply Array.ext'
    simp [hmore, hjournal]
  · rcases List.mem_append.1 hevent with h | h
    · exact hevents event h
    · exact hlater event h

theorem Quiet.setStatus (pool : Pool) (target : Status) (id : StateId) :
    Quiet pool (pool.setStatus target) id := by
  rcases pool.setStatus_eq target with h | ⟨-, h⟩
  · exact .of_journal_eq (by rw [h]) id
  · rw [h]
    exact ⟨[.statusChanged pool.status target], by simp [Pool.emit], by simp [Event.state?]⟩

/-- The states of a new life are none that was born before. -/
theorem Quiet.revived {pool : Pool} {root : Token} {states : Nat} {born : List LuaState}
    (batch : LuaState.Batch states born) {id : StateId} (hborn : id.number < states) :
    Quiet pool ((pool.revived root).withSeeds born) id := by
  refine ⟨.statusChanged pool.status .running ::
    born.reverse.map fun state => .created state.id, Array.ext' ?_, ?_⟩
  · simp [Pool.withSeeds, Pool.revived, Pool.emit]
  · rintro event hevent heq
    rcases List.mem_cons.1 hevent with rfl | hevent
    · cases heq
    · obtain ⟨state, hstate, rfl⟩ := List.mem_map.1 hevent
      cases heq
      have := batch.mem_range (List.mem_reverse.1 hstate)
      omega

theorem Acted.quiet {action : Action} {answer : Report × System} (h : Acted sys action answer)
    (sound : sys.Sound) (spares : action.spares spared = true) {id : StateId}
    (hid : id ∈ spared) (hout : id ∈ sys.out) :
    Quiet sys.site.pool answer.2.site.pool id := by
  have hwaits {state : LuaState} (hstate : state ∈ sys.site.pool.idle) : state.id ≠ id := by
    rintro rfl
    exact (sound.books.idle_apart hstate).1 hout
  have hborn := sound.books.out_born id hout
  cases h with
  | stirred | adopted | alienated | touched | configured | called | locked | unlocked =>
      exact .of_journal_eq rfl id
  | checkedOut hopen checked =>
      cases checked with
      | refused | failed | panicked => exact .of_journal_eq rfl id
      | full =>
          exact ⟨[.poolFull sys.site.pool.config.capacity], by simp [grant, Site.emit, Pool.emit],
            by simp [Event.state?]⟩
      | @reused state idle _ hidle =>
          have hne : state.id ≠ id := hwaits (by rw [hidle]; exact List.mem_cons_self)
          exact ⟨[.acquired state.id], by simp [grant, Pool.emit], by simpa [Event.state?]⟩
      | @built state world _ _ _ newborn =>
          have hne : state.id ≠ id := by
            rintro rfl
            rw [newborn.id_eq] at hborn
            exact Nat.lt_irrefl _ hborn
          refine ⟨[.created state.id, .acquired state.id], Array.ext' ?_, ?_⟩
          · simp [grant, Pool.emit]
          · simpa [Event.state?]
  | @parted _ _ state _ _ _ hopen hperm parted heq =>
      subst heq
      simp only [Action.spares, decide_eq_true_eq] at spares
      have hne : state.id ≠ id := fun heq => spares (heq ▸ hid)
      cases parted with
      | kept => exact .of_journal_eq rfl id
      | @retired _ reason =>
          exact ⟨[.cleanedUp state.id reason], by simp [takeBack, Pool.emit, Pool.released],
            by simpa [Event.state?]⟩
      | @recycled _ instant =>
          exact ⟨[.released state.id (sys.site.world.clock.since instant)],
            by simp [takeBack, Pool.emit, Pool.released], by simpa [Event.state?]⟩
  | advanced hlock hcall hresult stepped =>
      cases stepped with
      | entered | refused | asleep | looked => exact .of_journal_eq rfl id
      | closed => exact .setStatus sys.site.pool .exiting id
      | sealed => exact .setStatus sys.site.pool .dead id
      | drained =>
          refine ⟨Site.farewells sys.site.pool.idle.reverse, rfl, fun event hevent => ?_⟩
          obtain ⟨state, hstate, rfl⟩ := List.mem_map.1 hevent
          simpa [Event.state?] using hwaits (List.mem_reverse.1 hstate)
      | seeded _ seeded =>
          cases seeded with
          | complete batch | failed batch => exact .revived batch hborn
          | panicked _ batch => exact .revived batch hborn

theorem Meanwhile.quiet (h : sys.Meanwhile spared next) (sound : sys.Sound) {state : LuaState}
    (hid : state.id ∈ spared) (hheld : state ∈ sys.held) :
    Quiet sys.site.pool next.site.pool state.id := by
  induction h with
  | refl => exact .of_journal_eq rfl state.id
  | act before honest spares ih =>
      have hsound := before.sound sound
      have hout := hsound.books.out_of_held (before.held sound hid hheld)
      exact ih.trans ((act_acted hsound honest).quiet hsound spares hid hout)
  | stir _ _ ih => exact ih

end System

/-! ### States that were closed -/

def Event.closes (id : StateId) : Event → Bool
  | .cleanedUp closed _ => closed = id
  | _ => false

def closingsOf (id : StateId) (events : List Event) : List Event :=
  events.filter (Event.closes id)

theorem Event.state_of_closes {id : StateId} {event : Event} (h : event.closes id = true) :
    event.state? = some id := by
  cases event with
  | cleanedUp closed reason =>
      simp only [Event.closes, decide_eq_true_eq] at h
      rw [Event.state?, h]
  | _ => cases h

theorem closingsOf_eq_nil {id : StateId} {events : List Event}
    (h : ∀ event ∈ events, event.state? ≠ some id) : closingsOf id events = [] := by
  rw [closingsOf, List.filter_eq_nil_iff]
  exact fun event hevent hcloses => h event hevent (Event.state_of_closes hcloses)

theorem closingsOf_history (id : StateId) (entries : List (Event × Int)) :
    closingsOf id ((historyOf id entries).map (·.1)) = closingsOf id (entries.map (·.1)) := by
  induction entries with
  | nil => rfl
  | cons entry entries ih =>
      simp only [closingsOf, historyOf] at ih
      by_cases hstate : entry.1.state? = some id
      · simp [closingsOf, historyOf, List.filter_cons, hstate, ih]
      · have hcloses : ¬ entry.1.closes id = true := fun h => hstate (Event.state_of_closes h)
        simp [closingsOf, historyOf, hstate, hcloses, ih]

theorem closingsOf_beginning (id : StateId) (birth : Int) (checkouts : List (Int × Int)) :
    closingsOf id ((beginning id birth checkouts).map (·.1)) = [] := by
  rw [closingsOf, List.filter_eq_nil_iff]
  intro event hevent
  obtain ⟨entry, hentry, rfl⟩ := List.mem_map.1 hevent
  rcases List.mem_cons.1 hentry with rfl | hentry
  · nofun
  · obtain ⟨checkout, -, hentry⟩ := List.mem_flatMap.1 hentry
    simp only [List.mem_cons, List.not_mem_nil, or_false] at hentry
    rcases hentry with rfl | rfl <;> nofun

namespace Ledger

variable {ledger next : Ledger} {id : StateId} {entries : List (Event × Int)}

/-- What the ledger has seen the last of is never entered again. -/
structure Gone (ledger : Ledger) (id : StateId) : Prop where
  idle : id ∉ ledger.idle
  out : id ∉ ledger.out
  bound : id.number < ledger.bound

theorem Entered.gone {entry : Event × Int} (h : Entered ledger entry next) (gone : ledger.Gone id) :
    entry.1.state? ≠ some id ∧ next.Gone id := by
  obtain ⟨hidle, hout, hbound⟩ := gone
  cases h with
  | created hfresh =>
      have hne : id ≠ _ := fun heq => Nat.lt_irrefl _ (Nat.lt_of_lt_of_le hbound (heq ▸ hfresh))
      refine ⟨fun heq => hne (Option.some.inj heq).symm, ?_, hout, ?_⟩
      · simpa using ⟨hne, hidle⟩
      · simp only
        omega
  | acquired hcons =>
      rw [hcons, List.mem_cons, not_or] at hidle
      refine ⟨fun heq => hidle.1 (Option.some.inj heq).symm, hidle.2, ?_, hbound⟩
      simpa using ⟨hidle.1, hout⟩
  | released hmem =>
      have hne : id ≠ _ := fun heq => hout (heq ▸ hmem)
      refine ⟨fun heq => hne (Option.some.inj heq).symm, ?_, ?_, hbound⟩
      · simpa using ⟨hne, hidle⟩
      · exact fun h => hout (List.mem_of_mem_erase h)
  | closedIdle hmem =>
      have hne : id ≠ _ := fun heq => hidle (heq ▸ hmem)
      exact ⟨fun heq => hne (Option.some.inj heq).symm,
        fun h => hidle (List.mem_of_mem_erase h), hout, hbound⟩
  | closedOut _ hmem =>
      have hne : id ≠ _ := fun heq => hout (heq ▸ hmem)
      exact ⟨fun heq => hne (Option.some.inj heq).symm, hidle,
        fun h => hout (List.mem_of_mem_erase h), hbound⟩
  | poolFull => exact ⟨nofun, hidle, hout, hbound⟩
  | statusChanged => exact ⟨nofun, hidle, hout, hbound⟩

theorem Follows.gone (h : Follows ledger entries next) (gone : ledger.Gone id) :
    (∀ entry ∈ entries, entry.1.state? ≠ some id) ∧ next.Gone id := by
  induction h with
  | nil => exact ⟨nofun, gone⟩
  | snoc _ entered ih =>
      obtain ⟨hentries, hgone⟩ := ih
      obtain ⟨hentry, hnext⟩ := entered.gone hgone
      refine ⟨fun entry hmem => ?_, hnext⟩
      rcases List.mem_append.1 hmem with h | h
      · exact hentries entry h
      · rw [List.mem_singleton.1 h]
        exact hentry

end Ledger

namespace System

variable {sys next : System} {ledger : Ledger} {spared : List StateId}

theorem Meanwhile.recounts (h : sys.Meanwhile spared next) (sound : sys.Sound)
    (agrees : ledger.Matches sys) :
    ∃ entries later, next.site.pool.journal.toList =
        sys.site.pool.journal.toList ++ entries.map (·.1) ∧
      ledger.Follows entries later ∧ later.Matches next := by
  induction h with
  | refl => exact ⟨[], ledger, by simp, .nil, agrees⟩
  | act before honest _ ih =>
      obtain ⟨entries, later, hjournal, follows, hmatches⟩ := ih
      have hsound := before.sound sound
      obtain ⟨events, last, hnews, hlast, hagrees⟩ :=
        (act_acted hsound honest).recounts hsound hmatches
      refine ⟨entries ++ stamp _ events, last, ?_, follows.trans hlast, { hagrees with }⟩
      have hsite := congrArg Array.toList hnews
      simp only [Array.toList_append, hjournal] at hsite
      exact hsite.trans (by simp [stamp, Function.comp_def])
  | stir _ hstates ih =>
      obtain ⟨entries, later, hjournal, follows, hmatches⟩ := ih
      exact ⟨entries, later, hjournal, follows,
        { hmatches with bound_le := Nat.le_trans hmatches.bound_le hstates }⟩

theorem Lived.recounts (lived : sys.Lived) :
    ∃ ledger entries, Ledger.Matches ledger sys ∧ Ledger.Follows {} entries ledger ∧
      entries.map (·.1) = sys.site.pool.journal.toList := by
  obtain ⟨config, hook, root, world, built, h⟩ := lived
  have agrees : Ledger.Matches {} (make config hook root world) :=
    ⟨rfl, rfl, rfl, rfl, Nat.zero_le _, nofun⟩
  obtain ⟨entries, later, hjournal, follows, hmatches⟩ :=
    h.recounts (sound_make built hook root world) agrees
  exact ⟨later, entries, hmatches, follows, by simpa [make, Site.idle] using hjournal.symm⟩

theorem Lived.unclosed (lived : sys.Lived) {id : StateId} (hout : id ∈ sys.out) :
    closingsOf id sys.site.pool.journal.toList = [] := by
  obtain ⟨ledger, entries, agrees, follows, hjournal⟩ := lived.recounts
  obtain ⟨tidy, course⟩ := follows.course id
  rw [← agrees.out_eq] at hout
  obtain ⟨birth, checkouts, hhistory⟩ := course.lent_of_mem tidy hout
  rw [← hjournal, ← closingsOf_history, hhistory, List.map_append, closingsOf, List.filter_append]
  exact List.append_eq_nil_iff.2 ⟨closingsOf_beginning id birth checkouts, rfl⟩

theorem Acted.granted_from {action : Action} {answer : Report × System}
    (h : Acted sys action answer) {state : LuaState} (hgrant : answer.1 = .granted state) :
    state.id ∈ sys.site.pool.idle.map (·.id) ∨ state.id.number = sys.site.world.states := by
  have hreport : answer.1.isGrant = true := by rw [hgrant]; rfl
  cases h with
  | checkedOut hopen checked =>
      cases checked with
      | refused | full | failed | panicked => cases hreport
      | reused _ hidle =>
          cases hgrant
          exact .inl (by simp [hidle, LuaState.setServing, LuaState.countRequest])
      | built _ _ _ newborn =>
          cases hgrant
          exact .inr (by simp [newborn.id_eq, LuaState.setServing, LuaState.countRequest])
  | stirred quiet => exact absurd (quiet.isGrant.symm.trans hreport) Bool.false_ne_true
  | parted => exact absurd (Report.isGrant_ofOutcome.symm.trans hreport) Bool.false_ne_true
  | @advanced _ _ next =>
      exact absurd (next.isGrant_report.symm.trans hreport) Bool.false_ne_true
  | adopted | alienated | touched | configured | called | locked | unlocked => cases hreport

/-- A state was closed for a reason, and that was the last of it. -/
structure Dismissed (sys : System) (id : StateId) (reason : CleanupReason) : Prop where
  closed_once : ∀ later, sys.Meanwhile [] later →
    closingsOf id later.site.pool.journal.toList = [.cleanedUp id reason]
  grants : ∀ later, sys.Meanwhile [] later → ∀ action : Action, action.honest = true →
    ∀ state, (later.step action).1 = .granted state → state.id ≠ id
  absent : ∀ later, sys.Meanwhile [] later →
    id ∉ later.out ∧ id ∉ later.site.pool.idle.map (·.id)

theorem Lived.dismissed (lived : sys.Lived) {id : StateId} {reason : CleanupReason}
    (hclosed : closingsOf id sys.site.pool.journal.toList = [.cleanedUp id reason])
    (hout : id ∉ sys.out) (hidle : id ∉ sys.site.pool.idle.map (·.id)) :
    sys.Dismissed id reason := by
  obtain ⟨ledger, entries, agrees, follows, hjournal⟩ := lived.recounts
  obtain ⟨tidy, course⟩ := follows.course id
  rw [← agrees.out_eq] at hout
  rw [← agrees.idle_eq] at hidle
  have gone : ledger.Gone id := by
    rw [← hjournal, ← closingsOf_history] at hclosed
    generalize historyOf id entries = history at course hclosed
    cases course with
    | unborn => cases hclosed
    | waiting hwaits => exact absurd hwaits hidle
    | lent hlent => exact absurd hlent hout
    | gone _ _ hbound => exact ⟨hidle, hout, hbound⟩
  have hlater (later : System) (h : sys.Meanwhile [] later) :
      closingsOf id later.site.pool.journal.toList = [.cleanedUp id reason] ∧
        id ∉ later.out ∧ id ∉ later.site.pool.idle.map (·.id) ∧
        id.number < later.site.world.states := by
    obtain ⟨more, last, hnews, hfollows, hmatches⟩ := h.recounts lived.sound agrees
    obtain ⟨hquiet, hidle', hout', hbound⟩ := hfollows.gone gone
    refine ⟨?_, hmatches.out_eq ▸ hout', hmatches.idle_eq ▸ hidle',
      Nat.lt_of_lt_of_le hbound hmatches.bound_le⟩
    have hnone : closingsOf id (more.map (·.1)) = [] := by
      refine closingsOf_eq_nil fun event hevent => ?_
      obtain ⟨entry, hentry, rfl⟩ := List.mem_map.1 hevent
      exact hquiet entry hentry
    simp only [closingsOf] at hnone hclosed ⊢
    rw [hnews, List.filter_append, hclosed, hnone, List.append_nil]
  refine ⟨fun later h => (hlater later h).1, fun later h action honest state hgrant => ?_,
    fun later h => ⟨(hlater later h).2.1, (hlater later h).2.2.1⟩⟩
  obtain ⟨-, -, hwaits, hbound⟩ := hlater later h
  rintro rfl
  rcases (act_acted (h.sound lived.sound) honest).granted_from hgrant with hmem | hnew
  · exact hwaits hmem
  · omega

end System

end StatePool
