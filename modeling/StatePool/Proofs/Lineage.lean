import StatePool.Proofs.Budget
import StatePool.Proofs.Upkeep

/-!
The tokens of states follow the roots of their lives, and nothing else.

A state is cancelled with the context that its life was started under, or by its holder.  When
states end, nobody else hears of it; and once a root is cancelled, no state that is given back waits
for another request.
-/

namespace StatePool

namespace TokenForest

variable {forest next : TokenForest} {allowed : Token → Prop} {cuts : List Token} {token : Token}

/-- What was there is cancelled if it was so before, or if there was a cut at it or above it. -/
theorem Tended.isCancelled_iff (h : Tended allowed forest cuts next) (tidy : forest.Tidy)
    (hallowed : ∀ token, allowed token → forest.Has token) (hhas : forest.Has token) :
    next.isCancelled token = true ↔
      forest.isCancelled token = true ∨ ∃ cut ∈ cuts, forest.Above cut token := by
  have felled := h.felled tidy.felled hallowed
  rw [felled.cancelled_iff token (h.extends.has hhas)]
  simp only [tidy.above_iff_of_extends h.extends hhas]
  constructor
  · rintro ⟨above, hcancelled | hcut, habove⟩
    · exact .inl (tidy.isCancelled_of_above habove hcancelled)
    · exact .inr ⟨above, hcut, habove⟩
  · rintro (hcancelled | ⟨cut, hcut, habove⟩)
    · exact ⟨token, .inl hcancelled, .refl⟩
    · exact ⟨cut, .inr hcut, habove⟩

end TokenForest

namespace System

variable {sys next : System} {action : Action} {annals : Annals} {gone : List Token}
  {token : Token} {state : LuaState} {id : StateId}

/-! ### States that end -/

/-- Some states end, and nobody else hears of it. -/
structure Ends (sys : System) (ended : List LuaState) (next : System) : Prop where
  cancelled_iff : ∀ token, sys.tokens.Has token → (next.tokens.isCancelled token = true ↔
    sys.tokens.isCancelled token = true ∨ ∃ state ∈ ended, state.token = token)
  contexts : ∀ token, sys.Reserved token →
    next.tokens.isCancelled token = sys.tokens.isCancelled token
  others : ∀ others, sys.population.Perm (ended ++ others) → ∀ other ∈ others,
    next.tokens.isCancelled other.token = sys.tokens.isCancelled other.token

theorem Kin.ends (kin : sys.Kin annals gone) {ended : List LuaState} {cuts : List Token}
    (hmem : ∀ state ∈ ended, state ∈ sys.population)
    (htended : sys.tokens.Tended (fun _ => False) cuts next.tokens)
    (hcuts : ∀ token, token ∈ cuts ↔ ∃ state ∈ ended, state.token = token) :
    sys.Ends ended next := by
  have cancelled_iff (token : Token) (hhas : sys.tokens.Has token) :
      next.tokens.isCancelled token = true ↔
        sys.tokens.isCancelled token = true ∨ ∃ state ∈ ended, state.token = token := by
    rw [htended.isCancelled_iff kin.felled.tidy nofun hhas]
    apply or_congr_right
    constructor
    · rintro ⟨cut, hcut, habove⟩
      obtain ⟨state, hstate, rfl⟩ := (hcuts cut).1 hcut
      exact ⟨state, hstate, habove.eq_of_childless (kin.own state (hmem state hstate)).childless⟩
    · intro h
      exact ⟨token, (hcuts token).2 h, .refl⟩
  have spared (token : Token) (hhas : sys.tokens.Has token)
      (hne : ∀ state ∈ ended, state.token ≠ token) :
      next.tokens.isCancelled token = sys.tokens.isCancelled token := by
    rw [Bool.eq_iff_iff, cancelled_iff token hhas]
    constructor
    · rintro (h | ⟨state, hstate, heq⟩)
      · exact h
      · exact absurd heq (hne state hstate)
    · exact .inl
  refine ⟨cancelled_iff, ?_, ?_⟩
  · intro token h
    refine spared token (kin.reserved_has token h) ?_
    rintro state hstate rfl
    exact (kin.own state (hmem state hstate)).unreserved h
  · intro others hperm other hother
    have hlodger : other ∈ sys.population := hperm.mem_iff.2 (List.mem_append_right _ hother)
    refine spared other.token (kin.own other hlodger).has ?_
    intro state hstate heq
    have honce := kin.once other.token
    rw [(hperm.map (·.token)).count_eq, List.map_append, List.count_append] at honce
    have hpos : 0 < (ended.map (·.token)).count other.token :=
      List.count_pos_iff.2 (List.mem_map.2 ⟨state, hstate, heq⟩)
    have hlater : 0 < (others.map (·.token)).count other.token :=
      List.count_pos_iff.2 (List.mem_map_of_mem hother)
    omega

theorem Kin.ends_of_cancel (kin : sys.Kin annals gone) (hmem : state ∈ sys.population)
    (htokens : next.tokens = sys.tokens.cancel state.token) : sys.Ends [state] next := by
  have htended : sys.tokens.Tended (fun _ => False) [state.token] next.tokens := by
    rw [htokens, ← TokenForest.hits_of_has (kin.own state hmem).has]
    exact .single _ _
  exact kin.ends (by simpa using hmem) htended (by simp [eq_comm])

theorem Kin.ends_of_same (kin : sys.Kin annals gone) (htokens : next.tokens = sys.tokens) :
    sys.Ends [] next := by
  have htended : sys.tokens.Tended (fun _ => False) [] next.tokens := by
    rw [htokens]
    exact .refl
  exact kin.ends nofun htended (by simp)

theorem Kin.returned (kin : sys.Kin annals gone) {origin : Origin} {parting : Parting}
    {rest : List LuaState} (honest : (Action.part origin id parting).honest = true)
    (hopen : sys.isOpen = true) (hpick : pick id (sys.states origin) = some (state, rest)) :
    let next := (sys.step (.part origin id parting)).2
    sys.Ends [state] next ∨ sys.Ends [] next ∧ id ∈ next.site.pool.idle.map (·.id) := by
  intro next
  have hmem := mem_population_of_pick hpick
  cases origin with
  | pool =>
      obtain ⟨hsite, -, -⟩ := step_part hopen hpick parting
      have hnext : next.site = (parting.perform sys.site state).2 := hsite
      have handed := parting.perform_handedBack sys.site state
      rw [← hnext] at handed
      cases handed with
      | severed _ _ hworld =>
          refine .inl (kin.ends_of_cancel hmem ?_)
          rw [tokens, hworld]
          rfl
      | requeued _ hidle hworld =>
          refine .inr ⟨kin.ends_of_same (by rw [tokens, tokens, hworld]), ?_⟩
          rw [hidle, ← (perm_of_pick hpick).1]
          exact List.mem_cons_self
  | caller =>
      simp only [Action.honest, decide_eq_true_eq] at honest
      subst honest
      refine .inl (kin.ends_of_cancel hmem ?_)
      simp only [next, System.step, System.act, ifOpen, hopen, ↓reduceIte, System.part, hpick]
      rfl

theorem Kin.closed (kin : sys.Kin annals gone) {origin : Origin} {rest : List LuaState}
    (hpick : pick id (sys.states origin) = some (state, rest)) :
    sys.Ends [state] (sys.step (.touch origin id .close)).2 := by
  refine kin.ends_of_cancel (mem_population_of_pick hpick) ?_
  simp only [System.step, System.act, System.touch, hpick]
  cases origin <;> rfl

/-- A section of a lifecycle call that begins no life leaves what waits alone, or it closes all of
it. -/
theorem Lived.advance_cases (lived : sys.Lived) {index : Nat}
    (hseeds : sys.seeds (.advance index) = false) :
    let next := (sys.step (.advance index)).2
    next.site.world = sys.site.world ∧ next.site.pool.idle = sys.site.pool.idle ∨
      next.site.world = (Site.closeIdle { sys.site with pool := { sys.site.pool with idle := [] } }
        sys.site.pool.idle.reverse).world ∧ next.site.pool.idle = [] := by
  simp only [System.step, System.act, System.advance]
  split
  · exact .inl ⟨rfl, rfl⟩
  · next run hcall =>
      split
      · next hlock =>
          split
          · exact .inl ⟨rfl, rfl⟩
          · have fared := LifecycleRun.step_fared (lived.sound.fits index run hlock hcall)
            generalize run.step sys.site = answer at fared
            cases fared with
            | still _ _ hidle hworld => exact .inl ⟨hworld, hidle⟩
            | emptied _ _ hidle hworld => exact .inr ⟨hworld, hidle⟩
            | seeded hphase =>
                simp [seeds, hlock, hcall, LifecycleRun.seedRoot, hphase] at hseeds
      · split <;> exact .inl ⟨rfl, rfl⟩

theorem Kin.drained (kin : sys.Kin annals gone) (lived : sys.Lived) {index : Nat}
    (hseeds : sys.seeds (.advance index) = false) :
    let next := (sys.step (.advance index)).2
    sys.Ends [] next ∧ next.site.pool.idle = sys.site.pool.idle ∨
      sys.Ends sys.site.pool.idle next ∧ next.site.pool.idle = [] := by
  intro next
  rcases lived.advance_cases hseeds with ⟨hworld, hidle⟩ | ⟨hworld, hidle⟩
  · exact .inl ⟨kin.ends_of_same (by rw [tokens, tokens, hworld]), hidle⟩
  · have htended : sys.tokens.Tended (fun _ => False) _ next.site.world.book.tokens :=
      hworld ▸ kin.closeIdle_tended
    exact .inr ⟨kin.ends (fun _ => mem_population_of_idle) htended (by simp), hidle⟩

/-! ### Behind a root that was cancelled -/

theorem Kin.isCancelled_of_root (kin : sys.Kin annals gone) (hstate : state ∈ sys.lodgers)
    (hroot : sys.tokens.isCancelled annals.root = true) :
    sys.tokens.isCancelled state.token = true :=
  kin.felled.tidy.heard _ _ (kin.born state hstate).2 hroot

/-- Where the root is cancelled, no state that comes back waits again. -/
theorem Kin.idle_suffix (kin : sys.Kin annals gone) (lived : sys.Lived)
    (honest : action.honest = true) (hseeds : sys.seeds action = false)
    (hroot : sys.tokens.isCancelled annals.root = true) :
    (sys.step action).2.site.pool.idle <:+ sys.site.pool.idle := by
  have hopened {next : Report × System}
      (h : next.2.site.pool.idle <:+ sys.site.pool.idle) :
      (sys.ifOpen next).2.site.pool.idle <:+ sys.site.pool.idle := by
    unfold ifOpen
    split
    · exact h
    · exact List.suffix_rfl
  have hgrant : (sys.grant sys.site.checkOut).2.site.pool.idle <:+ sys.site.pool.idle := by
    have checked := sys.site.checkOut_checkedOut
    generalize sys.site.checkOut = answer at checked
    cases checked with
    | refused | full | failed | panicked | built => exact List.suffix_rfl
    | reused _ hidle =>
        rw [hidle]
        exact List.suffix_cons _ _
  cases action with
  | tick | context | entrust | cancel => exact List.suffix_rfl
  | build parent budget idleSeconds options hook =>
      simp only [System.step, System.act, System.build, note]
      split <;> exact List.suffix_rfl
  | touch origin id touch =>
      simp only [System.step, System.act, System.touch, note]
      split
      · exact List.suffix_rfl
      · cases origin <;> exact List.suffix_rfl
  | get request =>
      refine hopened ?_
      unfold Site.get
      split
      · exact List.suffix_rfl
      · exact hgrant
  | checkOut => exact hopened hgrant
  | part origin id parting =>
      refine hopened ?_
      unfold System.part
      split
      · exact List.suffix_rfl
      · next state rest hpick =>
          cases origin with
          | pool =>
              have hmem : state ∈ sys.lodgers :=
                List.mem_append_right _ ((perm_of_pick hpick).2.mem_iff.2 List.mem_cons_self)
              have handed := parting.perform_handedBack sys.site state
              cases handed with
              | severed _ hidle => exact hidle ▸ List.suffix_rfl
              | requeued _ _ _ hlive =>
                  -- The pool looked at the token, which is cancelled with the root above it.
                  have hcancelled := kin.isCancelled_of_root hmem hroot
                  exact absurd (hlive.symm.trans hcancelled) Bool.false_ne_true
          | caller =>
              simp only [Action.honest, decide_eq_true_eq] at honest
              subst honest
              exact List.suffix_rfl
  | setStateOptions | look | call => exact hopened List.suffix_rfl
  | advance index =>
      rcases lived.advance_cases hseeds with ⟨-, hidle⟩ | ⟨-, hidle⟩
      · exact hidle ▸ List.suffix_rfl
      · exact hidle ▸ List.nil_suffix

theorem newRoot?_of_unseeded (hseeds : sys.seeds action = false) :
    sys.newRoot? action = none := by
  rw [Option.eq_none_iff_forall_ne_some]
  intro root hnew
  unfold newRoot? at hnew
  split at hnew
  · split at hnew
    · next hlock =>
        split at hnew
        · next hcall => simp [seeds, hlock, hcall, LifecycleRun.seedRoot] at hseeds
        · cases hnew
    · cases hnew
  · cases hnew

/-- Nothing that was cancelled is ever restored. -/
theorem Kin.isCancelled_step (kin : sys.Kin annals gone) (lived : sys.Lived)
    (honest : action.honest = true) (genuine : sys.genuine action)
    (hcancelled : sys.tokens.isCancelled token = true) :
    (sys.step action).2.tokens.isCancelled token = true := by
  obtain ⟨shed, born, built, upkeep⟩ := kin.act lived honest genuine
  obtain ⟨cuts, tended, -⟩ := upkeep.tended
  have hhas := TokenForest.has_of_isCancelled hcancelled
  exact (tended.isCancelled_iff kin.felled.tidy kin.reserved_has hhas).2 (.inl hcancelled)

/-- A state that has been handed out, and that does not wait. -/
structure Away (sys : System) (id : StateId) : Prop where
  idle : id ∉ sys.site.pool.idle.map (·.id)
  born : id.number < sys.site.world.states

theorem Lived.grants_of_away (lived : sys.Lived) (honest : action.honest = true)
    (away : sys.Away id) : (sys.step action).1.grants id = 0 := by
  have acted := act_acted lived.sound honest
  generalize hreport : (sys.step action).1 = report
  cases report with
  | granted state =>
      refine if_neg ?_
      rintro rfl
      rcases acted.granted_from hreport with h | h
      · exact away.idle h
      · exact Nat.ne_of_lt away.born h
  | _ => rfl

theorem Lived.away_of_granted (lived : sys.Lived) (honest : action.honest = true)
    (hgrant : (sys.step action).1 = .granted state) : (sys.step action).2.Away state.id := by
  have hnext : sys.Meanwhile [] (sys.step action).2 := .act .refl honest action.spares_nil
  have sound := hnext.sound lived.sound
  have acted := act_acted lived.sound honest
  have hout : state.id ∈ (sys.step action).2.out := acted.out_of_granted hgrant
  refine ⟨?_, sound.books.out_born _ hout⟩
  intro hmem
  obtain ⟨other, hother, hid⟩ := List.mem_map.1 hmem
  exact (sound.books.idle_apart hother).1 (hid ▸ hout)

theorem Away.mono (away : sys.Away id) (hidle : next.site.pool.idle <:+ sys.site.pool.idle)
    (hstates : sys.site.world.states ≤ next.site.world.states) : next.Away id where
  idle h := away.idle ((hidle.map (·.id)).subset h)
  born := Nat.lt_of_lt_of_le away.born hstates

theorem states_le_step (honest : action.honest = true) :
    sys.site.world.states ≤ (sys.step action).2.site.world.states := by
  refine (step_dealt ?_).states_le
  cases action with
  | part origin id parting => cases origin <;> exact honest
  | _ => rfl

/-- What a pool comes to whose root was cancelled, until the next life of it is started. -/
theorem Kin.doomed {actions : List Action} (kin : sys.Kin annals gone) (lived : sys.Lived)
    (honest : ∀ action ∈ actions, action.honest = true) (genuine : sys.Genuine actions)
    (hseeds : sys.Unseeded actions) (hroot : sys.tokens.isCancelled annals.root = true) :
    (sys.run actions).site.pool.idle <:+ sys.site.pool.idle ∧
      ∀ id, sys.grants id actions ≤ 1 ∧ (sys.Away id → sys.grants id actions = 0) := by
  -- The root stays what it is and stays cancelled; a state that is handed out is away for good.
  induction actions generalizing sys annals gone with
  | nil => exact ⟨List.suffix_rfl, fun id => ⟨Nat.zero_le _, fun _ => rfl⟩⟩
  | cons action actions ih =>
      rw [List.forall_mem_cons] at honest
      obtain ⟨shed, later⟩ := kin.follow lived honest.1 genuine.1
      have hsame : (annals.enter sys action).root = annals.root := by
        simp [Annals.enter, newRoot?_of_unseeded hseeds.1]
      have hnext : sys.Meanwhile [] (sys.step action).2 :=
        .act .refl honest.1 action.spares_nil
      have hstill := kin.isCancelled_step lived honest.1 genuine.1 hroot
      obtain ⟨hsuffix, hgrants⟩ := ih later (lived.meanwhile hnext) honest.2 genuine.2 hseeds.2
        (hsame.symm ▸ hstill)
      have hidle := kin.idle_suffix lived honest.1 hseeds.1 hroot
      refine ⟨hsuffix.trans hidle, ?_⟩
      intro id
      obtain ⟨hle, hzero⟩ := hgrants id
      constructor
      · simp only [System.grants]
        cases hreport : (sys.step action).1 with
        | granted state =>
            by_cases hid : state.id = id
            · have away := lived.away_of_granted honest.1 hreport
              rw [hid] at away
              rw [hzero away]
              simp [Report.grants, hid]
            · simpa [Report.grants, hid] using hle
        | _ => simpa [Report.grants] using hle
      · intro away
        have hnone := lived.grants_of_away honest.1 away
        simp only [System.grants, hnone, Nat.zero_add]
        exact hzero (away.mono hidle (states_le_step honest.1))

/-! ### The roots of lives -/

/-- What an action cancels that cancels just one context. -/
def fells (sys : System) (token : Token) : Action → Prop
  | .cancel other => other = token
  | .context (.cancel name) => ∃ context, sys.site.world.book.get? name = some context ∧
      context.token = token
  | _ => False

theorem act_of_fells (h : sys.fells token action) :
    (sys.act action).2 = sys.withWorld (sys.site.world.cancel token) := by
  unfold fells at h
  split at h
  · subst h
    rfl
  · obtain ⟨context, hget, rfl⟩ := h
    simp only [System.act, ContextBook.apply, ContextBook.cancelNamed, hget]
    rfl
  · cases h

theorem Kin.bygone (kin : sys.Kin annals gone) (hearlier : token ∈ annals.earlier)
    (hunrelated : ¬ sys.tokens.Above token annals.root) (h : sys.fells token action) :
    let next := (sys.step action).2
    next.site.pool = sys.site.pool ∧ next.held = sys.held ∧ ∀ state ∈ sys.lodgers,
      next.tokens.isCancelled state.token = sys.tokens.isCancelled state.token := by
  have hact := act_of_fells h
  simp only [System.step, hact]
  refine ⟨rfl, rfl, ?_⟩
  intro state hstate
  have own := kin.own state (List.mem_append_left _ hstate)
  have htokens : (note sys (sys.withWorld (sys.site.world.cancel token))).tokens =
      sys.tokens.cancel token := rfl
  rw [htokens, Bool.eq_iff_iff, kin.felled.tidy.isCancelled_cancel token own.has]
  refine or_iff_left ?_
  intro habove
  rcases TokenForest.above_iff.1 habove with rfl | ⟨parent, hparent, habove⟩
  · exact own.unreserved (.inr (kin.called _ (.inr hearlier)))
  · cases hparent.symm.trans (kin.born state hstate).2
    exact hunrelated habove

theorem Kin.cancelled_iff (kin : sys.Kin annals gone) (hstate : state ∈ sys.lodgers)
    (hlive : state.closed = false) :
    sys.tokens.isCancelled state.token = true ↔
      (∃ cut ∈ annals.struck, sys.tokens.Above cut (annals.origin state.id)) ∨
        state.token ∈ annals.struck := by
  obtain ⟨horigin, hparent⟩ := kin.born state hstate
  have hmem : state ∈ sys.population := List.mem_append_left _ hstate
  rw [kin.felled.cancelled_iff _ (kin.own state hmem).has, horigin]
  constructor
  · rintro ⟨cut, hcut | hgone, habove⟩
    -- Nothing is above the state but its root, and what is above that.
    · rcases TokenForest.above_iff.1 habove with rfl | ⟨parent, heq, habove⟩
      · exact .inr hcut
      · cases heq.symm.trans hparent
        exact .inl ⟨cut, hcut, habove⟩
    · cases habove.eq_of_childless (kin.gone_own cut hgone).childless
      exact absurd hgone (kin.live state hmem hlive)
  · rintro (⟨cut, hcut, habove⟩ | hcut)
    · exact ⟨cut, .inl hcut, habove.step hparent⟩
    · exact ⟨_, .inl hcut, .refl⟩

/-- What cancellation has to do with the states of a pool. -/
structure Kindred (sys : System) (annals : Annals) : Prop where
  root_eq : sys.site.pool.root = annals.root
  parent_eq : ∀ state ∈ sys.lodgers,
    sys.tokens.parent? state.token = some (annals.origin state.id)
  /-- A live state is cancelled with the root of the life that it was born in, or by itself. -/
  cancelled_iff : ∀ state ∈ sys.lodgers, state.closed = false →
    (sys.tokens.isCancelled state.token = true ↔
      (∃ cut ∈ annals.struck, sys.tokens.Above cut (annals.origin state.id)) ∨
        state.token ∈ annals.struck)
  /-- A parting ends the state, or the state waits again. -/
  returned : ∀ origin id parting, (Action.part origin id parting).honest = true →
    sys.isOpen = true → ∀ state rest, pick id (sys.states origin) = some (state, rest) →
    let next := (sys.step (.part origin id parting)).2
    sys.Ends [state] next ∨ sys.Ends [] next ∧ id ∈ next.site.pool.idle.map (·.id)
  closed : ∀ origin id state rest, pick id (sys.states origin) = some (state, rest) →
    sys.Ends [state] (sys.step (.touch origin id .close)).2
  /-- Shutting down, terminating and restarting end all states that wait, or none. -/
  drained : ∀ index, sys.seeds (.advance index) = false →
    let next := (sys.step (.advance index)).2
    sys.Ends [] next ∧ next.site.pool.idle = sys.site.pool.idle ∨
      sys.Ends sys.site.pool.idle next ∧ next.site.pool.idle = []
  /-- The roots of earlier lives are of no concern, unless the current one is below them. -/
  bygone : ∀ token ∈ annals.earlier, ¬ sys.tokens.Above token annals.root →
    ∀ action, sys.fells token action →
    let next := (sys.step action).2
    next.site.pool = sys.site.pool ∧ next.held = sys.held ∧ ∀ state ∈ sys.lodgers,
      next.tokens.isCancelled state.token = sys.tokens.isCancelled state.token
  /-- Behind a root that was cancelled, nothing comes to wait again before the next life. -/
  doomed : sys.tokens.isCancelled annals.root = true → ∀ actions : List Action,
    (∀ action ∈ actions, action.honest = true) → sys.Genuine actions → sys.Unseeded actions →
    (sys.run actions).site.pool.idle <:+ sys.site.pool.idle ∧ ∀ id, sys.grants id actions ≤ 1

theorem kin_make (config : Config) (hook : Option InitHook) {root : Token} {world : World}
    (orderly : world.book.Orderly) (hroot : world.book.Carries root) :
    (make config hook root world).Kin (Annals.start root world) [] where
  felled := by
    refine orderly.tidy.felled.congr ?_
    intro token
    have hhas : world.isCancelled token = true → token.index < world.book.tokens.nodes.size :=
      TokenForest.has_of_isCancelled
    simp only [Annals.start, List.not_mem_nil, or_false, List.mem_filter, List.mem_map,
      List.mem_range]
    constructor
    · exact And.right
    · intro h
      exact ⟨⟨token.index, hhas h, rfl⟩, h⟩
  root_eq := rfl
  called token h := by
    rcases h with rfl | h
    · exact ⟨_, List.mem_cons_self, rfl⟩
    · cases h
  reserved_has token h := by
    rcases h with h | ⟨run, hrun, heq⟩
    · exact orderly.has token h
    · rw [List.mem_singleton.1 hrun] at heq
      cases heq
      exact orderly.has root hroot
  own := nofun
  gone_own := nofun
  once _ := Nat.zero_le _
  live := nofun
  born := nofun

/-- The states of a pool have to do with the contexts that it is given, and with no others. -/
theorem run_kindred {config : Config} (built : config.Built) (hook : Option InitHook) {root : Token}
    {world : World} (orderly : world.book.Orderly) (hroot : world.book.Carries root)
    {actions : List Action} (honest : ∀ action ∈ actions, action.honest = true)
    (genuine : (make config hook root world).Genuine actions) :
    ((make config hook root world).run actions).Kindred
      ((Annals.start root world).follow (make config hook root world) actions) := by
  have reachable : (make config hook root world).Reachable := .made built hook root world
  have lived := (reachable.run honest).lived
  obtain ⟨gone, kin⟩ := (kin_make config hook orderly hroot).run reachable.lived honest genuine
  exact
    { root_eq := kin.root_eq
      parent_eq := fun state hstate => by
        obtain ⟨horigin, hparent⟩ := kin.born state hstate
        rw [horigin, hparent]
      cancelled_iff := fun state hstate hlive => kin.cancelled_iff hstate hlive
      returned := fun origin id parting honest hopen state rest hpick =>
        kin.returned honest hopen hpick
      closed := fun origin id state rest hpick => kin.closed hpick
      drained := fun index hseeds => kin.drained lived hseeds
      bygone := fun token hearlier hunrelated action h => kin.bygone hearlier hunrelated h
      doomed := fun hcancelled actions honest genuine hseeds => by
        obtain ⟨hsuffix, hgrants⟩ := kin.doomed lived honest genuine hseeds hcancelled
        exact ⟨hsuffix, fun id => (hgrants id).1⟩ }

/-- A world in which somebody holds two contexts. -/
def peopled : World where
  book := (({} : ContextBook).apply (.create "first" "first")).apply (.create "second" "second")

/-- A pool moves from one context to another one, and both are cancelled. -/
def moving : List Action :=
  [.advance 0, .advance 0, .advance 0, .get ⟨0⟩, .part .pool ⟨0⟩ .put, .call (.restart ⟨1⟩),
    .advance 1, .advance 1, .advance 1, .advance 1, .advance 1, .advance 1, .advance 1,
    .get ⟨1⟩, .context (.cancel "first"), .context (.cancel "second")]

theorem moving_kindred :
    let sys := (make .default none ⟨0⟩ peopled).run moving
    let annals := (Annals.start ⟨0⟩ peopled).follow (make .default none ⟨0⟩ peopled) moving
    (annals.root = ⟨1⟩ ∧ annals.earlier = [⟨0⟩] ∧ annals.struck = [⟨0⟩, ⟨1⟩] ∧
      sys.held.map (fun state => (state.id, state.closed)) = [(⟨1⟩, false)]) ∧
      sys.Kindred annals := by
  have orderly : peopled.book.Orderly :=
    (ContextBook.orderly_empty.apply (.create "first" "first")).apply (.create "second" "second")
  have genuine : (make .default none ⟨0⟩ peopled).Genuine moving := by decide +kernel
  exact ⟨by decide +kernel,
    run_kindred .default none orderly (by decide) (by decide) genuine⟩

/-- A caller builds a state of its own, gives its token to a context, and moves the pool there. -/
def adopting : List Action :=
  [.advance 0, .advance 0, .advance 0, .build ⟨0⟩ 0 0 {} none, .entrust "own" "own" ⟨3⟩,
    .call (.restart ⟨3⟩), .advance 1, .advance 1, .advance 1, .advance 1, .advance 1, .advance 1,
    .advance 1]

/-- A pool moves from one context to another one that has nothing to do with it. -/
def leaving : List Action :=
  [.advance 0, .advance 0, .advance 0, .call (.restart ⟨1⟩), .advance 1, .advance 1, .advance 1,
    .advance 1, .advance 1, .advance 1, .advance 1]

/-- Work that ends with an error just if the watchdog trips when it looks. -/
def watchful : Task Unit := fun scene =>
  .look scene fun trip =>
    .finish scene (if trip.isSome then .error (.runtime "interrupted") else .ok ())

def cancellingFirst : Task Unit :=
  (Task.onWorld fun world => { world with book := world.book.cancelNamed "first" }).andThen
    fun _ => watchful

/-- A context may have the token of a state, and then to close that state cancels the context and
the states of a pool that was moved there.  And to cancel the root of an earlier life ends a request
that runs under that very context, and its state. -/
theorem not_confined :
    (let sys := (make .default none ⟨0⟩ peopled).run adopting
     let next := (sys.step (.touch .caller ⟨1⟩ .close)).2
     (∀ action ∈ adopting, action.honest = true) ∧
      sys.strangers.map (fun state => (state.id, state.token)) = [(⟨1⟩, ⟨3⟩)] ∧
      ((sys.site.world.book.get? "own").map fun context => sys.tokens.isCancelled context.token) =
        some false ∧
      ((next.site.world.book.get? "own").map fun context =>
        next.tokens.isCancelled context.token) = some true ∧
      (sys.lodgers.map fun state => (state.id, sys.tokens.isCancelled state.token)) =
        [(⟨2⟩, false)] ∧
      (next.lodgers.map fun state => (state.id, next.tokens.isCancelled state.token)) =
        [(⟨2⟩, true)]) ∧
    (let sys := (make .default none ⟨0⟩ peopled).run leaving
     let kept := sys.site.withState ⟨0⟩ watchful
     let ended := sys.site.withState ⟨0⟩ cancellingFirst
     (∀ action ∈ leaving, action.honest = true) ∧ sys.site.pool.root = ⟨1⟩ ∧
      (kept.1 = .ok () ∧ kept.2.pool.idle.map (·.id) = [⟨1⟩]) ∧
      ended.1 = .error .cancelled ∧ ended.2.pool.idle.map (·.id) = [] ∧
        ended.2.pool.journal.back? = some (.cleanedUp ⟨1⟩ .scriptFailure)) := by
  decide +kernel

end System

end StatePool
