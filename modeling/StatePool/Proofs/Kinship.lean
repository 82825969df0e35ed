import StatePool.Proofs.Annals
import StatePool.Proofs.Lives

/-!
Whose children the tokens of states are.

Every state has a token of its own: no context and no other state has it, and nothing is derived
from it.  So what states cancel when they are closed or dropped stays with them, and what reaches a
state of the pool from elsewhere comes through the root of the life that the state was born in.
-/

namespace StatePool

/-! ### Lists of states -/

/-- The later states are among the earlier ones, where some may have been closed meanwhile. -/
structure Handed (before after : List LuaState) : Prop where
  descends : ∀ state ∈ after, ∃ old ∈ before, old.id = state.id ∧ old.token = state.token ∧
    (state.closed = false → old.closed = false)
  count_le : ∀ token, (after.map (·.token)).count token ≤ (before.map (·.token)).count token

namespace Handed

variable {before after others rest : List LuaState} {old state : LuaState}

theorem refl (states : List LuaState) : Handed states states :=
  ⟨fun state h => ⟨state, h, rfl, rfl, id⟩, fun _ => Nat.le_refl _⟩

theorem perm (h : Handed before after) (hperm : after.Perm others) : Handed before others where
  descends state hstate := h.descends state (hperm.mem_iff.2 hstate)
  count_le token := by
    rw [← (hperm.map (·.token)).count_eq]
    exact h.count_le token

/-- Something was done to a state. -/
theorem swap (hperm : before.Perm (old :: rest)) (hid : state.id = old.id)
    (htoken : state.token = old.token) (hclosed : state.closed = false → old.closed = false) :
    Handed before (state :: rest) where
  descends other hother := by
    rcases List.mem_cons.1 hother with rfl | hother
    · exact ⟨old, hperm.mem_iff.2 List.mem_cons_self, hid.symm, htoken.symm, hclosed⟩
    · exact ⟨other, hperm.mem_iff.2 (List.mem_cons_of_mem _ hother), rfl, rfl, id⟩
  count_le token := by
    have hcount := (hperm.map (·.token)).count_eq token
    rw [List.map_cons, ← htoken, ← List.map_cons] at hcount
    exact Nat.le_of_eq hcount.symm

theorem drop (hperm : before.Perm (old :: rest)) : Handed before rest where
  descends other hother := ⟨other, hperm.mem_iff.2 (List.mem_cons_of_mem _ hother), rfl, rfl, id⟩
  count_le token := by
    rw [(hperm.map (·.token)).count_eq, List.map_cons]
    exact List.count_le_count_cons

theorem append_left (states : List LuaState) (others : List LuaState) :
    Handed (states ++ others) others where
  descends other hother := ⟨other, List.mem_append_right _ hother, rfl, rfl, id⟩
  count_le token := by
    rw [List.map_append, List.count_append]
    exact Nat.le_add_left _ _

end Handed

/-- A lifecycle call stays what it is while it goes on. -/
theorem LifecycleRun.call_step (run : LifecycleRun) (site : Site) :
    (run.step site).1.call = run.call := by
  have hdrain (next : Phase) : (run.drain next site).1.call = run.call := by
    unfold drain
    split
    · rfl
    · split <;> rfl
  obtain ⟨call, phase⟩ := run
  cases phase with
  | entering =>
      cases call with
      | restart root =>
          simp only [step]
          split <;> rfl
      | shutdown | terminate => rfl
  | draining | undoDraining e => exact hdrain _
  | starting root =>
      simp only [step]
      split <;> rfl
  | seeding root =>
      simp only [step]
      split
      · rfl
      · split <;> rfl
  | closing | undoing e | sealing | done result => rfl

/-- A ledger has states created only that it had not heard of. -/
theorem Ledger.Follows.created_ge {start ledger : Ledger} {entries : List (Event × Int)}
    (h : start.Follows entries ledger) :
    start.bound ≤ ledger.bound ∧
      ∀ id, .created id ∈ entries.map (·.1) → start.bound ≤ id.number := by
  -- The bound grows along the entries, and each state that is created lies at it or above.
  induction h with
  | nil => exact ⟨Nat.le_refl _, nofun⟩
  | @snoc entries entry mid next _ entered ih =>
      obtain ⟨hbound, hentries⟩ := ih
      constructor
      · cases entered with
        | created hfresh => exact Nat.le_succ_of_le (Nat.le_trans hbound hfresh)
        | acquired | released | closedIdle | closedOut | poolFull | statusChanged => exact hbound
      · intro id hid
        rw [List.map_append, List.mem_append] at hid
        rcases hid with hid | hid
        · exact hentries id hid
        · rw [List.map_singleton, List.mem_singleton] at hid
          cases entered with
          | created hfresh =>
              cases hid
              exact Nat.le_trans hbound hfresh
          | acquired | released | closedIdle | closedOut | poolFull | statusChanged => cases hid

namespace System

variable {sys next : System} {action : Action} {annals : Annals} {token : Token}
  {gone shed : List Token} {born built : List LuaState} {state : LuaState}

abbrev tokens (sys : System) : TokenForest := sys.site.world.book.tokens

/-- The states that are the pool's. -/
def lodgers (sys : System) : List LuaState :=
  sys.site.pool.idle ++ sys.held

def population (sys : System) : List LuaState :=
  sys.lodgers ++ sys.strangers

/-- The token of a context: one that a caller holds, or one that a restart was called with. -/
def Reserved (sys : System) (token : Token) : Prop :=
  sys.site.world.book.Carries token ∨ ∃ run ∈ sys.calls, run.call = .restart token

/-- A token that no context has, and from which nothing is derived. -/
structure Own (sys : System) (token : Token) : Prop where
  has : sys.tokens.Has token
  childless : ∀ child, sys.tokens.parent? child ≠ some token
  unreserved : ¬ sys.Reserved token

/-- How the tokens of states stand to the others, when some states were closed or dropped. -/
structure Kin (sys : System) (annals : Annals) (gone : List Token) : Prop where
  felled : sys.tokens.Felled fun token => token ∈ annals.struck ∨ token ∈ gone
  root_eq : sys.site.pool.root = annals.root
  called : ∀ token, token = annals.root ∨ token ∈ annals.earlier →
    ∃ run ∈ sys.calls, run.call = .restart token
  reserved_has : ∀ token, sys.Reserved token → sys.tokens.Has token
  own : ∀ state ∈ sys.population, sys.Own state.token
  gone_own : ∀ token ∈ gone, sys.Own token
  once : ∀ token, (sys.population.map (·.token)).count token ≤ 1
  live : ∀ state ∈ sys.population, state.closed = false → state.token ∉ gone
  born : ∀ state ∈ sys.lodgers, annals.origin state.id = annals.root ∧
    sys.tokens.parent? state.token = some annals.root

/-- What an action does to the states and their tokens.  It closes or drops the states of some
tokens, and builds some for the pool and some for callers. -/
structure Upkeep (sys : System) (action : Action) (shed : List Token)
    (born built : List LuaState) (next : System) : Prop where
  tended : ∃ cuts, sys.tokens.Tended sys.Reserved cuts next.tokens ∧
    ∀ token, token ∈ cuts ↔ token ∈ sys.strikes action ∨ token ∈ shed
  root_eq : next.site.pool.root = (sys.newRoot? action).getD sys.site.pool.root
  reserved : ∀ token, next.Reserved token → sys.Reserved token ∨
    ¬ sys.tokens.Has token ∧ next.tokens.Has token ∧
      ∀ state, state ∈ born ∨ state ∈ built → state.token ≠ token
  lodgers : ∃ rest, next.lodgers.Perm (born ++ rest) ∧ Handed sys.lodgers rest ∧
    (sys.newRoot? action ≠ none → rest = [])
  strangers : ∃ rest, next.strangers.Perm (built ++ rest) ∧ Handed sys.strangers rest
  sprung : ∀ state, state ∈ born ∨ state ∈ built →
    ∃ parent, state.Sprung sys.tokens next.tokens parent
  once : ((born ++ built).map (·.token)).Nodup
  created : ∀ state ∈ born, .created state.id ∈ sys.site.pool.news next.site.pool ∧
    next.tokens.parent? state.token = some next.site.pool.root
  shed_mem : ∀ token ∈ shed, ∃ state ∈ sys.population, state.token = token
  shed_dead : ∀ state ∈ next.population, state.closed = false → state.token ∉ shed

namespace Upkeep

theorem extends_tokens (upkeep : sys.Upkeep action shed born built next) :
    sys.tokens.Extends next.tokens := by
  obtain ⟨cuts, tended, -⟩ := upkeep.tended
  exact tended.extends

theorem own (upkeep : sys.Upkeep action shed born built next) (own : sys.Own token) :
    next.Own token where
  has := upkeep.extends_tokens.has own.has
  childless := by
    obtain ⟨cuts, tended, -⟩ := upkeep.tended
    exact tended.childless own.unreserved own.childless
  unreserved h := by
    rcases upkeep.reserved token h with h | ⟨hfresh, -⟩
    · exact own.unreserved h
    · exact hfresh own.has

theorem own_of_sprung (upkeep : sys.Upkeep action shed born built next)
    (reserved_has : ∀ token, sys.Reserved token → sys.tokens.Has token)
    (hstate : state ∈ born ∨ state ∈ built) : next.Own state.token := by
  obtain ⟨parent, sprung⟩ := upkeep.sprung state hstate
  refine ⟨sprung.has, sprung.childless, ?_⟩
  intro h
  rcases upkeep.reserved _ h with h | ⟨-, -, hne⟩
  · exact sprung.fresh (reserved_has _ h)
  · exact hne state hstate rfl

theorem mem_lodgers (upkeep : sys.Upkeep action shed born built next)
    (hstate : state ∈ next.lodgers) :
    state ∈ born ∨ sys.newRoot? action = none ∧ ∃ old ∈ sys.lodgers, old.id = state.id ∧
      old.token = state.token ∧ (state.closed = false → old.closed = false) := by
  obtain ⟨rest, hperm, handed, hnone⟩ := upkeep.lodgers
  rcases List.mem_append.1 (hperm.mem_iff.1 hstate) with h | h
  · exact .inl h
  · refine .inr ⟨Decidable.of_not_not fun hroot => ?_, handed.descends state h⟩
    rw [hnone hroot] at h
    cases h

theorem mem_population (upkeep : sys.Upkeep action shed born built next)
    (hstate : state ∈ next.population) :
    (state ∈ born ∨ state ∈ built) ∨ ∃ old ∈ sys.population, old.id = state.id ∧
      old.token = state.token ∧ (state.closed = false → old.closed = false) := by
  rcases List.mem_append.1 hstate with h | h
  · rcases upkeep.mem_lodgers h with h | ⟨-, old, hold, h⟩
    · exact .inl (.inl h)
    · exact .inr ⟨old, List.mem_append_left _ hold, h⟩
  · obtain ⟨rest, hperm, handed⟩ := upkeep.strangers
    rcases List.mem_append.1 (hperm.mem_iff.1 h) with h | h
    · exact .inl (.inr h)
    · obtain ⟨old, hold, h⟩ := handed.descends state h
      exact .inr ⟨old, List.mem_append_right _ hold, h⟩

theorem count_le (upkeep : sys.Upkeep action shed born built next) (token : Token) :
    (next.population.map (·.token)).count token ≤
      ((born ++ built).map (·.token)).count token +
        (sys.population.map (·.token)).count token := by
  obtain ⟨waiting, hwaiting, handed, -⟩ := upkeep.lodgers
  obtain ⟨others, hothers, alien⟩ := upkeep.strangers
  have h1 := (hwaiting.map (·.token)).count_eq token
  have h2 := (hothers.map (·.token)).count_eq token
  have h3 := handed.count_le token
  have h4 := alien.count_le token
  simp only [population, List.map_append, List.count_append] at h1 h2 ⊢
  omega

end Upkeep

/-! ### One action -/

theorem calls_step (sys : System) (action : Action) {call : LifecycleCall}
    (h : ∃ run ∈ sys.calls, run.call = call) :
    ∃ run ∈ (sys.step action).2.calls, run.call = call := by
  obtain ⟨run, hrun, rfl⟩ := h
  rcases sys.calls_act action with h | ⟨call, h⟩ | ⟨index, before, -, -, hcall, -, h⟩
  · exact ⟨run, h.symm ▸ hrun, rfl⟩
  · exact ⟨run, h.symm ▸ List.mem_append_left _ hrun, rfl⟩
  · obtain ⟨other, hother, rfl⟩ := List.mem_iff_getElem.1 hrun
    by_cases heq : index = other
    · subst heq
      refine ⟨(before.step sys.site).1, ?_, ?_⟩
      · exact h.symm ▸ List.mem_set hother _
      · rw [LifecycleRun.call_step]
        have hself := hcall.symm.trans (List.getElem?_eq_getElem hother)
        rw [Option.some.inj hself]
    · refine ⟨sys.calls[other], ?_, rfl⟩
      refine h.symm ▸ List.mem_iff_getElem.2 ⟨other, by rwa [List.length_set], ?_⟩
      exact List.getElem_set_ne heq _

/-- A state that is there is not created again. -/
theorem Lived.not_created (lived : sys.Lived) (h : sys.Meanwhile [] next)
    {id : StateId} (hpresent : sys.Present id) :
    .created id ∉ sys.site.pool.news next.site.pool := by
  obtain ⟨ledger, entries, agrees, follows, -⟩ := lived.recounts
  obtain ⟨more, last, hnews, hmore, -⟩ := h.recounts lived.sound agrees
  have hlt : id.number < ledger.bound := by
    refine (follows.course id).1.below id ?_
    rw [agrees.idle_eq, agrees.out_eq]
    exact lived.sound.present_iff.1 hpresent
  have happend : next.site.pool.journal =
      sys.site.pool.journal ++ (more.map (·.1)).toArray := by
    apply Array.ext'
    simpa using hnews
  rw [Pool.news_of_append happend]
  intro hcreated
  exact absurd hlt (Nat.not_lt.2 (hmore.created_ge.2 id hcreated))

theorem called_of_newRoot? {root : Token} (h : sys.newRoot? action = some root) :
    ∃ run ∈ sys.calls, run.call = .restart root := by
  unfold newRoot? at h
  split at h
  · split at h
    · split at h
      · next hcall =>
          cases h
          exact ⟨_, List.mem_of_getElem? hcall, rfl⟩
      · cases h
    · cases h
  · cases h

theorem present_of_lodger (h : state ∈ sys.lodgers) : sys.Present state.id := by
  rcases List.mem_append.1 h with h | h
  · exact .inl (List.mem_map_of_mem h)
  · exact .inr (.inr (List.mem_map_of_mem h))

theorem Kin.own_step (kin : sys.Kin annals gone)
    (upkeep : sys.Upkeep action shed born built next) (hstate : state ∈ next.population) :
    next.Own state.token := by
  rcases upkeep.mem_population hstate with h | ⟨old, hold, -, htoken, -⟩
  · exact upkeep.own_of_sprung kin.reserved_has h
  · exact htoken ▸ upkeep.own (kin.own old hold)

theorem Kin.once_step (kin : sys.Kin annals gone)
    (upkeep : sys.Upkeep action shed born built next) (token : Token) :
    (next.population.map (·.token)).count token ≤ 1 := by
  have hle := upkeep.count_le token
  have hnew := List.nodup_iff_count.1 upkeep.once token
  have hold := kin.once token
  -- A token of a new state was nobody's before.
  by_cases h : token ∈ (born ++ built).map (·.token)
  · obtain ⟨state, hstate, rfl⟩ := List.mem_map.1 h
    obtain ⟨parent, sprung⟩ := upkeep.sprung state (List.mem_append.1 hstate)
    have hnone : (sys.population.map (·.token)).count state.token = 0 := by
      rw [List.count_eq_zero]
      intro hmem
      obtain ⟨old, hmem, htoken⟩ := List.mem_map.1 hmem
      exact sprung.fresh (htoken ▸ (kin.own old hmem).has)
    omega
  · rw [← List.count_eq_zero] at h
    omega

theorem Kin.live_step (kin : sys.Kin annals gone)
    (upkeep : sys.Upkeep action shed born built next) (hstate : state ∈ next.population)
    (hlive : state.closed = false) : state.token ∉ gone ++ shed := by
  intro h
  rcases List.mem_append.1 h with h | h
  · rcases upkeep.mem_population hstate with hnew | ⟨old, hold, -, htoken, hclosed⟩
    · obtain ⟨parent, sprung⟩ := upkeep.sprung state hnew
      exact sprung.fresh (kin.gone_own _ h).has
    · exact kin.live old hold (hclosed hlive) (htoken ▸ h)
  · exact upkeep.shed_dead state hstate hlive h

theorem Kin.called_step (kin : sys.Kin annals gone) (action : Action)
    (h : token = (annals.enter sys action).root ∨ token ∈ (annals.enter sys action).earlier) :
    ∃ run ∈ (sys.step action).2.calls, run.call = .restart token := by
  refine sys.calls_step action ?_
  rcases h with rfl | h
  · cases hnew : sys.newRoot? action with
    | none =>
        simp only [Annals.enter, hnew]
        exact kin.called _ (.inl rfl)
    | some root =>
        simp only [Annals.enter, hnew]
        exact called_of_newRoot? hnew
  · refine kin.called token ?_
    simp only [Annals.enter] at h
    split at h
    · exact List.mem_cons.1 h
    · exact .inr h

theorem Kin.step (kin : sys.Kin annals gone)
    (upkeep : sys.Upkeep action shed born built (sys.step action).2) (lived : sys.Lived)
    (honest : action.honest = true) :
    (sys.step action).2.Kin (annals.enter sys action) (gone ++ shed) := by
  have hextends := upkeep.extends_tokens
  have hroot : (annals.enter sys action).root = (sys.newRoot? action).getD annals.root := rfl
  exact
    { felled := by
        obtain ⟨cuts, tended, hcuts⟩ := upkeep.tended
        refine (tended.felled kin.felled kin.reserved_has).congr ?_
        intro token
        simp only [Annals.enter, List.mem_append, hcuts]
        grind
      root_eq := by rw [upkeep.root_eq, hroot, kin.root_eq]
      called := fun _ => kin.called_step action
      reserved_has := fun token h => by
        rcases upkeep.reserved token h with h | ⟨-, hhas, -⟩
        · exact hextends.has (kin.reserved_has token h)
        · exact hhas
      own := fun _ => kin.own_step upkeep
      gone_own := fun token h => by
        rcases List.mem_append.1 h with h | h
        · exact upkeep.own (kin.gone_own token h)
        · obtain ⟨state, hstate, rfl⟩ := upkeep.shed_mem token h
          exact upkeep.own (kin.own state hstate)
      once := kin.once_step upkeep
      live := fun _ => kin.live_step upkeep
      born := fun state hstate => by
        have hnext : sys.Meanwhile [] (sys.step action).2 := .act .refl honest action.spares_nil
        rcases upkeep.mem_lodgers hstate with hnew | ⟨hnone, old, hold, hid, htoken, -⟩
        · obtain ⟨hcreated, hparent⟩ := upkeep.created state hnew
          rw [upkeep.root_eq, kin.root_eq, ← hroot] at hparent
          exact ⟨if_pos hcreated, hparent⟩
        · obtain ⟨horigin, hparent⟩ := kin.born old hold
          have hcreated := lived.not_created hnext (present_of_lodger hold)
          rw [hroot, hnone, ← hid, ← htoken]
          exact ⟨(if_neg hcreated).trans horigin, hextends.parent?_of_some hparent⟩ }

end System

end StatePool
