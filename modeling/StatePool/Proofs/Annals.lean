import StatePool.Proofs.Births
import StatePool.Proofs.Drain
import StatePool.Proofs.Felling

/-!
Who cancelled what, and under which root each state of a pool was born.

Tokens are cancelled by callers, who cancel contexts and states, and by hooks while they prepare a
state.  The annals of a run keep these cancellations apart from those that states cause when they
are closed or dropped, and they keep the roots that the lives of the pool were given.
-/

namespace StatePool

/-! ### Cuts -/

/-- What code that the pool was given cancels with one effect. -/
def HostEffect.cuts (world : World) : HostEffect → List Token
  | .advance _ => []
  | .cancel token => world.book.tokens.hits token

def World.cutsOf (world : World) : List HostEffect → List Token
  | [] => []
  | effect :: effects => effect.cuts world ++ (world.undergo effect).cutsOf effects

/-- What a hook cancels while it prepares an interpreter. -/
def LuaState.prepareCuts (hook : Option InitHook) (interp : Script.Interpreter) (world : World) :
    List Token :=
  match hook with
  | none => []
  | some hook =>
      let world := { world with hookCalls := world.hookCalls + 1 }
      world.cutsOf (hook world.hookCalls world interp).effects

namespace Site

/-- What the hook of a pool cancels while a state is built. -/
def birthCuts (site : Site) : List Token :=
  LuaState.prepareCuts site.pool.hook { options := site.pool.config.stateOptions } site.world

def checkOutCuts (site : Site) : List Token :=
  let pool := site.pool
  if !pool.status.accepts then []
  else
    match pool.idle with
    | _ :: _ => []
    | [] =>
        if 0 < pool.config.capacity ∧ pool.config.capacity ≤ pool.length then []
        else site.birthCuts

def seedCuts (site : Site) : Nat → List Token
  | 0 => []
  | count + 1 =>
      site.birthCuts ++
        match site.birth with
        | (.ok first, world) => seedCuts (site.sown first world) count
        | _ => []

end Site

section Tending

variable {allowed : Token → Prop}

theorem World.undergoAll_tended (world : World) (effects : List HostEffect) :
    world.book.tokens.Tended allowed (world.cutsOf effects)
      (world.undergoAll effects).book.tokens := by
  unfold undergoAll
  induction effects generalizing world with
  | nil => exact .refl
  | cons effect effects ih =>
      refine TokenForest.Tended.trans ?_ (ih (world.undergo effect))
      cases effect with
      | advance ms => exact .refl
      | cancel token => exact .single _ token

theorem LuaState.prepare_tended (hook : Option InitHook) (interp : Script.Interpreter)
    (world : World) :
    world.book.tokens.Tended allowed (prepareCuts hook interp world)
      (prepare hook interp world).2.book.tokens := by
  cases hook with
  | none => exact .refl
  | some hook => exact World.undergoAll_tended { world with hookCalls := world.hookCalls + 1 } _

theorem LuaState.create_tended {parent : Token} (hparent : allowed parent)
    (budget idleSeconds : Nat) (options : StateOptions) (hook : Option InitHook) (world : World) :
    world.book.tokens.Tended allowed (prepareCuts hook { options } world)
      (create parent budget idleSeconds options hook world).2.book.tokens := by
  have prepared : world.book.tokens.Tended allowed _ _ := prepare_tended hook { options } world
  cases h : create parent budget idleSeconds options hook world with
  | mk result next =>
      cases result with
      | ok state =>
          rw [(create_ok h).2.2.2]
          exact .child prepared hparent
      | error e =>
          rw [create_not_ok h nofun]
          exact prepared
      | panic fault =>
          rw [create_not_ok h nofun]
          exact prepared

end Tending

namespace LuaState

variable {state : LuaState} {parent : Token} {before mid after : TokenForest}
  {allowed : Token → Prop} {cuts : List Token}

/-- A state that was built below a token, with a token that nobody else has. -/
structure Sprung (state : LuaState) (before after : TokenForest) (parent : Token) : Prop where
  fresh : ¬ before.Has state.token
  has : after.Has state.token
  childless : ∀ child, after.parent? child ≠ some state.token
  parent_eq : after.parent? state.token = some parent
  closed_eq : state.closed = false

theorem Sprung.tended (sprung : state.Sprung before mid parent)
    (h : mid.Tended allowed cuts after) (hnone : ¬ allowed state.token) :
    state.Sprung before after parent where
  fresh := sprung.fresh
  has := h.extends.has sprung.has
  childless := h.childless hnone sprung.childless
  parent_eq := h.extends.parent?_of_some sprung.parent_eq
  closed_eq := sprung.closed_eq

theorem Sprung.since (sprung : state.Sprung mid after parent) (h : before.Extends mid) :
    state.Sprung before after parent :=
  { sprung with fresh := fun hhas => sprung.fresh (h.has hhas) }

theorem create_sprung {budget idleSeconds : Nat} {options : StateOptions} {hook : Option InitHook}
    {world next : World} (tidy : world.book.tokens.Tidy) (hparent : world.book.tokens.Has parent)
    (h : create parent budget idleSeconds options hook world = (.ok state, next)) :
    state.Sprung world.book.tokens next.book.tokens parent := by
  have created := create_created parent budget idleSeconds options hook world
  obtain ⟨-, -, htoken, htokens⟩ := create_ok h
  have prepared : world.book.tokens.Tended (fun _ => False) _ _ :=
    prepare_tended hook { options } world
  have htidy := (prepared.felled tidy.felled nofun).tidy
  have hhas := prepared.extends.has hparent
  have hextends := prepared.extends
  rw [h] at created
  generalize (prepare hook { options } world).2.book.tokens = forest at *
  rw [htokens]
  constructor
  · rw [htoken]
    intro hold
    exact forest.not_has_size (hextends.has hold)
  · rw [htoken, TokenForest.Has, TokenForest.size_child]
    exact Nat.lt_succ_self _
  · rw [htoken]
    -- Children are younger than their parents, and there is no younger token yet.
    intro child hchild
    have hlt := (htidy.child hhas).older _ _ hchild
    have hbound := TokenForest.has_of_parent? hchild
    rw [TokenForest.Has, TokenForest.size_child] at hbound
    exact absurd hlt (Nat.not_lt.2 (Nat.le_of_lt_succ hbound))
  · rw [htoken, TokenForest.parent?_child, if_pos rfl]
  · cases created with
    | born newborn => exact newborn.closed_eq

end LuaState

namespace Site

variable {site after : Site} {state : LuaState}

theorem birth_tended (site : Site) :
    site.world.book.tokens.Tended (· = site.pool.root) site.birthCuts
      site.birth.2.book.tokens := by
  refine LuaState.create_tended ?_ _ _ _ _ _
  rfl

/-- A checkout builds a state, or it leaves the world alone. -/
theorem checkOut_world (site : Site) :
    site.checkOut.2.world = site.world ∧ site.checkOutCuts = [] ∨
      site.checkOut.2.world = site.birth.2 ∧ site.checkOutCuts = site.birthCuts := by
  unfold checkOut checkOutCuts
  cases haccepts : site.pool.status.accepts with
  | false => exact .inl ⟨rfl, by simp [haccepts]⟩
  | true =>
      simp only [haccepts, Bool.not_true, Bool.false_eq_true, ↓reduceIte, take]
      cases hidle : site.pool.idle with
      | cons state idle => exact .inl ⟨rfl, rfl⟩
      | nil =>
          by_cases hfull : 0 < site.pool.config.capacity ∧
              site.pool.config.capacity ≤ site.pool.length
          · simp only [if_pos hfull]
            exact .inl ⟨rfl, trivial⟩
          · simp only [if_neg hfull]
            refine .inr ⟨?_, trivial⟩
            rcases site.allocate_eq with
              ⟨first, world, hbirth, heq⟩ | ⟨result, world, hbirth, hresult, heq⟩
            · rw [heq, hbirth]
              rfl
            · rw [heq, hbirth]
              cases result with
              | ok first => exact absurd rfl (hresult first)
              | error e | panic fault => rfl

theorem checkOut_tended (site : Site) :
    site.world.book.tokens.Tended (· = site.pool.root) site.checkOutCuts
      site.checkOut.2.world.book.tokens := by
  rcases site.checkOut_world with ⟨hworld, hcuts⟩ | ⟨hworld, hcuts⟩
  · rw [hworld, hcuts]
    exact .refl
  · rw [hworld, hcuts]
    exact site.birth_tended

theorem checkOut_sprung (tidy : site.world.book.tokens.Tidy)
    (hroot : site.world.book.tokens.Has site.pool.root) (hidle : site.pool.idle = [])
    (h : site.checkOut = (.ok state, after)) :
    state.Sprung site.world.book.tokens after.world.book.tokens site.pool.root := by
  obtain ⟨born, hbirth, rfl⟩ := checkOut_birth h hidle
  exact { LuaState.create_sprung tidy hroot hbirth with }

/-- What seeding adds to the idle states, and what the hook cancels meanwhile. -/
theorem seed_sprung (site : Site) (count : Nat) (tidy : site.world.book.tokens.Tidy)
    (hroot : site.world.book.tokens.Has site.pool.root) :
    let next := (site.seed count).2
    site.world.book.tokens.Tended (· = site.pool.root) (site.seedCuts count)
        next.world.book.tokens ∧
      ∃ born, next.pool.idle = born ++ site.pool.idle ∧
        (born.map (·.token)).Nodup ∧
        ∀ state ∈ born,
          state.Sprung site.world.book.tokens next.world.book.tokens site.pool.root := by
  induction count generalizing site with
  | zero => exact ⟨.refl, [], rfl, .nil, nofun⟩
  | succ count ih =>
      have born := site.birth_tended
      rcases site.seed_succ count with
        ⟨first, world, hbirth, heq⟩ | ⟨result, world, hbirth, hresult, heq⟩
      · rw [hbirth] at born
        have sprung := LuaState.create_sprung tidy hroot hbirth
        have hallowed (token : Token) (h : token = site.pool.root) :
            site.world.book.tokens.Has token :=
          h ▸ hroot
        have htidy := (born.felled tidy.felled hallowed).tidy
        obtain ⟨tended, later, hidle, hnodup, hsprung⟩ :=
          ih (site.sown first world) htidy (born.extends.has hroot)
        have hne : first.token ≠ site.pool.root := fun h => sprung.fresh (h ▸ hroot)
        rw [heq]
        refine ⟨?_, later ++ [first], ?_, ?_, ?_⟩
        · simp only [seedCuts, hbirth]
          exact born.trans tended
        · rw [hidle, List.append_assoc]
          rfl
        · rw [List.map_append, List.nodup_append]
          refine ⟨hnodup, List.pairwise_singleton _ _, ?_⟩
          intro token htoken other hother
          rw [List.map_singleton, List.mem_singleton] at hother
          obtain ⟨state, hstate, rfl⟩ := List.mem_map.1 htoken
          rintro heq
          refine (hsprung state hstate).fresh ?_
          rw [heq, hother]
          exact sprung.has
        · intro state hstate
          rcases List.mem_append.1 hstate with hstate | hstate
          · exact (hsprung state hstate).since born.extends
          · rw [List.mem_singleton.1 hstate]
            exact sprung.tended tended hne
      · rw [hbirth] at born
        rw [heq]
        refine ⟨?_, [], rfl, .nil, nofun⟩
        simp only [seedCuts, hbirth]
        cases result with
        | ok first => exact absurd rfl (hresult first)
        | error e | panic fault =>
            rw [List.append_nil]
            exact born

/-- Closing the idle states cuts their tokens. -/
theorem closeIdle_tended {allowed : Token → Prop} (site : Site) (idle : List LuaState)
    (hhas : ∀ state ∈ idle, site.world.book.tokens.Has state.token) :
    site.world.book.tokens.Tended allowed (idle.map (·.token))
      (site.closeIdle idle).world.book.tokens := by
  induction idle generalizing site with
  | nil => exact .refl
  | cons state idle ih =>
      rw [List.forall_mem_cons] at hhas
      have cut : site.world.book.tokens.Tended allowed [state.token]
          (site.world.book.tokens.cancel state.token) :=
        TokenForest.hits_of_has hhas.1 ▸ .single _ state.token
      have later := ih ⟨site.pool.emit (.cleanedUp state.id .shutdown), (state.close site.world).2⟩
        fun other hother => cut.extends.has (hhas.2 other hother)
      exact cut.trans later

end Site

/-! ### Contexts -/

namespace ContextBook

variable {book : ContextBook} {token : Token}

/-- Some context that is held has this token. -/
def Carries (book : ContextBook) (token : Token) : Prop :=
  ∃ entry ∈ book.named, entry.2.token = token

instance (book : ContextBook) (token : Token) : Decidable (book.Carries token) :=
  inferInstanceAs (Decidable (∃ entry ∈ book.named, entry.2.token = token))

structure Orderly (book : ContextBook) : Prop where
  tidy : book.tokens.Tidy
  has : ∀ token, book.Carries token → book.tokens.Has token

/-- What a step of a caller cancels. -/
def cuts (book : ContextBook) : ContextAction → List Token
  | .cancel name =>
      match book.get? name with
      | none => []
      | some context => book.tokens.hits context.token
  | _ => []

theorem carries_of_get? {name : String} {context : Context} (h : book.get? name = some context) :
    book.Carries context.token := by
  obtain ⟨key, hmem⟩ : ∃ key, (key, context) ∈ book.named := by
    unfold get? at h
    generalize book.named = named at h ⊢
    induction named with
    | nil => cases h
    | cons entry rest ih =>
        rw [List.lookup_cons] at h
        split at h
        · cases h
          exact ⟨entry.1, List.mem_cons_self⟩
        · obtain ⟨key, hmem⟩ := ih h
          exact ⟨key, List.mem_cons_of_mem _ hmem⟩
  exact ⟨_, hmem, rfl⟩

theorem carries_hold {name : String} {context : Context}
    (h : (book.hold name context).Carries token) : token = context.token ∨ book.Carries token := by
  obtain ⟨entry, hentry, rfl⟩ := h
  rcases List.mem_cons.1 hentry with rfl | hentry
  · exact .inl rfl
  · exact .inr ⟨entry, (List.mem_filter.1 hentry).1, rfl⟩

theorem apply_tended (book : ContextBook) (action : ContextAction) :
    book.tokens.Tended book.Carries (book.cuts action) (book.apply action).tokens := by
  cases action with
  | create name id => exact .root .refl
  | child name parent id =>
      simp only [apply, cuts]
      cases hparent : book.get? parent with
      | none => exact .refl
      | some parent => exact .child .refl (carries_of_get? hparent)
  | clone name source =>
      simp only [apply, cuts]
      cases book.get? source <;> exact .refl
  | label name key value =>
      simp only [apply, cuts]
      cases book.get? name <;> exact .refl
  | adopt name source =>
      simp only [apply, cuts]
      cases book.get? name <;> cases book.get? source <;> exact .refl
  | adoptChild name source =>
      simp only [apply, cuts]
      cases book.get? name with
      | none => exact .refl
      | some context =>
          cases hsource : book.get? source with
          | none => exact .refl
          | some source => exact .child .refl (carries_of_get? hsource)
  | renew name =>
      simp only [apply, cuts]
      cases book.get? name with
      | none => exact .refl
      | some context => exact .root .refl
  | cancel name =>
      simp only [apply, cuts, cancelNamed]
      cases book.get? name with
      | none => exact .refl
      | some context => exact .single _ _
  | drop name => exact .refl

/-- Contexts get tokens of other contexts, or new ones. -/
theorem carries_apply {action : ContextAction} (h : (book.apply action).Carries token) :
    book.Carries token ∨
      ¬ book.tokens.Has token ∧ (book.apply action).tokens.Has token := by
  have hnew {forest : TokenForest} (hsize : forest.nodes.size = book.tokens.nodes.size + 1)
      (htoken : token = ⟨book.tokens.nodes.size⟩) : ¬ book.tokens.Has token ∧ forest.Has token := by
    rw [htoken, TokenForest.Has, TokenForest.Has, hsize]
    exact ⟨Nat.lt_irrefl _, Nat.lt_succ_self _⟩
  cases action with
  | create name id =>
      rcases carries_hold h with htoken | h
      · exact .inr (hnew (by simp [apply, fresh, hold]) htoken)
      · exact .inl h
  | child name parent id =>
      simp only [apply] at h ⊢
      split at h
      · exact .inl h
      · rcases carries_hold h with htoken | h
        · exact .inr (hnew (by simp [derive, hold]) htoken)
        · exact .inl h
  | clone name source =>
      simp only [apply] at h ⊢
      split at h
      · exact .inl h
      · next source hsource =>
          rcases carries_hold h with rfl | h
          · exact .inl (carries_of_get? hsource)
          · exact .inl h
  | label name key value =>
      simp only [apply] at h ⊢
      split at h
      · exact .inl h
      · next context hcontext =>
          rcases carries_hold h with htoken | h
          · have hcarries : book.Carries context.token := carries_of_get? hcontext
            exact .inl (htoken ▸ hcarries)
          · exact .inl h
  | adopt name source =>
      simp only [apply] at h ⊢
      split at h
      · next source _ hsource =>
          rcases carries_hold h with htoken | h
          · have hcarries : book.Carries source.token := carries_of_get? hsource
            exact .inl (htoken ▸ hcarries)
          · exact .inl h
      · exact .inl h
  | adoptChild name source =>
      simp only [apply] at h ⊢
      split at h
      · rcases carries_hold h with htoken | h
        · exact .inr (hnew (by simp [hold]) htoken)
        · exact .inl h
      · exact .inl h
  | renew name =>
      simp only [apply] at h ⊢
      split at h
      · exact .inl h
      · rcases carries_hold h with htoken | h
        · exact .inr (hnew (by simp [hold]) htoken)
        · exact .inl h
  | cancel name =>
      simp only [apply, cancelNamed] at h ⊢
      split at h <;> exact .inl h
  | drop name =>
      obtain ⟨entry, hentry, htoken⟩ := h
      exact .inl ⟨entry, (List.mem_filter.1 hentry).1, htoken⟩

theorem orderly_empty : ({} : ContextBook).Orderly where
  tidy :=
    { older := fun token parent h => by simp [TokenForest.parent?] at h
      heard := fun token parent h => by simp [TokenForest.parent?] at h }
  has token h := by
    obtain ⟨entry, hentry, -⟩ := h
    cases hentry

theorem Orderly.apply (orderly : book.Orderly) (action : ContextAction) :
    (book.apply action).Orderly where
  tidy := ((book.apply_tended action).felled orderly.tidy.felled orderly.has).tidy
  has token h := by
    rcases carries_apply h with h | ⟨-, hhas⟩
    · exact (book.apply_tended action).extends.has (orderly.has token h)
    · exact hhas

end ContextBook

/-! ### Annals -/

namespace System

/-- What callers and hooks cancel with an action, apart from closing or dropping states. -/
def strikes (sys : System) : Action → List Token
  | .context action => sys.site.world.book.cuts action
  | .cancel token => sys.site.world.book.tokens.hits token
  | .touch origin id .cancel =>
      match pick id (sys.states origin) with
      | none => []
      | some (state, _) => sys.site.world.book.tokens.hits state.token
  | .build _ _ _ options hook => LuaState.prepareCuts hook { options } sys.site.world
  | .get request =>
      if sys.isOpen && !sys.site.isCancelled request then sys.site.checkOutCuts else []
  | .checkOut => if sys.isOpen then sys.site.checkOutCuts else []
  | .advance index =>
      if sys.lock = some index then
        match sys.calls[index]? with
        | some { phase := .seeding root, .. } =>
            let pool := sys.site.pool
            Site.seedCuts { sys.site with pool := pool.revived root } pool.config.seeds
        | _ => []
      else []
  | _ => []

/-- The root that a restart was called with whose life begins with an action. -/
def newRoot? (sys : System) : Action → Option Token
  | .advance index =>
      if sys.lock = some index then
        match sys.calls[index]? with
        | some { call := .restart root, phase := .seeding _ } => some root
        | _ => none
      else none
  | _ => none

/-- What callers must have to name a context: they hold it.  So the tokens of states, and those below
them, stay with the states. -/
def genuine (sys : System) : Action → Prop
  | .entrust _ _ token => sys.site.world.book.Carries token
  | .call (.restart root) => sys.site.world.book.Carries root
  | .build parent _ _ _ _ => sys.site.world.book.Carries parent
  | _ => True

instance (sys : System) (action : Action) : Decidable (sys.genuine action) :=
  match action with
  | .entrust _ _ token => inferInstanceAs (Decidable (sys.site.world.book.Carries token))
  | .call (.restart root) => inferInstanceAs (Decidable (sys.site.world.book.Carries root))
  | .build parent _ _ _ _ => inferInstanceAs (Decidable (sys.site.world.book.Carries parent))
  | .call .shutdown | .call .terminate | .tick .. | .context _ | .cancel _ | .touch .. | .get _
  | .checkOut | .part .. | .setStateOptions _ | .look | .advance _ => isTrue trivial

def Genuine (sys : System) : List Action → Prop
  | [] => True
  | action :: actions => sys.genuine action ∧ (sys.step action).2.Genuine actions

def decGenuine (sys : System) : (actions : List Action) → Decidable (sys.Genuine actions)
  | [] => isTrue trivial
  | action :: actions =>
      match decGenuine (sys.step action).2 actions with
      | isTrue rest => decidable_of_iff (sys.genuine action) (and_iff_left rest).symm
      | isFalse rest => isFalse fun h => rest h.2

instance (sys : System) (actions : List Action) : Decidable (sys.Genuine actions) :=
  sys.decGenuine actions

end System

structure Annals where
  /-- The root of the current life. -/
  root : Token
  /-- The roots of earlier lives. -/
  earlier : List Token := []
  /-- What was cancelled by callers and hooks. -/
  struck : List Token
  /-- The root of the life that a state was born in. -/
  origin : StateId → Token

namespace Annals

/-- Before a pool is made, all that is cancelled was cancelled by callers. -/
def start (root : Token) (world : World) : Annals where
  root := root
  struck := ((List.range world.book.tokens.nodes.size).map Token.mk).filter world.isCancelled
  origin _ := root

def enter (annals : Annals) (sys : System) (action : Action) : Annals :=
  let root := (sys.newRoot? action).getD annals.root
  { root
    earlier :=
      if sys.isOpen && (sys.newRoot? action).isSome then annals.root :: annals.earlier
      else annals.earlier
    struck := annals.struck ++ sys.strikes action
    origin := fun id =>
      if .created id ∈ sys.site.pool.news (sys.step action).2.site.pool then root
      else annals.origin id }

def follow (annals : Annals) (sys : System) : List Action → Annals
  | [] => annals
  | action :: actions => (annals.enter sys action).follow (sys.step action).2 actions

end Annals

end StatePool
