import StatePool.Proofs.Dealings
import StatePool.Proofs.Kinship

/-!
How each action keeps the states apart.

An action cancels the tokens that it strikes and those of states that it closes or drops, and what
it builds has tokens that nobody had before.
-/

namespace StatePool

namespace Site

variable {site : Site} {state : LuaState}

/-- A state that was given back waits again, or it was dropped or closed and its token with it. -/
inductive HandedBack (site : Site) (state : LuaState) (after : Site) : Prop
  | severed (hroot : after.pool.root = site.pool.root) (hidle : after.pool.idle = site.pool.idle)
      (hworld : after.world = site.world.cancel state.token)
  | requeued (hroot : after.pool.root = site.pool.root)
      (hidle : after.pool.idle = state.setServing site.world.clock false :: site.pool.idle)
      (hworld : after.world = site.world) (hlive : site.isCancelled state.token = false)

theorem retire_handedBack (site : Site) (state : LuaState) (reason : CleanupReason) :
    site.HandedBack state (site.retire state reason).2 := by
  unfold retire
  simp only
  split
  · exact .severed rfl rfl rfl
  · next pool hreleased =>
      obtain ⟨-, hroot, hidle, -⟩ := releaseSlot_same hreleased
      split
      · exact .severed hroot hidle rfl
      · exact .severed hroot hidle rfl

theorem recycle_handedBack (hlive : site.isCancelled state.token = false) :
    site.HandedBack state (site.recycle state).2 := by
  unfold recycle
  simp only
  split
  · exact .severed rfl rfl rfl
  · next pool hreleased =>
      obtain ⟨-, hroot, hidle, -⟩ := releaseSlot_same hreleased
      split
      · exact .requeued hroot (congrArg _ hidle) rfl hlive
      · exact .requeued hroot (congrArg _ hidle) rfl hlive

theorem put_handedBack (site : Site) (state : LuaState) :
    site.HandedBack state (site.put state).2 := by
  unfold put
  split
  · exact .severed rfl rfl rfl
  · split
    · exact retire_handedBack site state .rejected
    · split
      · exact .severed rfl rfl rfl
      · exact retire_handedBack site state _
      · split
        · exact retire_handedBack site state .cancelled
        · next hlive => exact recycle_handedBack (Bool.eq_false_iff.2 hlive)

theorem close_handedBack (site : Site) (state : LuaState) (reason : CleanupReason) :
    site.HandedBack state (site.close state reason).2 := by
  unfold close
  split
  · exact .severed rfl rfl rfl
  · exact retire_handedBack site state reason

end Site

theorem Parting.perform_handedBack (parting : Parting) (site : Site) (state : LuaState) :
    site.HandedBack state (parting.perform site state).2 := by
  cases parting with
  | put => exact site.put_handedBack state
  | dropGuard =>
      have handed := site.put_handedBack state
      simp only [perform, Site.dropGuard]
      split
      · next heq => rwa [heq] at handed
      · next heq => rwa [heq] at handed
  | close => exact site.close_handedBack state .discarded
  | unwindGuard | fail => exact site.close_handedBack state .scriptFailure
  | drop => exact .severed rfl rfl rfl

/-! ### What callers hold -/

theorem World.named_undergoAll (world : World) (effects : List HostEffect) :
    (world.undergoAll effects).book.named = world.book.named := by
  unfold undergoAll
  induction effects generalizing world with
  | nil => rfl
  | cons effect effects ih =>
      refine (ih (world.undergo effect)).trans ?_
      cases effect <;> rfl

theorem LuaState.named_create (parent : Token) (budget idleSeconds : Nat) (options : StateOptions)
    (hook : Option InitHook) (world : World) :
    (create parent budget idleSeconds options hook world).2.book.named = world.book.named := by
  have hprepare : (prepare hook { options } world).2.book.named = world.book.named := by
    cases hook with
    | none => rfl
    | some hook => exact World.named_undergoAll { world with hookCalls := world.hookCalls + 1 } _
  unfold create
  split
  · next h => rwa [h] at hprepare
  · next h => rwa [h] at hprepare
  · next h =>
      rw [h] at hprepare
      split <;> exact hprepare

namespace Site

theorem named_birth (site : Site) : site.birth.2.book.named = site.world.book.named :=
  LuaState.named_create _ _ _ _ _ _

theorem named_checkOut (site : Site) :
    site.checkOut.2.world.book.named = site.world.book.named := by
  rcases site.checkOut_world with ⟨hworld, -⟩ | ⟨hworld, -⟩
  · rw [hworld]
  · rw [hworld]
    exact site.named_birth

theorem named_seed (site : Site) (count : Nat) :
    (site.seed count).2.world.book.named = site.world.book.named := by
  induction count generalizing site with
  | zero => rfl
  | succ count ih =>
      have hbirth := site.named_birth
      rcases site.seed_succ count with ⟨first, world, heq, h⟩ | ⟨result, world, heq, -, h⟩
      · rw [h, ih (site.sown first world)]
        rwa [heq] at hbirth
      · rw [h]
        rwa [heq] at hbirth

theorem named_closeIdle (site : Site) (idle : List LuaState) :
    (site.closeIdle idle).world.book.named = site.world.book.named := by
  induction idle generalizing site with
  | nil => rfl
  | cons state idle ih =>
      exact ih ⟨site.pool.emit (.cleanedUp state.id .shutdown), (state.close site.world).2⟩

end Site

/-! ### Lifecycle calls -/

/-- What a section of a lifecycle call does to the states that wait, and to the world. -/
inductive LifecycleRun.Fared (run : LifecycleRun) (site after : Site) : Prop
  | still (hseeds : run.seedRoot = none) (hroot : after.pool.root = site.pool.root)
      (hidle : after.pool.idle = site.pool.idle) (hworld : after.world = site.world)
  | emptied (hseeds : run.seedRoot = none) (hroot : after.pool.root = site.pool.root)
      (hidle : after.pool.idle = [])
      (hworld : after.world = (Site.closeIdle { site with pool := { site.pool with idle := [] } }
        site.pool.idle.reverse).world)
  | seeded {root : Token} (hphase : run.phase = .seeding root)
      (h : after =
        (Site.seed { site with pool := site.pool.revived root } site.pool.config.seeds).2)

namespace LifecycleRun

variable {run : LifecycleRun} {site : Site}

theorem setStatus_fared (hseeds : run.seedRoot = none) (target : Status) :
    run.Fared site (site.setStatus target) := by
  have hpool : (site.pool.setStatus target).root = site.pool.root := by
    rcases site.pool.setStatus_eq target with h | ⟨-, h⟩ <;> rw [h]
    rfl
  exact .still hseeds hpool (Pool.idle_setStatus site.pool target) rfl

theorem drain_fared (hseeds : run.seedRoot = none) (next : Phase) :
    run.Fared site (run.drain next site).2 := by
  have hexit : run.Fared site site.exit.2 := by
    unfold Site.exit
    simp only
    split
    · exact .still hseeds rfl rfl rfl
    · obtain ⟨world, -, heq⟩ := Site.closeIdle_eq
        { site with pool := { site.pool with idle := [] } } site.pool.idle.reverse
      split
      · exact .emptied hseeds (by rw [heq]) (by rw [heq]) rfl
      · exact .emptied hseeds (by rw [heq]) (by rw [heq]) rfl
  unfold drain
  split
  · exact .still hseeds rfl rfl rfl
  · split
    · next heq => rwa [heq] at hexit
    · next heq => rwa [heq] at hexit
    · next heq => rwa [heq] at hexit

theorem step_fared (fits : run.Fits site.pool) : run.Fared site (run.step site).2 := by
  obtain ⟨call, phase⟩ := run
  cases phase with
  | entering =>
      cases call with
      | restart root =>
          simp only [step]
          split <;> exact .still rfl rfl rfl rfl
      | shutdown | terminate => exact .still rfl rfl rfl rfl
  | closing | undoing e => exact setStatus_fared rfl .exiting
  | draining | undoDraining e => exact drain_fared rfl _
  | starting root =>
      simp only [step]
      split <;> exact .still rfl rfl rfl rfl
  | seeding root =>
      obtain ⟨drained, hstatus⟩ := fits
      have hrestart : site.pool.status.canRestart = true := by
        rcases hstatus with h | h <;> rw [h] <;> rfl
      have hstart := site.start_of_drained root drained hstatus
      refine .seeded rfl ?_
      simp only [step, hrestart, hstart, Bool.not_true, Bool.false_eq_true, ↓reduceIte]
      generalize Site.seed _ _ = result
      rcases result with ⟨_ | e | fault, after⟩ <;> rfl
  | sealing => exact setStatus_fared rfl .dead
  | done result => exact .still rfl rfl rfl rfl

end LifecycleRun

/-! ### Actions -/

namespace LuaState

theorem token_touch (state : LuaState) (world : World) (touch : Touch) :
    (state.touch world touch).1.token = state.token := by
  cases touch <;> rfl

theorem closed_touch (state : LuaState) (world : World) (touch : Touch)
    (h : (state.touch world touch).1.closed = false) : state.closed = false := by
  cases touch with
  | close => cases h
  | count | cancel | setServing serving | run code => exact h

theorem named_touch (state : LuaState) (world : World) (touch : Touch) :
    (state.touch world touch).2.book.named = world.book.named := by
  cases touch <;> rfl

end LuaState

namespace System

variable {sys next : System} {action : Action} {annals : Annals} {token : Token}
  {gone shed : List Token} {state : LuaState} {rest : List LuaState} {origin : Origin}
  {id : StateId}

theorem population_perm (hpick : pick id (sys.states origin) = some (state, rest)) :
    sys.population.Perm (state :: (sys.withStates rest origin).population) := by
  have hperm := (perm_of_pick hpick).2
  cases origin with
  | pool =>
      refine ((hperm.append_left _).append_right _).trans ?_
      exact (List.perm_middle.append_right _)
  | caller => exact (hperm.append_left _).trans List.perm_middle

theorem mem_population_of_pick (hpick : pick id (sys.states origin) = some (state, rest)) :
    state ∈ sys.population :=
  (population_perm hpick).mem_iff.2 List.mem_cons_self

namespace Upkeep

/-- Nothing is built. -/
theorem barren
    (htended : ∃ cuts, sys.tokens.Tended sys.Reserved cuts next.tokens ∧
      ∀ token, token ∈ cuts ↔ token ∈ sys.strikes action ∨ token ∈ shed)
    (hroot : next.site.pool.root = sys.site.pool.root) (hnew : sys.newRoot? action = none)
    (hreserved : ∀ token, next.Reserved token → sys.Reserved token ∨
      ¬ sys.tokens.Has token ∧ next.tokens.Has token)
    (hlodgers : Handed sys.lodgers next.lodgers)
    (hstrangers : Handed sys.strangers next.strangers)
    (hmem : ∀ token ∈ shed, ∃ state ∈ sys.population, state.token = token)
    (hdead : ∀ state ∈ next.population, state.closed = false → state.token ∉ shed) :
    sys.Upkeep action shed [] [] next where
  tended := htended
  root_eq := by rw [hnew, hroot, Option.getD_none]
  reserved token h := by
    rcases hreserved token h with h | ⟨hfresh, hhas⟩
    · exact .inl h
    · exact .inr ⟨hfresh, hhas, fun state hstate => by simp at hstate⟩
  lodgers := ⟨next.lodgers, .refl _, hlodgers, fun h => absurd hnew h⟩
  strangers := ⟨next.strangers, .refl _, hstrangers⟩
  sprung state hstate := by simp at hstate
  once := .nil
  created := List.forall_mem_nil _
  shed_mem := hmem
  shed_dead := hdead

/-- Nothing is built, closed or dropped. -/
theorem calm (htended : sys.tokens.Tended sys.Reserved (sys.strikes action) next.tokens)
    (hroot : next.site.pool.root = sys.site.pool.root) (hnew : sys.newRoot? action = none)
    (hreserved : ∀ token, next.Reserved token → sys.Reserved token ∨
      ¬ sys.tokens.Has token ∧ next.tokens.Has token)
    (hlodgers : Handed sys.lodgers next.lodgers)
    (hstrangers : Handed sys.strangers next.strangers) : sys.Upkeep action [] [] [] next :=
  barren ⟨_, htended, by simp⟩ hroot hnew hreserved hlodgers hstrangers
    (List.forall_mem_nil _) fun _ _ _ => List.not_mem_nil

/-- The world is the same, and so are the states. -/
theorem still (hworld : next.site.world = sys.site.world)
    (hroot : next.site.pool.root = sys.site.pool.root)
    (hidle : next.site.pool.idle = sys.site.pool.idle) (hheld : next.held = sys.held)
    (hstrangers : next.strangers = sys.strangers) (hstrikes : sys.strikes action = [])
    (hnew : sys.newRoot? action = none)
    (hreserved : ∀ token, next.Reserved token → sys.Reserved token) :
    sys.Upkeep action [] [] [] next := by
  refine calm ?_ hroot hnew (fun token h => .inl (hreserved token h)) ?_ ?_
  · rw [hstrikes, tokens, tokens, hworld]
    exact .refl
  · simp only [System.lodgers, hidle, hheld]
    exact .refl _
  · rw [hstrangers]
    exact .refl _

/-- One state is closed or dropped. -/
theorem severed (kin : sys.Kin annals gone) (hmem : state ∈ sys.population)
    (hworld : next.site.world = sys.site.world.cancel state.token)
    (hroot : next.site.pool.root = sys.site.pool.root) (hstrikes : sys.strikes action = [])
    (hnew : sys.newRoot? action = none)
    (hreserved : ∀ token, next.Reserved token → sys.Reserved token)
    (hlodgers : Handed sys.lodgers next.lodgers)
    (hstrangers : Handed sys.strangers next.strangers)
    (hdead : ∀ other ∈ next.population, other.closed = false → other.token ≠ state.token) :
    sys.Upkeep action [state.token] [] [] next := by
  have hhas := (kin.own state hmem).has
  have htokens : next.tokens = sys.tokens.cancel state.token := by
    rw [tokens, hworld]
    rfl
  refine barren ⟨[state.token], ?_, ?_⟩ hroot hnew (fun token h => .inl (hreserved token h))
    hlodgers hstrangers ?_ ?_
  · rw [htokens, ← TokenForest.hits_of_has hhas]
    exact .single _ _
  · simp [hstrikes]
  · intro token h
    exact ⟨state, hmem, (List.mem_singleton.1 h).symm⟩
  · intro other hother hlive h
    exact hdead other hother hlive (List.mem_singleton.1 h)

end Upkeep

/-! ### States that are touched or parted with -/

theorem Kin.ne_of_pick (kin : sys.Kin annals gone)
    (hpick : pick id (sys.states origin) = some (state, rest)) :
    ∀ other ∈ (sys.withStates rest origin).population, other.token ≠ state.token := by
  intro other hother heq
  have honce := kin.once state.token
  rw [((population_perm hpick).map (·.token)).count_eq, List.map_cons,
    List.count_cons_self] at honce
  have hpos : 0 < (((sys.withStates rest origin).population.map (·.token)).count state.token) :=
    List.count_pos_iff.2 (List.mem_map.2 ⟨other, hother, heq⟩)
  omega

theorem handed_of_touch (hpick : pick id (sys.states origin) = some (state, rest)) (world : World)
    {after : LuaState} (hid : after.id = state.id) (htoken : after.token = state.token)
    (hclosed : after.closed = false → state.closed = false) :
    let next := (sys.withWorld world).withStates (after :: rest) origin
    Handed sys.lodgers next.lodgers ∧ Handed sys.strangers next.strangers := by
  have hperm := (perm_of_pick hpick).2
  cases origin with
  | pool =>
      have hall := (hperm.append_left sys.site.pool.idle).trans List.perm_middle
      exact ⟨(Handed.swap hall hid htoken hclosed).perm List.perm_middle.symm, .refl _⟩
  | caller => exact ⟨.refl _, .swap hperm hid htoken hclosed⟩

theorem handed_of_drop (hpick : pick id (sys.states origin) = some (state, rest)) :
    Handed sys.lodgers (sys.withStates rest origin).lodgers ∧
      Handed sys.strangers (sys.withStates rest origin).strangers := by
  have hperm := (perm_of_pick hpick).2
  cases origin with
  | pool => exact ⟨.drop ((hperm.append_left _).trans List.perm_middle), .refl _⟩
  | caller => exact ⟨.refl _, .drop hperm⟩

theorem mem_population_withStates {states : List LuaState} {world : World} {other : LuaState}
    (h : other ∈ ((sys.withWorld world).withStates (state :: states) origin).population) :
    other = state ∨ other ∈ (sys.withStates states origin).population := by
  cases origin <;> simp [population, lodgers, withStates, withWorld] at h ⊢ <;> grind

theorem reserved_withStates {states : List LuaState} {world : World}
    (hnamed : world.book.named = sys.site.world.book.named)
    (h : ((sys.withWorld world).withStates states origin).Reserved token) : sys.Reserved token := by
  unfold Reserved ContextBook.Carries at h ⊢
  rw [← hnamed]
  cases origin <;> exact h

theorem site_withStates (sys : System) (states : List LuaState) (origin : Origin) :
    (sys.withStates states origin).site = sys.site := by
  cases origin <;> rfl

theorem Kin.touch (kin : sys.Kin annals gone) (origin : Origin) (id : StateId) (touch : Touch) :
    ∃ shed, sys.Upkeep (.touch origin id touch) shed [] [] (sys.touch origin id touch).2 := by
  unfold System.touch
  cases hpick : pick id (sys.states origin) with
  | none =>
      refine ⟨[], .still rfl rfl rfl rfl rfl ?_ rfl fun _ h => h⟩
      cases touch <;> simp [strikes, hpick]
  | some found =>
      obtain ⟨state, rest⟩ := found
      have hmem := mem_population_of_pick hpick
      obtain ⟨hlodgers, hstrangers⟩ := handed_of_touch hpick (state.touch sys.site.world touch).2
        (state.id_touch sys.site.world touch) (state.token_touch sys.site.world touch)
        (state.closed_touch sys.site.world touch)
      have hnamed := state.named_touch sys.site.world touch
      have hsite := site_withStates (sys.withWorld (state.touch sys.site.world touch).2)
        ((state.touch sys.site.world touch).1 :: rest) origin
      have spared (htended : sys.tokens.Tended sys.Reserved (sys.strikes (.touch origin id touch))
          (state.touch sys.site.world touch).2.book.tokens) :
          sys.Upkeep (.touch origin id touch) [] [] []
            ((sys.withWorld (state.touch sys.site.world touch).2).withStates
              ((state.touch sys.site.world touch).1 :: rest) origin) := by
        refine .calm ?_ ?_ rfl (fun _ h => .inl (reserved_withStates hnamed h)) hlodgers hstrangers
        · rw [tokens, tokens, hsite]
          exact htended
        · rw [hsite]
          rfl
      cases touch with
      | close =>
          refine ⟨[state.token], .severed kin hmem ?_ ?_ rfl rfl
            (fun _ h => reserved_withStates hnamed h) hlodgers hstrangers ?_⟩
          · rw [hsite]
            rfl
          · rw [hsite]
            rfl
          · intro other hother hlive
            rcases mem_population_withStates hother with rfl | hother
            · cases hlive
            · exact kin.ne_of_pick hpick other hother
      | cancel =>
          refine ⟨[], spared ?_⟩
          simp only [strikes, hpick]
          exact .single _ _
      | count | setServing serving | run code => exact ⟨[], spared .refl⟩

theorem Kin.handedBack (kin : sys.Kin annals gone) (hpick : pick id sys.held = some (state, rest))
    {after : Site} (handed : sys.site.HandedBack state after) (out : List StateId)
    (parting : Parting) :
    ∃ shed, sys.Upkeep (.part .pool id parting) shed [] []
      { sys with site := after, held := rest, out } := by
  have hpick' : pick id (sys.states .pool) = some (state, rest) := hpick
  have hlodgers : Handed sys.lodgers (sys.site.pool.idle ++ rest) := (handed_of_drop hpick').1
  have hreserved {world : World} (hworld : after.world = world)
      (hnamed : world.book.named = sys.site.world.book.named) (token : Token)
      (h : Reserved { sys with site := after, held := rest, out } token) : sys.Reserved token := by
    unfold Reserved ContextBook.Carries at h ⊢
    rwa [hworld, hnamed] at h
  cases handed with
  | severed hroot hidle hworld =>
      refine ⟨[state.token], .severed kin (mem_population_of_pick hpick') hworld hroot rfl rfl
        (hreserved hworld rfl) ?_ (.refl _) ?_⟩
      · rw [← hidle] at hlodgers
        exact hlodgers
      · intro other hother _
        rw [population, lodgers, hidle] at hother
        exact kin.ne_of_pick hpick' other hother
  | requeued hroot hidle hworld =>
      have hall := ((perm_of_pick hpick).2.append_left sys.site.pool.idle).trans List.perm_middle
      refine ⟨[], .calm ?_ hroot rfl (fun token h => .inl (hreserved hworld rfl token h)) ?_
        (.refl _)⟩
      · rw [tokens, tokens, hworld]
        exact .refl
      · simp only [lodgers, hidle]
        exact .swap hall rfl rfl fun h => h

theorem Kin.part (kin : sys.Kin annals gone) (origin : Origin) (id : StateId) (parting : Parting)
    (honest : (Action.part origin id parting).honest = true) :
    ∃ shed, sys.Upkeep (.part origin id parting) shed [] [] (sys.part origin id parting).2 := by
  unfold System.part
  cases hpick : pick id (sys.states origin) with
  | none => exact ⟨[], .still rfl rfl rfl rfl rfl rfl rfl fun _ h => h⟩
  | some found =>
      obtain ⟨state, rest⟩ := found
      cases origin with
      | pool => exact kin.handedBack hpick (parting.perform_handedBack sys.site state) _ parting
      | caller =>
          -- A state of its own a caller can only drop.
          simp only [Action.honest, decide_eq_true_eq] at honest
          subst honest
          obtain ⟨hlodgers, hstrangers⟩ := handed_of_drop hpick
          exact ⟨[state.token], .severed kin (mem_population_of_pick hpick) rfl rfl rfl rfl
            (fun _ h => h) hlodgers hstrangers fun other hother _ =>
              kin.ne_of_pick hpick other hother⟩

/-! ### States that are built -/

theorem Kin.root_reserved (kin : sys.Kin annals gone) : sys.Reserved sys.site.pool.root :=
  .inr (kin.called _ (.inl kin.root_eq))

theorem Reserved.of_same {token : Token} (h : next.Reserved token)
    (hnamed : next.site.world.book.named = sys.site.world.book.named)
    (hcalls : next.calls = sys.calls) : sys.Reserved token := by
  unfold Reserved ContextBook.Carries at h ⊢
  rwa [hnamed, hcalls] at h

theorem created_of_pushes {before after : Pool} {event : Event}
    (h : after.journal = (before.journal.push (.created id)).push event) :
    .created id ∈ before.news after := by
  have happend : after.journal = before.journal ++ [Event.created id, event].toArray :=
    Array.ext' (by simp [h])
  rw [Pool.news_of_append happend]
  exact List.mem_cons_self

theorem Kin.grant (kin : sys.Kin annals gone)
    (hstrikes : sys.strikes action = sys.site.checkOutCuts) (hnew : sys.newRoot? action = none) :
    ∃ born, sys.Upkeep action [] born [] (sys.grant sys.site.checkOut).2 := by
  have hroot := kin.root_reserved
  have hnamed := sys.site.named_checkOut
  have htended : sys.tokens.Tended sys.Reserved _ _ :=
    sys.site.checkOut_tended.mono fun token h => h.symm ▸ hroot
  have hsprung (state : LuaState) (after : Site) (hidle : sys.site.pool.idle = [])
      (h : sys.site.checkOut = (.ok state, after)) :=
    Site.checkOut_sprung kin.felled.tidy (kin.reserved_has _ hroot) hidle h
  have checked := sys.site.checkOut_checkedOut
  rw [← hstrikes] at htended
  generalize sys.site.checkOut = answer at checked hnamed htended hsprung
  cases checked with
  | refused | full | failed | panicked =>
      exact ⟨[], .calm htended rfl hnew (fun token h => .inl (h.of_same hnamed rfl)) (.refl _)
        (.refl _)⟩
  | @reused state idle _ hidle =>
      refine ⟨[], .calm htended rfl hnew (fun token h => .inl (h.of_same hnamed rfl)) ?_
        (.refl _)⟩
      have hall : sys.lodgers.Perm (state :: (idle ++ sys.held)) := by
        rw [lodgers, hidle]
        exact .refl _
      have swapped : Handed sys.lodgers
          ((state.setServing sys.site.world.clock true).countRequest :: (idle ++ sys.held)) :=
        .swap hall rfl rfl fun h => h
      exact swapped.perm List.perm_middle.symm
  | @built state world _ hidle _ _ _ =>
      have sprung := hsprung _ _ hidle rfl
      refine ⟨[(state.setServing world.clock true).countRequest], ?_⟩
      exact
        { tended := ⟨_, htended, by simp⟩
          root_eq := by
            rw [hnew]
            rfl
          reserved := fun token h => .inl (h.of_same hnamed rfl)
          lodgers := by
            refine ⟨sys.held, ?_, ?_, fun h => absurd hnew h⟩
            · simp only [lodgers, System.grant, hidle]
              exact .refl _
            · rw [lodgers, hidle]
              exact .refl _
          strangers := ⟨sys.strangers, .refl _, .refl _⟩
          sprung := by
            intro other h
            simp only [List.mem_singleton, List.not_mem_nil, or_false] at h
            exact ⟨_, h ▸ sprung⟩
          once := List.pairwise_singleton _ _
          created := by
            intro other h
            rw [List.mem_singleton.1 h]
            exact ⟨created_of_pushes rfl, sprung.parent_eq⟩
          shed_mem := List.forall_mem_nil _
          shed_dead := fun _ _ _ => List.not_mem_nil }

theorem Kin.build (kin : sys.Kin annals gone) {parent : Token} (budget idleSeconds : Nat)
    (options : StateOptions) (hook : Option InitHook)
    (hparent : sys.site.world.book.Carries parent) :
    ∃ built, sys.Upkeep (.build parent budget idleSeconds options hook) [] [] built
      (sys.build parent budget idleSeconds options hook).2 := by
  have htended : sys.tokens.Tended sys.Reserved _ _ :=
    LuaState.create_tended (.inl hparent) budget idleSeconds options hook sys.site.world
  have hnamed := LuaState.named_create parent budget idleSeconds options hook sys.site.world
  have hsprung (state : LuaState) (next : World) (h : LuaState.create parent budget idleSeconds
      options hook sys.site.world = (.ok state, next)) :=
    LuaState.create_sprung kin.felled.tidy (kin.reserved_has _ (.inl hparent)) h
  unfold System.build
  generalize LuaState.create _ _ _ _ _ _ = answer at htended hnamed hsprung
  obtain ⟨_ | e | fault, world⟩ := answer
  · next state =>
      have sprung := hsprung _ _ rfl
      refine ⟨[state], ?_⟩
      exact
        { tended := ⟨_, htended, by simp [strikes]⟩
          root_eq := rfl
          reserved := fun token h => .inl (h.of_same hnamed rfl)
          lodgers := ⟨sys.lodgers, .refl _, .refl _, fun h => absurd rfl h⟩
          strangers := ⟨sys.strangers, .refl _, .refl _⟩
          sprung := by
            intro other h
            simp only [List.mem_singleton, List.not_mem_nil, false_or] at h
            exact ⟨_, h ▸ sprung⟩
          once := List.pairwise_singleton _ _
          created := List.forall_mem_nil _
          shed_mem := List.forall_mem_nil _
          shed_dead := fun _ _ _ => List.not_mem_nil }
  · exact ⟨[], .calm htended rfl rfl (fun token h => .inl (h.of_same hnamed rfl)) (.refl _)
      (.refl _)⟩
  · exact ⟨[], .calm htended rfl rfl (fun token h => .inl (h.of_same hnamed rfl)) (.refl _)
      (.refl _)⟩

theorem context_upkeep (sys : System) (action : ContextAction) :
    sys.Upkeep (.context action) [] [] [] (sys.act (.context action)).2 := by
  refine .calm ?_ rfl rfl ?_ (.refl _) (.refl _)
  · exact (sys.site.world.book.apply_tended action).mono fun _ => .inl
  · rintro token (h | h)
    · exact (ContextBook.carries_apply h).imp_left .inl
    · exact .inl (.inr h)

theorem entrust_upkeep (sys : System) (name id : String)
    (genuine : sys.genuine (.entrust name id token)) :
    sys.Upkeep (.entrust name id token) [] [] [] (sys.act (.entrust name id token)).2 := by
  refine .calm .refl rfl rfl ?_ (.refl _) (.refl _)
  rintro other (h | h)
  · rcases ContextBook.carries_hold h with rfl | h
    · exact .inl (.inl genuine)
    · exact .inl (.inl h)
  · exact .inl (.inr h)

theorem call_upkeep (sys : System) {call : LifecycleCall} (genuine : sys.genuine (.call call)) :
    sys.Upkeep (.call call) [] [] [] { sys with calls := sys.calls ++ [{ call }] } := by
  refine .still rfl rfl rfl rfl rfl rfl rfl ?_
  rintro token (h | ⟨run, hrun, heq⟩)
  · exact .inl h
  · rcases List.mem_append.1 hrun with hrun | hrun
    · exact .inr ⟨run, hrun, heq⟩
    · rw [List.mem_singleton.1 hrun] at heq
      simp only at heq
      subst heq
      exact .inl genuine

/-! ### Sections of lifecycle calls -/

section

variable {index : Nat} {run : LifecycleRun}

theorem quiet_of_seedRoot (hcall : sys.calls[index]? = some run) (hseeds : run.seedRoot = none) :
    sys.strikes (.advance index) = [] ∧ sys.newRoot? (.advance index) = none := by
  obtain ⟨call, phase⟩ := run
  cases phase with
  | seeding root => cases hseeds
  | _ => simp [strikes, newRoot?, hcall]

theorem seeding_eq {root : Token} (hlock : sys.lock = some index)
    (hcall : sys.calls[index]? = some run) (hphase : run.phase = .seeding root)
    (hrestart : run.call = .restart root) :
    sys.strikes (.advance index) =
        Site.seedCuts { sys.site with pool := sys.site.pool.revived root }
          sys.site.pool.config.seeds ∧
      sys.newRoot? (.advance index) = some root := by
  obtain ⟨call, phase⟩ := run
  simp only at hphase hrestart
  subst hphase hrestart
  simp [strikes, newRoot?, hlock, hcall]

theorem reserved_of_set {next : LifecycleRun} {after : Site} (hcall : sys.calls[index]? = some run)
    (hnext : next.call = run.call)
    (hnamed : after.world.book.named = sys.site.world.book.named)
    (h : Reserved { sys with site := after, calls := sys.calls.set index next } token) :
    sys.Reserved token := by
  rcases h with h | ⟨other, hother, heq⟩
  · unfold ContextBook.Carries at h
    rw [hnamed] at h
    exact .inl h
  · rcases List.mem_or_eq_of_mem_set hother with hother | rfl
    · exact .inr ⟨other, hother, heq⟩
    · exact .inr ⟨run, List.mem_of_getElem? hcall, hnext.symm.trans heq⟩

theorem mem_population_of_idle (h : state ∈ sys.site.pool.idle) : state ∈ sys.population :=
  List.mem_append_left _ (List.mem_append_left _ h)

theorem Kin.closeIdle_tended (kin : sys.Kin annals gone) {allowed : Token → Prop} :
    sys.tokens.Tended allowed (sys.site.pool.idle.reverse.map (·.token))
      (Site.closeIdle { sys.site with pool := { sys.site.pool with idle := [] } }
        sys.site.pool.idle.reverse).world.book.tokens :=
  Site.closeIdle_tended { sys.site with pool := { sys.site.pool with idle := [] } } _
    fun state hstate => (kin.own state (mem_population_of_idle (List.mem_reverse.1 hstate))).has

theorem Kin.emptied (kin : sys.Kin annals gone) {next : LifecycleRun} {after : Site}
    (hcall : sys.calls[index]? = some run) (hnext : next.call = run.call)
    (hseeds : run.seedRoot = none) (hroot : after.pool.root = sys.site.pool.root)
    (hidle : after.pool.idle = [])
    (hworld : after.world =
      (Site.closeIdle { sys.site with pool := { sys.site.pool with idle := [] } }
        sys.site.pool.idle.reverse).world) :
    sys.Upkeep (.advance index) (sys.site.pool.idle.reverse.map (·.token)) [] []
      { sys with site := after, calls := sys.calls.set index next } := by
  obtain ⟨hstrikes, hnew⟩ := quiet_of_seedRoot hcall hseeds
  have htended : sys.tokens.Tended sys.Reserved _ after.world.book.tokens :=
    hworld ▸ kin.closeIdle_tended
  refine .barren ⟨_, htended, by simp [hstrikes]⟩ hroot hnew ?_ ?_ (.refl _) ?_ ?_
  · intro token h
    refine .inl (reserved_of_set hcall hnext ?_ h)
    rw [hworld]
    exact Site.named_closeIdle _ _
  · rw [lodgers, lodgers, hidle]
    exact .append_left _ _
  · intro token h
    obtain ⟨state, hstate, rfl⟩ := List.mem_map.1 h
    exact ⟨state, mem_population_of_idle (List.mem_reverse.1 hstate), rfl⟩
  · intro state hstate _ h
    rw [population, lodgers, hidle, List.nil_append] at hstate
    rw [List.map_reverse, List.mem_reverse] at h
    -- Somebody holds the state, so its token cannot be one of those that wait as well.
    have honce := kin.once state.token
    have hwaits := List.count_pos_iff.2 h
    have hother := List.count_pos_iff.2 (List.mem_map_of_mem (f := (·.token)) hstate)
    simp only [population, lodgers, List.map_append, List.count_append] at honce hother
    omega

theorem created_of_seeds {pool : Pool} {root : Token} (hidle : pool.idle = [])
    (born : List LuaState) :
    ∀ state ∈ ((pool.revived root).withSeeds born).idle,
      .created state.id ∈ pool.news ((pool.revived root).withSeeds born) := by
  intro state hstate
  have hnil : (pool.revived root).idle = [] := hidle
  simp only [Pool.withSeeds, hnil, List.append_nil] at hstate
  have hjournal : ((pool.revived root).withSeeds born).journal =
      pool.journal ++ (.statusChanged pool.status .running ::
        born.reverse.map fun state => Event.created state.id).toArray := by
    apply Array.ext'
    simp [Pool.withSeeds, Pool.revived, Pool.emit]
  rw [Pool.news_of_append hjournal]
  exact List.mem_cons_of_mem _ (List.mem_map.2 ⟨state, List.mem_reverse.2 hstate, rfl⟩)

theorem Kin.seeded (kin : sys.Kin annals gone) (lived : sys.Lived) {root : Token}
    (hlock : sys.lock = some index) (hcall : sys.calls[index]? = some run)
    (hphase : run.phase = .seeding root) {next : LifecycleRun} {after : Site}
    (hnext : next.call = run.call)
    (hseed : after =
      (Site.seed { sys.site with pool := sys.site.pool.revived root }
        sys.site.pool.config.seeds).2) :
    ∃ born, sys.Upkeep (.advance index) [] born []
      { sys with site := after, calls := sys.calls.set index next } := by
  have fits := lived.sound.fits index run hlock hcall
  have rooted := lived.rooted run (List.mem_of_getElem? hcall)
  simp only [LifecycleRun.Fits, LifecycleRun.Rooted, hphase] at fits rooted
  have drained := fits.1
  -- The pool was drained, so the seeds are all that it has.
  have hheld := (lived.sound.none_out drained).2
  have hroot : sys.Reserved root := .inr ⟨run, List.mem_of_getElem? hcall, rooted⟩
  obtain ⟨hstrikes, hnew⟩ := seeding_eq hlock hcall hphase rooted
  have seeded := Site.seed_seeded { sys.site with pool := sys.site.pool.revived root }
    sys.site.pool.config.seeds
  have hnamed := Site.named_seed { sys.site with pool := sys.site.pool.revived root }
    sys.site.pool.config.seeds
  obtain ⟨htended, born, hidle, hnodup, hsprung⟩ :=
    Site.seed_sprung { sys.site with pool := sys.site.pool.revived root }
      sys.site.pool.config.seeds kin.felled.tidy (kin.reserved_has _ hroot)
  rw [← hstrikes] at htended
  have hafter : after.pool.root = root ∧ ∀ state ∈ after.pool.idle,
      .created state.id ∈ sys.site.pool.news after.pool := by
    rw [hseed]
    generalize Site.seed _ _ = answer at seeded
    cases seeded with
    | complete | failed | panicked => exact ⟨rfl, created_of_seeds drained.idle_eq _⟩
  have hnil : (sys.site.pool.revived root).idle = [] := drained.idle_eq
  rw [← hseed] at htended hnamed hidle hsprung
  rw [hnil, List.append_nil] at hidle
  refine ⟨born, ?_⟩
  exact
    { tended := ⟨_, htended.mono fun token h => h.symm ▸ hroot, by simp⟩
      root_eq := by
        rw [hnew]
        exact hafter.1
      reserved := fun token h => .inl (reserved_of_set hcall hnext hnamed h)
      lodgers := by
        refine ⟨[], ?_, ?_, fun _ => rfl⟩
        · rw [lodgers, hidle, hheld]
        · rw [lodgers, drained.idle_eq, hheld]
          exact .refl _
      strangers := ⟨sys.strangers, .refl _, .refl _⟩
      sprung := by
        intro state h
        simp only [List.not_mem_nil, or_false] at h
        exact ⟨_, hsprung state h⟩
      once := by rwa [List.append_nil]
      created := by
        intro state h
        refine ⟨hafter.2 state (hidle ▸ h), ?_⟩
        rw [hafter.1]
        exact (hsprung state h).parent_eq
      shed_mem := List.forall_mem_nil _
      shed_dead := fun _ _ _ => List.not_mem_nil }

theorem Kin.advanced (kin : sys.Kin annals gone) (lived : sys.Lived)
    (hlock : sys.lock = some index) (hcall : sys.calls[index]? = some run) :
    ∃ shed born, sys.Upkeep (.advance index) shed born []
      { sys with
        site := (run.step sys.site).2
        calls := sys.calls.set index (run.step sys.site).1 } := by
  have fits := lived.sound.fits index run hlock hcall
  have hstep := run.call_step sys.site
  have fared := LifecycleRun.step_fared fits
  generalize run.step sys.site = answer at hstep fared
  obtain ⟨next, after⟩ := answer
  cases fared with
  | still hseeds hroot hidle hworld =>
      obtain ⟨hstrikes, hnew⟩ := quiet_of_seedRoot hcall hseeds
      exact ⟨[], [], .still hworld hroot hidle rfl rfl hstrikes hnew fun token h =>
        reserved_of_set hcall hstep (by rw [hworld]) h⟩
  | emptied hseeds hroot hidle hworld =>
      exact ⟨_, [], kin.emptied hcall hstep hseeds hroot hidle hworld⟩
  | seeded hphase h => exact ⟨[], kin.seeded lived hlock hcall hphase hstep h⟩

theorem Kin.advance (kin : sys.Kin annals gone) (lived : sys.Lived) (index : Nat) :
    ∃ shed born, sys.Upkeep (.advance index) shed born [] (sys.advance index).2 := by
  unfold System.advance
  split
  · next hcall =>
      exact ⟨[], [], .still rfl rfl rfl rfl rfl (by simp [strikes, hcall])
        (by simp [newRoot?, hcall]) fun _ h => h⟩
  · next run hcall =>
      split
      · next hlock =>
          split
          · next hresult =>
              have hseeds : run.seedRoot = none := by
                obtain ⟨call, phase⟩ := run
                cases phase with
                | seeding root => cases hresult
                | _ => rfl
              obtain ⟨hstrikes, hnew⟩ := quiet_of_seedRoot hcall hseeds
              exact ⟨[], [], .still rfl rfl rfl rfl rfl hstrikes hnew fun _ h => h⟩
          · exact kin.advanced lived hlock hcall
      · next hlock =>
          have hstrikes : sys.strikes (.advance index) = [] := if_neg hlock
          have hnew : sys.newRoot? (.advance index) = none := if_neg hlock
          split <;> exact ⟨[], [], .still rfl rfl rfl rfl rfl hstrikes hnew fun _ h => h⟩

end

/-! ### All actions -/

theorem ifOpen_upkeep {answer : Report × System}
    (hstrikes : sys.isOpen = false → sys.strikes action = []) (hnew : sys.newRoot? action = none)
    (h : sys.isOpen = true → ∃ shed born built, sys.Upkeep action shed born built answer.2) :
    ∃ shed born built, sys.Upkeep action shed born built (sys.ifOpen answer).2 := by
  unfold ifOpen
  split
  · next hopen => exact h hopen
  · next hclosed =>
      exact ⟨[], [], [], .still rfl rfl rfl rfl rfl (hstrikes (Bool.eq_false_iff.2 hclosed)) hnew
        fun _ h => h⟩

theorem Kin.act (kin : sys.Kin annals gone) (lived : sys.Lived) (honest : action.honest = true)
    (genuine : sys.genuine action) :
    ∃ shed born built, sys.Upkeep action shed born built (sys.act action).2 := by
  cases action with
  | tick wall monotonic =>
      exact ⟨[], [], [], .calm .refl rfl rfl (fun _ h => .inl h) (.refl _) (.refl _)⟩
  | context action => exact ⟨[], [], [], sys.context_upkeep action⟩
  | entrust name id token => exact ⟨[], [], [], sys.entrust_upkeep name id genuine⟩
  | cancel token =>
      exact ⟨[], [], [], .calm (.single _ token) rfl rfl (fun _ h => .inl h) (.refl _) (.refl _)⟩
  | build parent budget idleSeconds options hook =>
      obtain ⟨built, upkeep⟩ := kin.build budget idleSeconds options hook genuine
      exact ⟨[], [], built, upkeep⟩
  | touch origin id touch =>
      obtain ⟨shed, upkeep⟩ := kin.touch origin id touch
      exact ⟨shed, [], [], upkeep⟩
  | get request =>
      refine ifOpen_upkeep (fun h => by simp [strikes, h]) rfl fun hopen => ?_
      unfold Site.get
      split
      · next hcancelled =>
          exact ⟨[], [], [], .still rfl rfl rfl rfl rfl (by simp [strikes, hcancelled]) rfl
            fun _ h => h⟩
      · next hlive =>
          have hstrikes : sys.strikes (.get request) = sys.site.checkOutCuts := by
            simp [strikes, hopen, hlive]
          obtain ⟨born, upkeep⟩ := kin.grant hstrikes rfl
          exact ⟨[], born, [], upkeep⟩
  | checkOut =>
      refine ifOpen_upkeep (fun h => by simp [strikes, h]) rfl fun hopen => ?_
      have hstrikes : sys.strikes .checkOut = sys.site.checkOutCuts := by
        simp [strikes, hopen]
      obtain ⟨born, upkeep⟩ := kin.grant hstrikes rfl
      exact ⟨[], born, [], upkeep⟩
  | part origin id parting =>
      refine ifOpen_upkeep (fun _ => rfl) rfl fun _ => ?_
      obtain ⟨shed, upkeep⟩ := kin.part origin id parting honest
      exact ⟨shed, [], [], upkeep⟩
  | setStateOptions options =>
      refine ifOpen_upkeep (fun _ => rfl) rfl fun _ => ?_
      exact ⟨[], [], [], .still rfl rfl rfl rfl rfl rfl rfl fun _ h => h⟩
  | look =>
      refine ifOpen_upkeep (fun _ => rfl) rfl fun _ => ?_
      exact ⟨[], [], [], .still rfl rfl rfl rfl rfl rfl rfl fun _ h => h⟩
  | call call =>
      refine ifOpen_upkeep (fun _ => rfl) rfl fun _ => ?_
      exact ⟨[], [], [], sys.call_upkeep genuine⟩
  | advance index =>
      obtain ⟨shed, born, upkeep⟩ := kin.advance lived index
      exact ⟨shed, born, [], upkeep⟩

/-- Whatever callers do, the states keep tokens of their own. -/
theorem Kin.follow (kin : sys.Kin annals gone) (lived : sys.Lived) (honest : action.honest = true)
    (genuine : sys.genuine action) :
    ∃ shed, (sys.step action).2.Kin (annals.enter sys action) (gone ++ shed) := by
  obtain ⟨shed, born, built, upkeep⟩ := kin.act lived honest genuine
  -- Only the log differs, which nothing here is about.
  have noted : sys.Upkeep action shed born built (sys.step action).2 := { upkeep with }
  exact ⟨shed, kin.step noted lived honest⟩

theorem Kin.run {actions : List Action} (kin : sys.Kin annals gone) (lived : sys.Lived)
    (honest : ∀ action ∈ actions, action.honest = true) (genuine : sys.Genuine actions) :
    ∃ shed, (sys.run actions).Kin (annals.follow sys actions) shed := by
  induction actions generalizing sys annals gone with
  | nil => exact ⟨gone, kin⟩
  | cons action actions ih =>
      rw [List.forall_mem_cons] at honest
      obtain ⟨shed, next⟩ := kin.follow lived honest.1 genuine.1
      have hnext : sys.Meanwhile [] (sys.step action).2 := .act .refl honest.1 action.spares_nil
      exact ih next (lived.meanwhile hnext) honest.2 genuine.2

end System

end StatePool
