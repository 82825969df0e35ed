import StatePool.Hook
import StatePool.Proofs.Bare
import StatePool.Proofs.Conduct

/-!
What stays hooked into interpreters.

A watch is hooked in when work begins and is unhooked when the work returns.  A fault unwinds past
that, but then the state is closed.  So nothing is hooked into a state that waits, or into one that a
caller has just got, as long as callers hook in nothing themselves; and nobody stops what runs past
the pool.
-/

namespace StatePool

/-- Nothing is hooked into the interpreter of the state. -/
def LuaState.Unhooked (state : LuaState) : Prop :=
  ∀ interp, state.interpreter = some interp → interp.hook = none

namespace LuaState

variable {state : LuaState}

theorem unhooked_lasting : Lasting Unhooked :=
  ⟨fun _ _ _ unhooked => unhooked, fun _ unhooked => unhooked⟩

theorem Unhooked.touch (unhooked : state.Unhooked) (world : World) {touch : Touch}
    (tidy : touch.Tidy) : (state.touch world touch).1.Unhooked := by
  cases touch with
  | count | cancel | setServing serving => exact unhooked
  | close =>
      intro interp h
      cases h
  | run code =>
      intro interp h
      obtain ⟨before, hbefore, rfl⟩ := Option.map_eq_some_iff.1 h
      exact tidy before (unhooked before hbefore)

end LuaState

/-! ### New states -/

/-- What this hook prepares is handed over with nothing hooked in. -/
def InitHook.Tidy (hook : InitHook) : Prop :=
  ∀ call world interp next, interp.hook = none → (hook call world interp).result = .ready next →
    next.hook = none

theorem Pool.tidy_kept :
    Pool.Kept fun pool => ∀ hook : InitHook, pool.hook = some hook → hook.Tidy where
  checkOut site tidy := by
    rwa [(Pool.hook_kept site.pool.hook).checkOut site rfl]
  part parting site state tidy := by
    rwa [parting.hook_perform site state]
  configured site options tidy := tidy
  stepped run site tidy := by
    rwa [run.hook_step site]

theorem HookPlan.hook_runScript {text : String} {world : World} {interp next : Script.Interpreter}
    (h : (runScript text world interp).result = .ready next) : next.hook = interp.hook := by
  unfold runScript at h
  split at h
  · cases h
  · next script _ =>
      have hrun := script.hook_runFree [] { interp, world }
      generalize Work.runFree _ = ran at h hrun
      obtain ⟨machine, result⟩ := ran
      cases result with
      | error raise => cases h
      | ok values =>
          cases h
          exact hrun

/-- The hooks that are given as data run scripts at most. -/
theorem HookPlan.toHook_tidy (plan : HookPlan) : plan.toHook.Tidy := by
  intro call world interp next hnone h
  have hequip : (equip call interp).hook = none := by
    simpa [equip, Script.Interpreter.define] using hnone
  unfold toHook at h
  split at h
  · cases h
  · split at h
    · cases h
    · split at h
      · cases h
      · simp only at h
        split at h
        · cases h
          exact hequip
        · exact (hook_runScript h).trans hequip

theorem Site.Bore.unhooked {site : Site} {state : LuaState} (bore : site.Bore state)
    (tidy : ∀ hook : InitHook, site.pool.hook = some hook → hook.Tidy) : state.Unhooked := by
  obtain ⟨before, world, hbirth, hhook, -⟩ := bore
  obtain ⟨interp, ready, hinterp⟩ := (fresh_of_birth hbirth).ready
  intro other hother
  cases hinterp.symm.trans hother
  cases ready with
  | plain => rfl
  | hooked hrun hresult =>
      obtain ⟨hook, hsome, rfl⟩ := Option.map_eq_some_iff.1 hrun
      exact tidy hook (hhook ▸ hsome) _ _ _ _ rfl hresult

/-! ### Work past the pool -/

namespace Task

variable {α β : Type}

/-- Whatever is hooked in stays so while this work is done. -/
structure Keeps (task : Task α) : Prop where
  hook_eq : ∀ scene, (task scene).Throughout fun next => next.interp.hook = scene.interp.hook

theorem keeps_done (result : Outcome ScriptError α) : (done result).Keeps :=
  ⟨fun _ => rfl⟩

theorem Keeps.andThen {first : Task α} {next : α → Task β} (h : first.Keeps)
    (hnext : ∀ a, (next a).Keeps) : (first.andThen next).Keeps := by
  refine ⟨fun scene => (h.hook_eq scene).andThen fun mid result hmid => ?_⟩
  cases result with
  | ok a => exact ((hnext a).hook_eq mid).mono fun last hlast => hlast.trans hmid
  | error e | panic fault => exact hmid

theorem keeps_compile (how : Script.Interpreter → Except ScriptError Script.Program) :
    (compile how).Keeps := by
  refine ⟨fun scene => ?_⟩
  simp only [compile]
  split <;> rfl

theorem keeps_script (program : Script.Program) (arguments : List Script.Value) :
    (script (program.call arguments)).Keeps := by
  refine ⟨fun scene => ?_⟩
  have hcalled := program.hook_throughout arguments
    { interp := scene.interp, world := scene.site.world }
  refine (Work.Throughout.embed hcalled).andThen fun mid result hmid => ?_
  cases result <;> exact hmid

theorem keeps_evaluate (origin : Script.Origin) (text : String) (wanted : Script.Wanted) :
    (evaluate origin text wanted).Keeps := by
  refine (keeps_compile _).andThen fun script => (keeps_script script []).andThen fun values => ?_
  cases wanted.take values <;> exact keeps_done _

/-- Without a watch that is hooked in, the work is done as if there were no watchdogs. -/
theorem Keeps.runOn_eq {task : Task α} (keeps : task.Keeps) {scene : Scene}
    (h : scene.interp.hook = none) : task.runOn scene = (task scene).runFree := by
  have hblind (next : Scene) (hnext : next.interp.hook = scene.interp.hook) :
      next.tick = none := by
    rw [Scene.tick, hnext, h]
    rfl
  simp only [runOn, Work.runFree, (keeps.hook_eq scene).run_congr hblind]

end Task

/-! ### Everybody at once -/

/-- Holders of states hook nothing into them. -/
def Action.Tidy : Action → Prop
  | .touch .pool _ what => what.Tidy
  | _ => True

namespace System

variable {sys mid next : System} {spared fewer : List StateId} {action : Action} {state : LuaState}

/-- Nothing is hooked into a state of the pool, and nothing will be into a new one. -/
structure Unhooked (sys : System) : Prop where
  tidy : ∀ hook : InitHook, sys.site.pool.hook = some hook → hook.Tidy
  states : sys.Common LuaState.Unhooked

theorem Unhooked.act (unhooked : sys.Unhooked) (honest : action.honest = true)
    (tidy : action.Tidy) : (sys.act action).2.Unhooked where
  tidy := pool_act Pool.tidy_kept unhooked.tidy action
  states := by
    refine unhooked.states.act LuaState.unhooked_lasting
      (fun _ bore => bore.unhooked unhooked.tidy) honest fun id touch heq state hstate => ?_
    subst heq
    exact hstate.touch sys.site.world tidy

theorem Unhooked.step (unhooked : sys.Unhooked) (honest : action.honest = true)
    (tidy : action.Tidy) : (sys.step action).2.Unhooked := by
  obtain ⟨htidy, hidle, hheld⟩ := unhooked.act honest tidy
  exact ⟨htidy, hidle, hheld⟩

/-- A fault ends the life of its state, so it does not matter what it has left in there. -/
theorem Unhooked.unwound (unhooked : sys.Unhooked) (hopen : sys.isOpen = true) (id : StateId)
    (code : Script.Interpreter → Script.Interpreter) :
    (sys.settle id code .unwindGuard).Unhooked := by
  cases hpick : pick id sys.held with
  | none => rwa [settle_of_absent hpick]
  | some found =>
      obtain ⟨state, rest⟩ := found
      obtain ⟨rfl, hperm⟩ := perm_of_pick hpick
      obtain ⟨hsite, hheld, -⟩ := settle_eq hopen hpick code .unwindGuard
      refine ⟨?_, ?_, ?_⟩
      · rw [hsite, Parting.hook_perform]
        exact unhooked.tidy
      · rw [hsite]
        simp only [Parting.perform, Site.dropGuardUnwinding, Site.idle_close]
        exact unhooked.states.idle
      · rw [hheld]
        intro other hother
        exact unhooked.states.held other (hperm.mem_iff.2 (List.mem_cons_of_mem _ hother))

/-- What can come of a system while honest callers use it that spare some states and hook nothing
in.  Whatever work does under a watchdog, it ends with the watch unhooked or with a fault. -/
inductive Attended (spared : List StateId) (sys : System) : System → Prop
  | refl : Attended spared sys sys
  | act {mid : System} (h : Attended spared sys mid) {action : Action}
      (honest : action.honest = true) (spares : action.spares spared = true)
      (tidy : action.Tidy) : Attended spared sys (mid.step action).2
  | stir {mid : System} (h : Attended spared sys mid) {world : World}
      (hstates : mid.site.world.states ≤ world.states) :
      Attended spared sys (mid.withWorld world)
  | unwound {mid : System} (h : Attended spared sys mid) (hopen : mid.isOpen = true)
      {id : StateId} (hid : id ∉ spared) (code : Script.Interpreter → Script.Interpreter) :
      Attended spared sys (mid.settle id code .unwindGuard)

theorem Attended.trans (h : sys.Attended spared mid) (later : mid.Attended spared next) :
    sys.Attended spared next := by
  induction later with
  | refl => exact h
  | act _ honest spares tidy ih => exact ih.act honest spares tidy
  | stir _ hstates ih => exact ih.stir hstates
  | unwound _ hopen hid code ih => exact ih.unwound hopen hid code

theorem Attended.mono (h : sys.Attended spared next) (hfewer : ∀ id ∈ fewer, id ∈ spared) :
    sys.Attended fewer next := by
  induction h with
  | refl => exact .refl
  | act _ honest spares tidy ih => exact ih.act honest (Action.spares_mono spares hfewer) tidy
  | stir _ hstates ih => exact ih.stir hstates
  | unwound _ hopen hid code ih => exact ih.unwound hopen (mt (hfewer _) hid) code

theorem Attended.meanwhile (h : sys.Attended spared next) : sys.Meanwhile spared next := by
  induction h with
  | refl => exact .refl
  | act _ honest spares _ ih => exact ih.act honest spares
  | stir _ hstates ih => exact ih.stir hstates
  | @unwound mid _ _ _ hid code ih =>
      exact ih.trans (mid.settle_meanwhile hid code .unwindGuard)

theorem Attended.unhooked (h : sys.Attended spared next) (unhooked : sys.Unhooked) :
    next.Unhooked := by
  induction h with
  | refl => exact unhooked
  | act _ honest _ tidy ih => exact ih.step honest tidy
  | stir _ _ ih => exact ⟨ih.tidy, ih.states.idle, ih.states.held⟩
  | unwound _ hopen _ code ih => exact ih.unwound hopen _ code

/-- Work that is over has left the watch unhooked, or its state is closed. -/
theorem settle_attended (hopen : sys.isOpen = true) {id : StateId} (hid : id ∉ spared)
    {code : Script.Interpreter → Script.Interpreter} {α : Type} {result : Outcome PoolError α}
    (tidy : (∀ fault, result ≠ .panic fault) → (Touch.run code).Tidy) :
    sys.Attended spared (sys.settle id code (Parting.after result)) := by
  have hreturned (parting : Parting) (tidy : (Touch.run code).Tidy) :
      sys.Attended spared (sys.settle id code parting) := by
    have touched : sys.Attended spared (sys.step (.touch .pool id (.run code))).2 :=
      .act .refl rfl (decide_eq_true hid) tidy
    exact touched.act rfl (decide_eq_true hid) trivial
  cases result with
  | ok a => exact hreturned _ (tidy nofun)
  | error e => exact hreturned _ (tidy nofun)
  | panic fault => exact .unwound .refl hopen hid code

/-- A pool that was made with a hook that hooks in nothing, in use by callers who do not either. -/
def Watched (sys : System) : Prop :=
  ∃ config hook root world, Config.Built config ∧
    (∀ init : InitHook, hook = some init → init.Tidy) ∧
    (make config hook root world).Attended [] sys

theorem Watched.lived (watched : sys.Watched) : sys.Lived := by
  obtain ⟨config, hook, root, world, built, -, h⟩ := watched
  exact ⟨config, hook, root, world, built, h.meanwhile⟩

theorem Watched.attended (watched : sys.Watched) (h : sys.Attended spared next) :
    next.Watched := by
  obtain ⟨config, hook, root, world, built, tidy, before⟩ := watched
  exact ⟨config, hook, root, world, built, tidy, before.trans (h.mono nofun)⟩

theorem Watched.unhooked (watched : sys.Watched) : sys.Unhooked := by
  obtain ⟨config, hook, root, world, -, tidy, h⟩ := watched
  exact h.unhooked ⟨tidy, List.forall_mem_nil _, List.forall_mem_nil _⟩

end System

end StatePool
