import StatePool.Proofs.Actions

/-!
Whatever honest callers do, and in whatever order, a pool stays in order.
-/

namespace StatePool

namespace LifecycleRun.Stepped

variable {run next : LifecycleRun} {site after : Site} {held : List LuaState}
  {out : List StateId} {strangers : List LuaState}

theorem books (h : Stepped run site (next, after)) (fits : run.Fits site.pool)
    (kept : Books site held out strangers) : Books after held out strangers := by
  cases h with
  | entered | refused | looked => exact kept
  | closed hnext => exact kept.setStatus .exiting
  | asleep hnext hserving => exact kept.asleep hserving
  | drained hnext hserving hstates => exact kept.emptied hserving hstates _
  | @seeded root _ _ hphase seeded =>
      have hlength : site.pool.length = 0 := by
        simp only [Fits, hphase] at fits
        exact fits.1.length_eq
      have revived : Books { site with pool := site.pool.revived root } held out strangers :=
        { kept with }
      exact revived.seeded hlength (Nat.le_refl _) seeded
  | sealed hphase => exact kept.setStatus .dead

theorem status_ne_ready (h : Stepped run site (next, after)) (fits : run.Fits site.pool)
    (hready : site.pool.status ≠ .ready ∨ next.result? = some (.ok ())) :
    after.pool.status ≠ .ready := by
  intro hafter
  cases h with
  | entered => simp_all [result?]
  | refused => simp_all [result?]
  | looked => simp_all [result?]
  | closed => simpa [hafter, Status.accepts] using accepts_readyExit site
  | asleep hnext =>
      have haccepts := fits.accepts_of_drain hnext
      simp only at hafter
      simp [hafter, Status.accepts] at haccepts
  | drained hnext =>
      have haccepts := fits.accepts_of_drain hnext
      simp only at hafter
      simp [hafter, Status.accepts] at haccepts
  | seeded hphase seeded => cases seeded <;> cases hafter
  | sealed hphase =>
      simp only [Fits, hphase] at fits
      have haccepts := accepts_setStatus_dead fits.2
      simp only [Site.setStatus] at hafter
      simp [hafter, Status.accepts] at haccepts

theorem isBreach_report (h : Stepped run site (next, after)) (hresult : run.result? = none) :
    next.report.isBreach = false := by
  cases h with
  | entered | refused | looked | sealed => rfl
  | asleep => simp [report, hresult, Report.isBreach]
  | closed hnext =>
      obtain ⟨call, phase⟩ := run
      cases phase with
      | closing | undoing e =>
          cases hnext
          rfl
      | _ => cases hnext
  | drained hnext =>
      obtain ⟨call, phase⟩ := run
      cases phase with
      | draining =>
          cases hnext
          cases call <;> rfl
      | undoDraining e =>
          cases hnext
          rfl
      | _ => cases hnext
  | seeded hphase seeded =>
      cases seeded with
      | complete | failed => rfl
      | panicked hfault => exact hfault

theorem parked_eq (h : Stepped run site (next, after)) (hdrain : run.behindDrain = none) :
    after.pool.parked = site.pool.parked := by
  cases h with
  | entered | refused | looked => rfl
  | closed => exact site.pool.parked_setStatus .exiting
  | sealed => exact site.pool.parked_setStatus .dead
  | asleep hnext => cases hdrain.symm.trans hnext
  | drained hnext => cases hdrain.symm.trans hnext
  | seeded _ seeded => cases seeded <;> rfl

/-- Only a drain puts the pool to sleep, and only one that has to wait. -/
theorem parked (h : Stepped run site (next, after)) (later : Books after held out strangers)
    (hawake : run.behindDrain = none → site.pool.parked = false)
    (hparked : after.pool.parked = true) : next.behindDrain ≠ none := by
  cases hdrain : run.behindDrain with
  | none =>
      rw [h.parked_eq hdrain, hawake hdrain] at hparked
      cases hparked
  | some phase =>
      rcases h.of_drain hdrain with ⟨rfl, -⟩ | ⟨-, -, drained⟩
      · simp [hdrain]
      · have hpos := later.parked_serving hparked
        rw [drained.serving_eq] at hpos
        exact absurd hpos (Nat.lt_irrefl 0)

end LifecycleRun.Stepped

namespace System

variable {sys : System} {site : Site} {held : List LuaState} {out : List StateId}
  {strangers : List LuaState}

theorem isOpen_iff (sys : System) :
    sys.isOpen = true ↔ ∃ run, sys.calls[0]? = some run ∧ run.phase = .done (.ok ()) := by
  unfold isOpen
  rw [List.head?_eq_getElem?]
  constructor
  · intro h
    split at h
    · next hcall => exact ⟨_, hcall, rfl⟩
    · cases h
  · rintro ⟨⟨call, phase⟩, hcall, rfl⟩
    rw [hcall]

/-- The pool itself is as it was. -/
theorem Sound.around (sound : sys.Sound) (hpool : site.pool = sys.site.pool)
    (books : Books site held sys.out strangers) (hheld : sys.held = [] → held = []) :
    Sound { sys with site, held, strangers } where
  books := books
  fits index run hlock hcall := hpool ▸ sound.fits index run hlock hcall
  waits := sound.waits
  parked hparked := sound.parked (hpool ▸ hparked)
  opened hopen := hpool ▸ sound.opened hopen
  unopened hopen := ⟨hheld (sound.unopened hopen).1, (sound.unopened hopen).2⟩

/-- Callers use an open pool. -/
theorem Sound.used (sound : sys.Sound) (hopen : sys.isOpen = true)
    (books : Books site held out strangers) (hstatus : site.pool.status = sys.site.pool.status)
    (hparked : site.pool.parked = true → sys.site.pool.parked = true)
    (hdrained : sys.site.pool.status.accepts = false → sys.site.pool.Drained →
      site.pool.Drained) :
    Sound { sys with site, held, out, strangers } where
  books := books
  fits index run hlock hcall :=
    (sound.fits index run hlock hcall).mono (sound.opened hopen) hstatus hdrained
  waits := sound.waits
  parked h := sound.parked (hparked h)
  opened _ := hstatus ▸ sound.opened hopen
  unopened h := absurd (hopen.symm.trans h) nofun

theorem Sound.granted (sound : sys.Sound) (hopen : sys.isOpen = true)
    {result : Outcome PoolError LuaState} (h : Site.CheckedOut sys.site (result, site)) :
    (sys.grant (result, site)).2.Sound := by
  have books := sound.books.checkOut h
  cases h with
  | refused haccepts => exact sound.around rfl books id
  | full hidle hcapacity hlength =>
      exact sound.used hopen books rfl id fun _ drained => { drained with }
  | failed hstates => exact sound.around rfl books id
  | panicked hfault hstates => exact sound.around rfl books id
  | reused haccepts hidle =>
      refine sound.used hopen books rfl id fun h _ => ?_
      rw [haccepts] at h
      cases h
  | built haccepts hidle hroom newborn hstates =>
      refine sound.used hopen books rfl id fun h _ => ?_
      rw [haccepts] at h
      cases h

/-- Nobody can part with a state of a drained pool. -/
theorem Sound.not_drained (sound : sys.Sound) {state : LuaState} {rest : List LuaState}
    (hperm : sys.held.Perm (state :: rest)) : ¬ sys.site.pool.Drained := by
  intro drained
  have hmem := (sound.books.lent_apart hperm).1
  have hpos := List.length_pos_of_mem hmem
  rw [← sound.books.serving_eq, drained.serving_eq] at hpos
  exact Nat.lt_irrefl 0 hpos

theorem Sound.took (sound : sys.Sound) (hopen : sys.isOpen = true) {state : LuaState}
    {rest : List LuaState} (hperm : sys.held.Perm (state :: rest))
    {result : Outcome PoolError Unit} (h : Site.Parted sys.site state (result, site)) :
    ({ sys with held := rest }.takeBack state.id (result, site)).2.Sound := by
  have books := sound.books.part hperm h
  have hdrained : sys.site.pool.status.accepts = false → sys.site.pool.Drained →
      site.pool.Drained :=
    fun _ drained => absurd drained (sound.not_drained hperm)
  have hparked (b : Bool) (hb : (sys.site.pool.parked && b) = true) :
      sys.site.pool.parked = true := by
    simp only [Bool.and_eq_true] at hb
    exact hb.1
  cases h with
  | kept hresult hstates => exact sound.used hopen books rfl id hdrained
  | retired hresult hclosed hstates => exact sound.used hopen books rfl (hparked _) hdrained
  | recycled hresult hclosed haccepts hsince =>
      exact sound.used hopen books rfl (hparked _) hdrained

/-- A call that was just made has not begun. -/
theorem called_cases {call : LifecycleCall} {index : Nat} {run : LifecycleRun}
    (h : (sys.calls ++ [{ call := call }])[index]? = some run) :
    sys.calls[index]? = some run ∨ run = { call := call } := by
  rw [List.getElem?_append] at h
  split at h
  · exact .inl h
  · rw [List.getElem?_singleton] at h
    split at h
    · exact .inr (Option.some.inj h).symm
    · cases h

theorem Sound.called (sound : sys.Sound) (hopen : sys.isOpen = true) (call : LifecycleCall) :
    Sound { sys with calls := sys.calls ++ [{ call }] } := by
  have hpos : 0 < sys.calls.length := by
    obtain ⟨run, hcall, -⟩ := sys.isOpen_iff.1 hopen
    exact (List.getElem?_eq_some_iff.1 hcall).1
  have hopen' : isOpen { sys with calls := sys.calls ++ [{ call }] } = true := by
    rw [isOpen_iff] at hopen ⊢
    rw [List.getElem?_append_left hpos]
    exact hopen
  exact
    { books := sound.books
      fits := fun index run hlock hcall => by
        rcases called_cases hcall with h | rfl
        · exact sound.fits index run hlock h
        · trivial
      waits := fun index run hlock hcall => by
        rcases called_cases hcall with h | rfl
        · exact sound.waits index run hlock h
        · exact .inl rfl
      parked := fun hparked => by
        obtain ⟨index, run, hlock, hcall, hdrain⟩ := sound.parked hparked
        have hlt := (List.getElem?_eq_some_iff.1 hcall).1
        exact ⟨index, run, hlock, (List.getElem?_append_left hlt).trans hcall, hdrain⟩
      opened := fun _ => sound.opened hopen
      unopened := fun h => absurd (hopen'.symm.trans h) nofun }

/-- Nothing sleeps if the call that holds the lifecycle lock is not in a drain. -/
theorem Sound.awake (sound : sys.Sound) {index : Nat} {run : LifecycleRun}
    (hlock : sys.lock = some index) (hcall : sys.calls[index]? = some run)
    (hdrain : run.behindDrain = none) : sys.site.pool.parked = false := by
  rw [Bool.eq_false_iff]
  intro hparked
  obtain ⟨other, run', hother, hcall', hdrain'⟩ := sound.parked hparked
  cases hlock.symm.trans hother
  cases hcall.symm.trans hcall'
  exact hdrain' hdrain

theorem Sound.locked (sound : sys.Sound) (hlock : sys.lock = none) {index : Nat}
    {run : LifecycleRun} (hcall : sys.calls[index]? = some run) (hphase : run.phase = .entering) :
    Sound { sys with lock := some index } where
  books := sound.books
  fits other run' hother hcall' := by
    cases hother
    cases hcall.symm.trans hcall'
    simp only [LifecycleRun.Fits, hphase]
  waits other run' _ hcall' := sound.waits other run' (by simp [hlock]) hcall'
  parked hparked := by
    obtain ⟨other, run', hother, -⟩ := sound.parked hparked
    simp [hlock] at hother
  opened := sound.opened
  unopened := sound.unopened

theorem Sound.unlocked (sound : sys.Sound) {index : Nat} {run : LifecycleRun}
    (hlock : sys.lock = some index) (hcall : sys.calls[index]? = some run)
    (hresult : run.result? ≠ none) : Sound { sys with lock := none } where
  books := sound.books
  fits other run' hother := by cases hother
  waits other run' _ hcall' := by
    by_cases heq : other = index
    · subst heq
      cases hcall.symm.trans hcall'
      exact .inr hresult
    · refine sound.waits other run' (fun h => heq ?_) hcall'
      rw [hlock] at h
      exact (Option.some.inj h).symm
  parked hparked := by
    have hdrain : run.behindDrain = none := by
      obtain ⟨call, phase⟩ := run
      cases phase with
      | done result => rfl
      | _ => exact absurd rfl hresult
    simp only [sound.awake hlock hcall hdrain] at hparked
    cases hparked
  opened := sound.opened
  unopened := sound.unopened

theorem isOpen_set {index : Nat} {run next : LifecycleRun} (hcall : sys.calls[index]? = some run)
    (hresult : run.result? = none) :
    isOpen { sys with site, calls := sys.calls.set index next } = true ↔
      sys.isOpen = true ∨ index = 0 ∧ next.result? = some (.ok ()) := by
  have hlt := (List.getElem?_eq_some_iff.1 hcall).1
  have hdone : next.phase = .done (.ok ()) ↔ next.result? = some (.ok ()) := by
    obtain ⟨call, phase⟩ := next
    cases phase <;> simp [LifecycleRun.result?]
  rw [isOpen_iff, isOpen_iff]
  cases index with
  | zero =>
      have hclosed : ¬ ∃ run, sys.calls[0]? = some run ∧ run.phase = .done (.ok ()) := by
        rintro ⟨run', hcall', hphase⟩
        cases hcall.symm.trans hcall'
        simp [LifecycleRun.result?, hphase] at hresult
      rw [List.getElem?_set_self hlt]
      simp [hclosed, hdone]
  | succ index => simp

theorem Sound.advanced (sound : sys.Sound) {index : Nat} {run next : LifecycleRun}
    (hlock : sys.lock = some index) (hcall : sys.calls[index]? = some run)
    (hresult : run.result? = none) (h : run.Stepped sys.site (next, site)) :
    Sound { sys with site, calls := sys.calls.set index next } := by
  have hlt := (List.getElem?_eq_some_iff.1 hcall).1
  have fits := sound.fits index run hlock hcall
  have books := h.books fits sound.books
  have hopen : isOpen { sys with site, calls := sys.calls.set index next } = true ↔ _ :=
    isOpen_set hcall hresult
  exact
    { books := books
      fits := fun other run' hother hcall' => by
        rw [hlock] at hother
        cases hother
        rw [List.getElem?_set_self hlt] at hcall'
        cases hcall'
        exact h.fits fits
      waits := fun other run' hother hcall' => by
        have hne : index ≠ other := fun heq => hother (heq ▸ hlock)
        rw [List.getElem?_set_ne hne] at hcall'
        exact sound.waits other run' hother hcall'
      parked := fun hparked => by
        have hnext := h.parked books (sound.awake hlock hcall) hparked
        exact ⟨index, next, hlock, List.getElem?_set_self hlt, hnext⟩
      opened := fun hnext => by
        rcases hopen.1 hnext with hbefore | ⟨-, hdone⟩
        · exact h.status_ne_ready fits (.inl (sound.opened hbefore))
        · exact h.status_ne_ready fits (.inr hdone)
      unopened := fun hnext => by
        refine sound.unopened ?_
        rw [Bool.eq_false_iff] at hnext ⊢
        exact fun hbefore => hnext (hopen.2 (.inl hbefore)) }

theorem Acted.sound {action : Action} {answer : Report × System} (h : Acted sys action answer)
    (sound : sys.Sound) : answer.2.Sound := by
  cases h with
  | stirred quiet hstates => exact sound.around rfl (sound.books.withWorld hstates) id
  | adopted newborn hstates =>
      exact sound.around rfl (sound.books.addStranger newborn hstates) id
  | alienated hstates hcount =>
      have books := sound.books.withWorld (Nat.le_of_eq hstates.symm)
      exact sound.around rfl (books.replaceStrangers hcount) id
  | @touched id touch state rest honest hperm =>
      have books := sound.books.withWorld
        (Nat.le_of_eq (state.states_touch sys.site.world touch).symm)
      refine sound.around rfl (books.touch hperm honest _) fun hheld => ?_
      rw [hheld] at hperm
      exact absurd hperm.length_eq nofun
  | checkedOut hopen checked => exact sound.granted hopen checked
  | parted hopen hperm parted => exact sound.took hopen hperm parted
  | configured hopen =>
      exact sound.used hopen (sound.books.setStateOptions _) rfl id
        fun _ drained => { drained with }
  | called hopen => exact sound.called hopen _
  | locked hlock hcall hphase => exact sound.locked hlock hcall hphase
  | unlocked hlock hcall hresult => exact sound.unlocked hlock hcall hresult
  | advanced hlock hcall hresult stepped => exact sound.advanced hlock hcall hresult stepped

/-- What can come of making a pool and of any actions of honest callers, in any order. -/
inductive Reachable : System → Prop
  | made {config : Config} (h : config.Built) (hook : Option InitHook) (root : Token)
      (world : World) : Reachable (make config hook root world)
  | step {sys : System} (h : Reachable sys) {action : Action} (honest : action.honest = true) :
      Reachable (sys.step action).2

/-- A world with one token, which nobody cancelled. -/
def clean : World := { book := (({} : ContextBook).fresh backgroundId).2 }

theorem sound_make {config : Config} (h : config.Built) (hook : Option InitHook) (root : Token)
    (world : World) : (make config hook root world).Sound where
  books :=
    { seeds_le := h.seeds_le
      length_eq := rfl
      serving_eq := rfl
      length_le := fun _ => Nat.zero_le _
      once := fun _ => Nat.zero_le _
      held_once := fun _ => Nat.zero_le _
      idle_born := nofun
      out_born := nofun
      strangers_born := nofun
      idle_rests := nofun
      held_lent := nofun
      parked_serving := nofun }
  fits index run hlock hcall := by
    cases hlock
    cases hcall
    exact ⟨⟨rfl, rfl, rfl⟩, .inr rfl⟩
  waits index run hlock hcall := by
    cases index with
    | zero => exact absurd rfl hlock
    | succ index => cases hcall
  parked := nofun
  opened := nofun
  unopened _ := ⟨rfl, rfl⟩

theorem Reachable.sound (h : sys.Reachable) : sys.Sound := by
  induction h with
  | made h hook root world => exact sound_make h hook root world
  | step h honest ih =>
      have next := (act_acted ih honest).sound ih
      -- Only the log differs, which nothing here is about.
      exact { next with }

theorem Reachable.run {actions : List Action} (h : sys.Reachable)
    (honest : ∀ action ∈ actions, action.honest = true) : (sys.run actions).Reachable := by
  induction actions generalizing sys with
  | nil => exact h
  | cons action actions ih =>
      rw [List.forall_mem_cons] at honest
      exact ih (h.step honest.1) honest.2

end System

end StatePool
