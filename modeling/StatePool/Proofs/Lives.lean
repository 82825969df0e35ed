import StatePool.Proofs.Births
import StatePool.Proofs.Drain
import StatePool.Proofs.Meanwhile

/-!
The lives of a pool have no states in common.

A drain that completes leaves no state behind, neither in the pool nor with its callers.  So
whatever is found there later was born later, and the life that a restart begins has its own seeds
only.
-/

namespace StatePool

namespace Ledger

variable {start ledger : Ledger} {entries : List (Event × Int)} {id : StateId}

/-- What a ledger shows was there from its start, or was created on the way. -/
theorem Follows.mem_cases (h : start.Follows entries ledger)
    (hmem : id ∈ ledger.idle ∨ id ∈ ledger.out) :
    (id ∈ start.idle ∨ id ∈ start.out) ∨ .created id ∈ entries.map (·.1) := by
  induction h with
  | nil => exact .inl hmem
  | @snoc entries entry mid next _ entered ih =>
      rw [List.map_append, List.mem_append]
      have hearlier (h : id ∈ mid.idle ∨ id ∈ mid.out) :
          (id ∈ start.idle ∨ id ∈ start.out) ∨
            .created id ∈ entries.map (·.1) ∨ .created id ∈ [entry].map (·.1) :=
        (ih h).imp_right Or.inl
      cases entered with
      | created =>
          rcases hmem with h | h
          · rcases List.mem_cons.1 h with rfl | h
            · exact .inr (.inr List.mem_cons_self)
            · exact hearlier (.inl h)
          · exact hearlier (.inr h)
      | acquired hidle =>
          apply hearlier
          rw [hidle]
          rcases hmem with h | h
          · exact .inl (List.mem_cons_of_mem _ h)
          · rcases List.mem_cons.1 h with rfl | h
            · exact .inl List.mem_cons_self
            · exact .inr h
      | released hout =>
          apply hearlier
          rcases hmem with h | h
          · rcases List.mem_cons.1 h with rfl | h
            · exact .inr hout
            · exact .inl h
          · exact .inr (List.mem_of_mem_erase h)
      | closedIdle => exact hearlier (hmem.imp_left List.mem_of_mem_erase)
      | closedOut => exact hearlier (hmem.imp_right List.mem_of_mem_erase)
      | poolFull | statusChanged => exact hearlier hmem

theorem Follows.number_lt (h : Follows {} entries ledger) {event : Event}
    (hevent : event ∈ entries.map (·.1)) (hid : event.state? = some id) :
    id.number < ledger.bound := by
  obtain ⟨tidy, course⟩ := h.course id
  obtain ⟨entry, hentry, rfl⟩ := List.mem_map.1 hevent
  have hmem : entry ∈ historyOf id entries := by simp [historyOf, hentry, hid]
  generalize historyOf id entries = history at course hmem
  cases course with
  | unborn => cases hmem
  | waiting hidle => exact tidy.below id (.inl hidle)
  | lent hout => exact tidy.below id (.inr hout)
  | gone _ _ hbound => exact hbound

end Ledger

namespace System

variable {sys drained later : System} {id : StateId}

/-- Where a state of a pool can be. -/
def Present (sys : System) (id : StateId) : Prop :=
  id ∈ sys.site.pool.idle.map (·.id) ∨ id ∈ sys.out ∨ id ∈ sys.held.map (·.id)

/-- Nothing of a pool that was drained is there later. -/
structure Renewed (drained : System) : Prop where
  born : ∀ later, drained.Meanwhile [] later → ∀ id, later.Present id →
    .created id ∈ drained.site.pool.news later.site.pool
  absent : ∀ later, drained.Meanwhile [] later → ∀ id,
    .created id ∈ drained.site.pool.journal → ¬ later.Present id
  granted : ∀ later, drained.Meanwhile [] later → ∀ action : Action, action.honest = true →
    ∀ state, (later.step action).1 = .granted state →
      .created state.id ∈ drained.site.pool.news (later.step action).2.site.pool ∧
        Event.created state.id ∉ drained.site.pool.journal

theorem Sound.present_iff (sound : sys.Sound) :
    sys.Present id ↔ id ∈ sys.site.pool.idle.map (·.id) ∨ id ∈ sys.out := by
  constructor
  · rintro (h | h | h)
    · exact .inl h
    · exact .inr h
    · obtain ⟨state, hstate, rfl⟩ := List.mem_map.1 h
      exact .inr (sound.books.out_of_held hstate)
  · rintro (h | h)
    · exact .inl h
    · exact .inr (.inl h)

/-- A state that is handed out is out. -/
theorem Acted.out_of_granted {action : Action} {answer : Report × System}
    (h : Acted sys action answer) {state : LuaState} (hgrant : answer.1 = .granted state) :
    state.id ∈ answer.2.out := by
  have hreport : answer.1.isGrant = true := by rw [hgrant]; rfl
  cases h with
  | @checkedOut _ result site =>
      cases result with
      | ok other =>
          cases hgrant
          exact List.mem_cons_self
      | error e | panic fault => cases hgrant
  | stirred quiet => exact absurd (quiet.isGrant.symm.trans hreport) Bool.false_ne_true
  | parted => exact absurd (Report.isGrant_ofOutcome.symm.trans hreport) Bool.false_ne_true
  | @advanced _ _ next =>
      exact absurd (next.isGrant_report.symm.trans hreport) Bool.false_ne_true
  | adopted | alienated | touched | configured | called | locked | unlocked => cases hreport

/-- A pool that was drained has no states with its callers. -/
theorem Sound.none_out (sound : sys.Sound) (hdrained : sys.site.pool.Drained) :
    sys.out = [] ∧ sys.held = [] := by
  have hout : sys.out = [] := by
    rw [← List.length_eq_zero_iff, ← sound.books.serving_eq, hdrained.serving_eq]
  refine ⟨hout, List.eq_nil_iff_forall_not_mem.2 ?_⟩
  intro state hstate
  have hmem := sound.books.out_of_held hstate
  rw [hout] at hmem
  cases hmem

theorem Lived.renewed (lived : drained.Lived) (hdrained : drained.site.pool.Drained) :
    drained.Renewed := by
  obtain ⟨ledger, entries, agrees, follows, hjournal⟩ := lived.recounts
  -- The ledger shows nothing at the end of the drain, so what it shows later came up since.
  have hout := (lived.sound.none_out hdrained).1
  have hempty : ledger.idle = [] ∧ ledger.out = [] := by
    rw [agrees.idle_eq, agrees.out_eq, hdrained.idle_eq, hout]
    exact ⟨rfl, rfl⟩
  have hborn (later : System) (h : drained.Meanwhile [] later) (id : StateId)
      (hpresent : later.Present id) :
      .created id ∈ drained.site.pool.news later.site.pool := by
    obtain ⟨more, last, hnews, hmore, hlast⟩ := h.recounts lived.sound agrees
    have hmem : id ∈ last.idle ∨ id ∈ last.out := by
      rw [hlast.idle_eq, hlast.out_eq]
      exact (h.sound lived.sound).present_iff.1 hpresent
    have happend : later.site.pool.journal =
        drained.site.pool.journal ++ (more.map (·.1)).toArray := by
      apply Array.ext'
      simpa using hnews
    rw [Pool.news_of_append happend]
    rcases hmore.mem_cases hmem with h | h
    · rw [hempty.1, hempty.2] at h
      rcases h with h | h <;> cases h
    · exact h
  have habsent (later : System) (h : drained.Meanwhile [] later) (id : StateId)
      (hcreated : .created id ∈ drained.site.pool.journal) : ¬ later.Present id := by
    have hbound : id.number < ledger.bound := by
      refine follows.number_lt ?_ (rfl : (Event.created id).state? = some id)
      rw [hjournal]
      simpa using hcreated
    have gone : ledger.Gone id := by
      refine ⟨?_, ?_, hbound⟩
      · rw [hempty.1]
        exact List.not_mem_nil
      · rw [hempty.2]
        exact List.not_mem_nil
    obtain ⟨more, last, -, hmore, hlast⟩ := h.recounts lived.sound agrees
    obtain ⟨-, hlater⟩ := hmore.gone gone
    rw [(h.sound lived.sound).present_iff, ← hlast.idle_eq, ← hlast.out_eq]
    rintro (h | h)
    · exact hlater.idle h
    · exact hlater.out h
  refine ⟨hborn, habsent, ?_⟩
  intro later h action honest state hgrant
  have hnext : drained.Meanwhile [] (later.step action).2 := h.act honest action.spares_nil
  have acted := act_acted (h.sound lived.sound) honest
  have hpresent : (later.step action).2.Present state.id :=
    .inr (.inl (acted.out_of_granted hgrant))
  refine ⟨hborn _ hnext _ hpresent, ?_⟩
  intro hcreated
  exact habsent _ hnext _ hcreated hpresent

end System

/-! ### The beginning of a life -/

namespace Site

variable {site after : Site} {root : Token}

/-- What a life begins with. -/
structure Founded (site : Site) (root : Token) (after : Site) : Prop where
  config_eq : after.pool.config = site.pool.config
  root_eq : after.pool.root = root
  length_eq : after.pool.length = site.pool.config.seeds
  idle_length : after.pool.idle.length = site.pool.config.seeds
  serving_eq : after.pool.serving = 0
  total_eq : after.pool.total = site.pool.total
  nodup : (after.pool.idle.map (·.id)).Nodup
  fresh : ∀ state ∈ after.pool.idle, site.world.states ≤ state.id.number
  requested_eq : ∀ state ∈ after.pool.idle, state.requested = 0
  /-- The tokens of the seeds are children of the root. -/
  parent_eq : ∀ state ∈ after.pool.idle,
    after.world.book.tokens.parent? state.token = some root

theorem founded_of_start (drained : site.pool.Drained)
    (hstatus : site.pool.status = .exiting ∨ site.pool.status = .ready)
    (hstart : site.start root = (.ok (), after)) : site.Founded root after := by
  rw [start_of_drained site root drained hstatus] at hstart
  have seeded := seed_seeded { site with pool := site.pool.revived root } site.pool.config.seeds
  have hraised := (seed_raised { site with pool := site.pool.revived root }
    site.pool.config.seeds).2
  rw [hstart] at seeded hraised
  have hnil : (site.pool.revived root).idle = [] := drained.idle_eq
  cases seeded with
  | @complete born world batch hstates hcount =>
      have hidle : ((site.pool.revived root).withSeeds born).idle = born := by
        simp [Pool.withSeeds, hnil]
      have raised (state : LuaState) (hstate : state ∈ born) :
          state.Raised root site.pool.config.budget world.book.tokens := by
        rcases hraised state (by rwa [hidle]) with h | raised
        · rw [hnil] at h
          cases h
        · exact raised
      constructor
      · rfl
      · rfl
      · simp only [Pool.withSeeds, Pool.revived, Pool.emit, drained.length_eq, hcount]
        exact Nat.zero_add _
      · rw [hidle, hcount]
      · exact drained.serving_eq
      · rfl
      · rw [hidle, List.nodup_iff_count]
        exact batch.count_le
      · rw [hidle]
        exact fun state hstate => (batch.mem_range hstate).1
      · rw [hidle]
        exact fun state hstate => (raised state hstate).requested_eq
      · rw [hidle]
        exact fun state hstate => (raised state hstate).parent_eq

end Site

namespace LifecycleRun

variable {run next : LifecycleRun} {site after : Site}

/-- The root of a life is the one that its restart was called with. -/
def Rooted (run : LifecycleRun) : Prop :=
  match run.phase with
  | .starting root | .seeding root => run.call = .restart root
  | _ => True

theorem rooted_step (rooted : run.Rooted) (site : Site) : (run.step site).1.Rooted := by
  have hdrain {next : Phase} (h : Rooted { run with phase := next }) :
      (run.drain next site).1.Rooted := by
    unfold drain
    split
    · exact rooted
    · split
      · exact rooted
      · exact h
      · trivial
  obtain ⟨call, phase⟩ := run
  cases phase with
  | entering =>
      cases call with
      | restart root =>
          simp only [step]
          split <;> trivial
      | shutdown | terminate => trivial
  | draining =>
      cases call with
      | shutdown | terminate => exact hdrain trivial
      | restart root => exact hdrain rfl
  | starting root =>
      simp only [step]
      split
      · trivial
      · exact rooted
  | seeding root =>
      simp only [step]
      split
      · trivial
      · split <;> trivial
  | undoDraining e => exact hdrain trivial
  | closing | undoing e | sealing | done result => trivial

theorem Stepped.total_eq (h : Stepped run site (next, after)) :
    after.pool.total = site.pool.total := by
  have hmoved (target : Status) : (site.pool.setStatus target).total = site.pool.total := by
    rcases site.pool.setStatus_eq target with h | ⟨-, h⟩ <;> rw [h]
    rfl
  cases h with
  | entered | refused | asleep | drained | looked => rfl
  | closed => exact hmoved .exiting
  | seeded hphase seeded => cases seeded <;> rfl
  | sealed => exact hmoved .dead

end LifecycleRun

namespace System

variable {sys next : System} {id : StateId}

theorem rooted_act (rooted : ∀ run ∈ sys.calls, run.Rooted) (action : Action) :
    ∀ run ∈ (sys.act action).2.calls, run.Rooted := by
  intro run hrun
  rcases sys.calls_act action with h | ⟨call, h⟩ | ⟨index, before, -, -, hcall, -, h⟩
  · exact rooted run (h ▸ hrun)
  · rw [h] at hrun
    rcases List.mem_append.1 hrun with hrun | hrun
    · exact rooted run hrun
    · rw [List.mem_singleton.1 hrun]
      trivial
  · rw [h] at hrun
    rcases List.mem_or_eq_of_mem_set hrun with hrun | rfl
    · exact rooted run hrun
    · exact LifecycleRun.rooted_step (rooted before (List.mem_of_getElem? hcall)) sys.site

theorem Meanwhile.rooted {spared : List StateId} (h : sys.Meanwhile spared next)
    (rooted : ∀ run ∈ sys.calls, run.Rooted) : ∀ run ∈ next.calls, run.Rooted := by
  induction h with
  | refl => exact rooted
  | act _ _ _ ih => exact rooted_act ih _
  | stir _ _ ih => exact ih

theorem Lived.rooted (lived : sys.Lived) : ∀ run ∈ sys.calls, run.Rooted := by
  obtain ⟨config, hook, root, world, -, h⟩ := lived
  refine h.rooted ?_
  intro run hrun
  rw [List.mem_singleton.1 hrun]
  exact rfl

/-- Only what is handed out is counted. -/
theorem Acted.total_eq {action : Action} {answer : Report × System} (h : Acted sys action answer)
    (hgrant : answer.1.isGrant = false) : answer.2.site.pool.total = sys.site.pool.total := by
  cases h with
  | checkedOut hopen checked =>
      cases checked with
      | refused | full | failed | panicked => rfl
      | reused | built => cases hgrant
  | parted hopen hperm parted => cases parted <;> rfl
  | advanced hlock hcall hresult stepped => exact stepped.total_eq
  | stirred | adopted | alienated | touched | configured | called | locked | unlocked => rfl

/-- Nobody has ever heard of a state. -/
def Unheard (sys : System) (id : StateId) : Prop :=
  ¬ sys.Present id ∧ id ∉ sys.strangers.map (·.id) ∧
    ∀ event ∈ sys.site.pool.journal, event.state? ≠ some id

theorem Lived.unheard (lived : sys.Lived) (hid : sys.site.world.states ≤ id.number) :
    sys.Unheard id := by
  obtain ⟨ledger, entries, agrees, follows, hjournal⟩ := lived.recounts
  obtain ⟨hidle, hout, hstrangers⟩ := lived.sound.books.count_eq_zero id hid
  rw [List.count_eq_zero] at hidle hout hstrangers
  refine ⟨?_, hstrangers, ?_⟩
  · rw [lived.sound.present_iff]
    rintro (h | h)
    · exact hidle h
    · exact hout h
  · intro event hevent hstate
    have hlt := follows.number_lt (by rw [hjournal]; simpa using hevent) hstate
    have := agrees.bound_le
    omega

/-- A seeding that succeeds founds a life under the root of its restart. -/
theorem Lived.founded (lived : sys.Lived) {index : Nat} {run : LifecycleRun} {root : Token}
    (hlock : sys.lock = some index) (hcall : sys.calls[index]? = some run)
    (hphase : run.phase = .seeding root) (hdone : (sys.step (.advance index)).1 = .done) :
    sys.site.Founded root (sys.step (.advance index)).2.site := by
  have fits := lived.sound.fits index run hlock hcall
  simp only [LifecycleRun.Fits, hphase] at fits
  obtain ⟨drained, hstatus⟩ := fits
  have hrestart : sys.site.pool.status.canRestart = true := by
    rcases hstatus with h | h <;> rw [h] <;> rfl
  cases hstart : sys.site.start root with
  | mk result after =>
      cases result with
      | ok =>
          have hsite : (sys.step (.advance index)).2.site = after := by
            simp [step, act, advance, note, hcall, hlock, LifecycleRun.result?, hphase,
              LifecycleRun.step, hrestart, hstart]
          rw [hsite]
          exact Site.founded_of_start drained hstatus hstart
      | error e | panic fault =>
          simp [step, act, advance, hcall, hlock, LifecycleRun.result?, hphase,
            LifecycleRun.step, hrestart, hstart, LifecycleRun.report, Report.ofOutcome] at hdone

/-- A closed pool counts nothing until the next life starts. -/
theorem Sound.total_run (sound : sys.Sound) (hclosed : sys.site.pool.status.accepts = false)
    {actions : List Action} (honest : ∀ action ∈ actions, action.honest = true)
    (hseeds : sys.Unseeded actions) :
    (sys.run actions).site.pool.total = sys.site.pool.total := by
  induction actions generalizing sys with
  | nil => rfl
  | cons action actions ih =>
      rw [List.forall_mem_cons] at honest
      have acted := act_acted sound honest.1
      obtain ⟨hgrant, hstill, -⟩ := acted.stays_closed hseeds.1 hclosed
      have hnext : sys.Meanwhile [] (sys.step action).2 :=
        .act .refl honest.1 action.spares_nil
      have later := ih (hnext.sound sound) hstill honest.2 hseeds.2
      exact later.trans (acted.total_eq hgrant)

/-- What the lives of a pool have to do with each other. -/
structure Generations (sys : System) : Prop where
  /-- Behind a drain that completes, everything is new. -/
  renewed : ∀ index, sys.Draining index → ∀ action : Action, action.honest = true →
    ¬ (sys.step action).2.Draining index → (sys.step action).2.Renewed
  /-- A life that starts well starts with seeds of its own. -/
  founded : ∀ index run root, sys.lock = some index → sys.calls[index]? = some run →
    run.phase = .seeding root → (sys.step (.advance index)).1 = .done →
    let next := (sys.step (.advance index)).2
    run.call = .restart root ∧ sys.site.Founded root next.site ∧
      ∀ state ∈ next.site.pool.idle, sys.Unheard state.id
  /-- No section of a lifecycle call counts as a request. -/
  advanced : ∀ index, (sys.step (.advance index)).2.site.pool.total = sys.site.pool.total
  /-- From the first section of a drain until the next seeds, nothing counts as one. -/
  frozen : ∀ index, sys.Closing index → ∀ actions : List Action,
    (∀ action ∈ actions, action.honest = true) →
    (sys.step (.advance index)).2.Unseeded actions →
    ((sys.step (.advance index)).2.run actions).site.pool.total = sys.site.pool.total

theorem lived_generations (lived : sys.Lived) : sys.Generations := by
  have sound := lived.sound
  have advanced (index : Nat) :
      (sys.step (.advance index)).2.site.pool.total = sys.site.pool.total := by
    have acted : sys.Acted (.advance index) (sys.act (.advance index)) := act_acted sound rfl
    refine acted.total_eq ?_
    simp only [act, advance]
    split
    · rfl
    · split
      · split
        · rfl
        · exact LifecycleRun.isGrant_report _
      · split <;> rfl
  constructor
  · intro index hdraining action honest hafter
    have hnext : sys.Meanwhile [] (sys.step action).2 := .act .refl honest action.spares_nil
    refine (lived.meanwhile hnext).renewed ?_
    exact (act_acted sound honest).drained hdraining hafter
  · intro index run root hlock hcall hphase hdone
    have founded := lived.founded hlock hcall hphase hdone
    have hrooted := lived.rooted run (List.mem_of_getElem? hcall)
    simp only [LifecycleRun.Rooted, hphase] at hrooted
    refine ⟨hrooted, founded, ?_⟩
    intro state hstate
    exact lived.unheard (founded.fresh state hstate)
  · exact advanced
  · intro index hclosing actions honest hseeds
    have hnext : sys.Meanwhile [] (sys.step (.advance index)).2 :=
      .act .refl rfl (Action.spares_nil _)
    rw [← advanced index]
    exact (hnext.sound sound).total_run (sound.closes hclosing) honest hseeds

/-- A pool whose state was used once is restarted, and is about to be drained. -/
def renewing : System :=
  (make .default none ⟨0⟩ clean).run
    [.advance 0, .advance 0, .advance 0, .get ⟨0⟩, .part .pool ⟨0⟩ .put, .call (.restart ⟨0⟩),
      .advance 1, .advance 1, .advance 1]

theorem reachable_renewing : renewing.Reachable :=
  (Reachable.made .default none ⟨0⟩ clean).run (by decide)

theorem renewing_generations :
    (renewing.Draining 1 ∧ ¬ (renewing.step (.advance 1)).2.Draining 1) ∧ renewing.Generations ∧
      (renewing.run [.advance 1, .advance 1]).Generations ∧
      ((renewing.run [.advance 1, .advance 1]).step (.advance 1)).1 = .done := by
  refine ⟨⟨⟨⟨.restart ⟨0⟩, .draining⟩, by decide +kernel, by decide⟩, ?_⟩,
    lived_generations reachable_renewing.lived,
    lived_generations (reachable_renewing.run (by decide)).lived, rfl⟩
  rintro ⟨run, hcall, hbusy⟩
  have hnext : (renewing.step (.advance 1)).2.calls[1]? =
      some ⟨.restart ⟨0⟩, .starting ⟨0⟩⟩ := by
    decide +kernel
  cases hnext.symm.trans hcall
  exact hbusy rfl

end System

end StatePool
