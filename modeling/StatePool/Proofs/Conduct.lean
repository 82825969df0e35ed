import StatePool.Proofs.Meanwhile

/-!
Work on a state of a pool gives the state back, or it closes it.

The work itself may use the pool for other states, and so may everybody else.  Whatever the pool has
become when the work ends, the state is still checked out then, and its checkout ends just once: by
the rules of giving back if the work succeeded, and by closing the state for good if it did not.
-/

namespace StatePool

theorem LuaState.mustTerminate_eq_error {state : LuaState} {clock : Clock} {fault : ClockFault}
    (h : state.mustTerminate clock = .error fault) :
    state.budget = 0 ∧ 0 < state.idleSeconds ∧ clock.now = .error fault := by
  unfold mustTerminate at h
  split at h
  · cases h
  · next hbudget =>
      split at h
      · cases h
      · next hidle =>
          cases hclock : clock.now with
          | error other =>
              simp only [hclock, Except.error.injEq] at h
              exact ⟨by omega, by omega, by rw [h]⟩
          | ok now => simp [hclock] at h

namespace Site

variable {α : Type} {site : Site} {state : LuaState} {instant : Int}

/-- What becomes of an open state that comes back: it is closed for a reason, or it waits for its
next request. -/
def ruling (site : Site) (state : LuaState) : Except ClockFault (Option CleanupReason) :=
  if !site.pool.status.accepts then .ok (some .rejected)
  else
    match state.mustTerminate site.world.clock with
    | .error fault => .error fault
    | .ok true => .ok (some site.pool.retirementReason)
    | .ok false => if site.isCancelled state.token then .ok (some .cancelled) else .ok none

/-- What becomes of a state on which work ended with a result. -/
def sentence (site : Site) (state : LuaState) :
    Outcome PoolError α → Except ClockFault (Option CleanupReason)
  | .ok _ => site.ruling state
  | .error _ | .panic _ => .ok (some .scriptFailure)

theorem ruling_eq_error {fault : ClockFault} (h : site.ruling state = .error fault) :
    site.pool.status.accepts = true ∧ state.budget = 0 ∧ 0 < state.idleSeconds ∧
      site.world.clock.now = .error fault := by
  unfold ruling at h
  cases haccepts : site.pool.status.accepts with
  | false => simp [haccepts] at h
  | true =>
      cases hjudged : state.mustTerminate site.world.clock with
      | error other =>
          simp only [haccepts, hjudged, Bool.not_true, Bool.false_eq_true, ↓reduceIte,
            Except.error.injEq] at h
          subst h
          obtain ⟨hbudget, hidle, hclock⟩ := LuaState.mustTerminate_eq_error hjudged
          exact ⟨rfl, hbudget, hidle, hclock⟩
      | ok terminate =>
          cases terminate with
          | true => simp [haccepts, hjudged] at h
          | false =>
              cases hcancelled : site.isCancelled state.token <;>
                simp [haccepts, hjudged, hcancelled] at h

theorem sentence_eq_error {result : Outcome PoolError α} {fault : ClockFault}
    (h : site.sentence state result = .error fault) :
    (∃ a, result = .ok a) ∧ site.pool.status.accepts = true ∧ state.budget = 0 ∧
      0 < state.idleSeconds ∧ site.world.clock.now = .error fault := by
  cases result with
  | ok a => exact ⟨⟨a, rfl⟩, ruling_eq_error h⟩
  | error e => cases h
  | panic fault => cases h

theorem put_of_open (hclosed : state.closed = false) :
    site.put state =
      match site.ruling state with
      | .error fault => (.panic (.clock fault), site.forget state)
      | .ok (some reason) =>
          let retired := site.retire state reason
          (conclude retired.1
            (if site.pool.status.accepts then .ok () else .error site.pool.refusal), retired.2)
      | .ok none =>
          let recycled := site.recycle state
          (conclude recycled.1 (.ok ()), recycled.2) := by
  simp only [put, hclosed, Bool.false_eq_true, ↓reduceIte, ruling]
  cases site.pool.status.accepts with
  | false => rfl
  | true =>
      simp only [Bool.not_true, Bool.false_eq_true, ↓reduceIte]
      cases state.mustTerminate site.world.clock with
      | error fault => rfl
      | ok terminate =>
          cases terminate with
          | true => rfl
          | false => cases site.isCancelled state.token <;> rfl

/-- A state that its holder did not close is lent since an instant. -/
structure Taken (site : Site) (state : LuaState) (instant : Int) : Prop where
  serving_eq : state.serving = true
  closed_eq : state.closed = false
  since : state.servingSince = some instant
  serving_pos : 0 < site.pool.serving
  length_pos : 0 < site.pool.length

theorem Taken.close_eq (taken : site.Taken state instant) (reason : CleanupReason) :
    site.close state reason = (.ok (), site.retired state reason) := by
  simp only [close, taken.serving_eq, Bool.not_true, Bool.false_eq_true, ↓reduceIte]
  exact retire_eq taken.serving_eq taken.serving_pos taken.length_pos reason

theorem Taken.put_eq (taken : site.Taken state instant) :
    site.put state =
      match site.ruling state with
      | .error fault => (.panic (.clock fault), site.forget state)
      | .ok (some reason) =>
          (if site.pool.status.accepts then .ok () else .error site.pool.refusal,
            site.retired state reason)
      | .ok none => (.ok (), site.requeued state instant) := by
  have hretire := retire_eq taken.serving_eq taken.serving_pos taken.length_pos
  have hrecycle := recycle_eq taken.serving_eq taken.since taken.serving_pos
  simp only [put_of_open taken.closed_eq, hretire, hrecycle, conclude]

theorem Taken.dropGuard_eq (taken : site.Taken state instant) :
    site.dropGuard state =
      match site.ruling state with
      | .error fault => (.panic (.clock fault), site.forget state)
      | .ok (some reason) => (.ok (), site.retired state reason)
      | .ok none => (.ok (), site.requeued state instant) := by
  simp only [dropGuard, taken.put_eq]
  cases site.ruling state with
  | error fault => rfl
  | ok reason =>
      cases reason with
      | none => rfl
      | some reason => cases site.pool.status.accepts <;> rfl

/-- How work on a state ends that was checked out at an instant. -/
inductive Ended (site : Site) (state : LuaState) (instant : Int) (result : Outcome PoolError α) :
    Outcome PoolError α × Site → Prop
  | recycled (hsentence : site.sentence state result = .ok none) :
      Ended site state instant result (result, site.requeued state instant)
  | retired {reason : CleanupReason} (hsentence : site.sentence state result = .ok (some reason)) :
      Ended site state instant result (result, site.retired state reason)
  | ageless {fault : ClockFault} (hsentence : site.sentence state result = .error fault) :
      Ended site state instant result (.panic (.clock fault), site.forget state)

theorem Taken.ended (taken : site.Taken state instant) (result : Outcome PoolError α) :
    site.Ended state instant result (site.partAfter state result) := by
  cases result with
  | ok a =>
      simp only [partAfter, taken.dropGuard_eq]
      cases hruling : site.ruling state with
      | error fault => exact .ageless hruling
      | ok reason =>
          cases reason with
          | none => exact .recycled hruling
          | some reason => exact .retired hruling
  | error e =>
      simp only [partAfter, taken.close_eq]
      exact .retired rfl
  | panic fault =>
      simp only [partAfter, dropGuardUnwinding, taken.close_eq]
      exact .retired rfl

end Site

/-! ### Parting after work -/

theorem pick_of_mem {states : List LuaState} {state : LuaState} (hmem : state ∈ states)
    (hcount : (states.map (·.id)).count state.id ≤ 1) :
    ∃ rest, pick state.id states = some (state, rest) := by
  induction states with
  | nil => cases hmem
  | cons first states ih =>
      simp only [pick]
      by_cases hid : first.id = state.id
      · rcases List.mem_cons.1 hmem with rfl | hlater
        · exact ⟨states, if_pos rfl⟩
        · have hpos := List.count_pos_iff.2 (List.mem_map_of_mem (f := (·.id)) hlater)
          rw [List.map_cons, hid, List.count_cons_self] at hcount
          omega
      · rw [if_neg hid]
        rcases List.mem_cons.1 hmem with rfl | hlater
        · exact absurd rfl hid
        · rw [List.map_cons, List.count_cons_of_ne hid] at hcount
          obtain ⟨rest, hrest⟩ := ih hlater hcount
          exact ⟨first :: rest, by rw [hrest]; rfl⟩

/-- A state is open when it is granted, and it is lent from then on. -/
theorem Site.lent_of_get {site next : Site} {request : Token} {state : LuaState}
    (hrests : ∀ state ∈ site.pool.idle, state.serving = false ∧ state.closed = false)
    (hget : site.get request = (.ok state, next)) :
    state.serving = true ∧ state.closed = false ∧
      state.servingSince = some next.world.clock.monotonic := by
  unfold get at hget
  split at hget
  · cases hget
  · have checked := site.checkOut_checkedOut
    rw [hget] at checked
    cases checked with
    | @reused waiting _ _ hidle =>
        have hopen := (hrests waiting (hidle ▸ List.mem_cons_self)).2
        exact ⟨rfl, hopen, rfl⟩
    | built _ _ _ newborn => exact ⟨rfl, newborn.closed_eq, rfl⟩

namespace System

variable {α : Type} {sys mid after : System} {state ran : LuaState} {rest : List LuaState}

theorem step_get_site (hopen : sys.isOpen = true) (request : Token) :
    (sys.step (.get request)).2.site = (sys.site.get request).2 := by
  simp only [step, act, ifOpen, hopen, ↓reduceIte, note]
  rcases sys.site.get request with ⟨result, next⟩
  cases result <;> rfl

theorem step_get (hopen : sys.isOpen = true) {request : Token} {next : Site}
    (hget : sys.site.get request = (.ok state, next)) :
    (sys.step (.get request)).2.held = state :: sys.held ∧
      (sys.step (.get request)).2.out = state.id :: sys.out := by
  simp [step, act, ifOpen, hopen, hget, grant, note]

/-- Code runs on a state, and then its holder parts with it. -/
def settle (sys : System) (id : StateId) (code : Script.Interpreter → Script.Interpreter)
    (parting : Parting) : System :=
  ((sys.step (.touch .pool id (.run code))).2.step (.part .pool id parting)).2

theorem settle_meanwhile (sys : System) {id : StateId} {spared : List StateId}
    (hid : id ∉ spared) (code : Script.Interpreter → Script.Interpreter) (parting : Parting) :
    sys.Meanwhile spared (sys.settle id code parting) := by
  have touched : sys.Meanwhile spared (sys.step (.touch .pool id (.run code))).2 :=
    .act .refl rfl (decide_eq_true hid)
  exact .act touched rfl (decide_eq_true hid)

theorem step_run (hpick : pick state.id sys.held = some (state, rest))
    (code : Script.Interpreter → Script.Interpreter) :
    let touched := (sys.step (.touch .pool state.id (.run code))).2
    touched.site = sys.site ∧
      touched.held = (state.touch sys.site.world (.run code)).1 :: rest ∧
      touched.out = sys.out := by
  simp [step, act, touch, states, hpick, note, withStates, withWorld, LuaState.touch]

theorem step_part (hopen : sys.isOpen = true) {id : StateId}
    (hpick : pick id sys.held = some (state, rest)) (parting : Parting) :
    let parted := (sys.step (.part .pool id parting)).2
    parted.site = (parting.perform sys.site state).2 ∧
      parted.held = rest ∧
      parted.out =
        if sys.site.pool.tookIn (parting.perform sys.site state).2.pool id then sys.out.erase id
        else sys.out := by
  simp only [step, act, ifOpen, hopen, ↓reduceIte, part, states, hpick, note, takeBack, withStates]
  exact ⟨trivial, trivial, rfl⟩

theorem settle_eq (hopen : sys.isOpen = true) (hpick : pick state.id sys.held = some (state, rest))
    (code : Script.Interpreter → Script.Interpreter) (parting : Parting) :
    let ran := (state.touch sys.site.world (.run code)).1
    let after := sys.settle state.id code parting
    after.site = (parting.perform sys.site ran).2 ∧
      after.held = rest ∧
      after.out =
        if sys.site.pool.tookIn (parting.perform sys.site ran).2.pool state.id then
          sys.out.erase state.id
        else sys.out := by
  obtain ⟨hsite, hheld, hout⟩ := step_run hpick code
  have touched : sys.Meanwhile [] (sys.step (.touch .pool state.id (.run code))).2 :=
    .act .refl rfl rfl
  have hagain : pick state.id (sys.step (.touch .pool state.id (.run code))).2.held =
      some ((state.touch sys.site.world (.run code)).1, rest) := by
    rw [hheld]
    exact if_pos rfl
  have parted := step_part (touched.isOpen hopen) hagain parting
  rw [hsite, hout] at parted
  exact parted

theorem settle_of_absent {id : StateId} (hpick : pick id sys.held = none)
    (code : Script.Interpreter → Script.Interpreter) (parting : Parting) :
    sys.settle id code parting = sys := by
  have htouch : sys.step (.touch .pool id (.run code)) = (.nothing, sys) := by
    simp [step, act, touch, states, hpick, note]
  have hpart : (sys.step (.part .pool id parting)).2 = sys := by
    simp only [step, act, ifOpen, part, states, hpick, note, ite_self, Pool.news_self, List.map_nil,
      List.append_nil]
  rw [settle, htouch, hpart]

theorem Sound.taken (sound : sys.Sound) (hheld : state ∈ sys.held) (hclosed : state.closed = false)
    {instant : Int} (hsince : state.servingSince = some instant) :
    sys.site.Taken state instant := by
  have hmark := (sound.books.held_lent state hheld).serving_eq
  have hserving : 0 < sys.site.pool.serving := by
    rw [sound.books.serving_eq]
    exact List.length_pos_of_mem (sound.books.out_of_held hheld)
  have hlength : 0 < sys.site.pool.length := by
    rw [sound.books.length_eq]
    omega
  rw [hclosed] at hmark
  exact ⟨hmark, hclosed, hsince, hserving, hlength⟩

/-- The checkout of a state has ended, and nobody has the state any more. -/
structure Freed (mid after : System) (id : StateId) : Prop where
  held : id ∉ after.held.map (·.id)
  out : id ∉ after.out
  out_eq : after.out = mid.out.erase id
  serving_eq : after.site.pool.serving + 1 = mid.site.pool.serving

theorem Sound.freed (sound : mid.Sound) (hperm : mid.held.Perm (state :: rest))
    (hheld : after.held = rest) (hout : after.out = mid.out.erase state.id)
    (hserving : after.site.pool.serving = mid.site.pool.serving - 1) :
    mid.Freed after state.id := by
  have hmem := (sound.books.lent_apart hperm).1
  have hrest := sound.books.count_rest_le hperm state.id
  have herase := Books.count_erase_add (List.count_pos_iff.2 hmem) state.id
  have honce := sound.books.once state.id
  have hpos := List.length_pos_of_mem hmem
  rw [← sound.books.serving_eq] at hpos
  simp only [↓reduceIte] at hrest herase
  refine ⟨?_, ?_, hout, by omega⟩
  · rw [hheld, ← List.count_eq_zero]
    omega
  · rw [hout, ← List.count_eq_zero]
    omega

/-- What came of a state on which work ended with a result. -/
inductive Concluded (mid : System) (ran : LuaState) (instant : Int)
    (result : Outcome PoolError α) : Outcome PoolError α → System → Prop
  | recycled {after : System} (hsentence : mid.site.sentence ran result = .ok none)
      (hsite : after.site = mid.site.requeued ran instant) (freed : mid.Freed after ran.id) :
      Concluded mid ran instant result result after
  | retired {after : System} {reason : CleanupReason}
      (hsentence : mid.site.sentence ran result = .ok (some reason))
      (hsite : after.site = mid.site.retired ran reason) (freed : mid.Freed after ran.id)
      (dismissed : after.Dismissed ran.id reason) :
      Concluded mid ran instant result result after
  /-- Its age is asked for and cannot be told, and nobody ends its checkout. -/
  | ageless {after : System} {fault : ClockFault} (hresult : ∃ a, result = .ok a)
      (haccepts : mid.site.pool.status.accepts = true) (hbudget : ran.budget = 0)
      (hidle : 0 < ran.idleSeconds) (hclock : mid.site.world.clock.now = .error fault)
      (hsite : after.site = mid.site.forget ran) (hout : after.out = mid.out) :
      Concluded mid ran instant result (.panic (.clock fault)) after

theorem Lived.dismissed_of_retired (lived : mid.Lived) (later : mid.Meanwhile [] after)
    (hlent : state.id ∈ mid.out) (hidle : state.id ∉ mid.site.pool.idle.map (·.id))
    {reason : CleanupReason} (hsite : after.site = mid.site.retired state reason)
    (freed : mid.Freed after state.id) : after.Dismissed state.id reason := by
  refine (lived.meanwhile later).dismissed ?_ freed.out (by rw [hsite]; exact hidle)
  have hbefore := lived.unclosed hlent
  simp only [closingsOf] at hbefore ⊢
  rw [hsite]
  simp [Site.retired, Pool.emit, Pool.released, hbefore, Event.closes]

theorem Lived.concluded (lived : mid.Lived) (hopen : mid.isOpen = true)
    (hheld : state ∈ mid.held) {instant : Int} (hclosed : state.closed = false)
    (hsince : state.servingSince = some instant)
    (code : Script.Interpreter → Script.Interpreter) (result : Outcome PoolError α) :
    let ran := (state.touch mid.site.world (.run code)).1
    let after := mid.settle state.id code (Parting.after result)
    after.site = (mid.site.partAfter ran result).2 ∧
      mid.Concluded ran instant result (mid.site.partAfter ran result).1 after := by
  have hcount : (mid.held.map (·.id)).count state.id ≤ 1 := by
    have := lived.sound.books.held_once state.id
    have := lived.sound.books.once state.id
    omega
  obtain ⟨rest, hpick⟩ := pick_of_mem hheld hcount
  have hperm := (perm_of_pick hpick).2
  obtain ⟨hlent, hidle⟩ := lived.sound.books.lent_apart hperm
  -- Code reaches the interpreter only, so the state is still marked as lent.
  have taken : mid.site.Taken (state.touch mid.site.world (.run code)).1 instant :=
    { lived.sound.taken hheld hclosed hsince with }
  obtain ⟨hsite, hrest, hout⟩ := settle_eq hopen hpick code (Parting.after result)
  have later := mid.settle_meanwhile (List.not_mem_nil (a := state.id)) code (.after result)
  rw [← Site.partAfter_eq_parting] at hsite hout
  refine ⟨hsite, ?_⟩
  -- From here on only what the parting left behind matters, and not how it did so.
  generalize mid.settle state.id code (Parting.after result) = after at *
  have ended := taken.ended result
  generalize mid.site.partAfter _ result = answer at *
  cases ended with
  | recycled hsentence =>
      rw [if_pos (Pool.tookIn_of_mem List.mem_cons_self)] at hout
      have freed : mid.Freed after state.id :=
        lived.sound.freed hperm hrest hout (by rw [hsite]; rfl)
      exact .recycled hsentence hsite freed
  | retired hsentence =>
      rw [if_pos (Pool.tookIn_of_cleanedUp rfl)] at hout
      have freed : mid.Freed after state.id :=
        lived.sound.freed hperm hrest hout (by rw [hsite]; rfl)
      have dismissed := lived.dismissed_of_retired later hlent hidle hsite freed
      exact .retired hsentence hsite freed dismissed
  | ageless hsentence =>
      have hkept := Pool.tookIn_self hidle
      rw [if_neg (by rw [Site.forget, hkept]; exact Bool.false_ne_true)] at hout
      obtain ⟨hresult, haccepts, hbudget, hseconds, hclock⟩ := Site.sentence_eq_error hsentence
      exact .ageless hresult haccepts hbudget hseconds hclock hsite hout

/-- Work on a state that was checked out in one system is over in a second one, and the third one is
behind its parting. -/
structure Conducted (lent mid after : System) (state ran : LuaState)
    (result : Outcome PoolError α) (answer : Outcome PoolError α × Site) : Prop where
  held : state ∈ mid.held
  quiet : Quiet lent.site.pool mid.site.pool state.id
  later : mid.Meanwhile [] after
  site_eq : after.site = answer.2
  concluded : mid.Concluded ran lent.site.world.clock.monotonic result answer.1 after

theorem step_get_meanwhile (sys : System) (request : Token) (spared : List StateId) :
    sys.Meanwhile spared (sys.step (.get request)).2 :=
  .act .refl rfl rfl

variable {request : Token} {next : Site}

theorem Lived.conducted (lived : sys.Lived) (hopen : sys.isOpen = true)
    (hget : sys.site.get request = (.ok state, next)) {spared : List StateId}
    (h : (sys.step (.get request)).2.Meanwhile (state.id :: spared) mid)
    (code : Script.Interpreter → Script.Interpreter) (result : Outcome PoolError α) :
    let ran := (state.touch mid.site.world (.run code)).1
    Conducted (sys.step (.get request)).2 mid (mid.settle state.id code (Parting.after result))
      state ran result (mid.site.partAfter ran result) := by
  have granted := sys.step_get_meanwhile request []
  have hlent := lived.meanwhile granted
  have hsite : (sys.step (.get request)).2.site = next := by rw [step_get_site hopen, hget]
  have hmem : state ∈ (sys.step (.get request)).2.held := by
    rw [(step_get hopen hget).1]
    exact List.mem_cons_self
  have hheld := h.held hlent.sound List.mem_cons_self hmem
  obtain ⟨-, hclosed, hsince⟩ := Site.lent_of_get lived.sound.books.idle_rests hget
  have hmid := h.isOpen (granted.isOpen hopen)
  rw [← hsite] at hsince
  obtain ⟨hanswer, concluded⟩ :=
    (hlent.meanwhile h).concluded hmid hheld hclosed hsince code result
  have later := mid.settle_meanwhile (List.not_mem_nil (a := state.id)) code (.after result)
  exact ⟨hheld, h.quiet hlent.sound List.mem_cons_self hmem, later, hanswer, concluded⟩

/-- The work that a task does is over when the system has come to where the task leaves it. -/
theorem Lived.conducts (lived : sys.Lived) (hopen : sys.isOpen = true) (task : Task α)
    (hget : sys.site.get request = (.ok state, next)) {spared : List StateId}
    (h : (sys.step (.get request)).2.Meanwhile (state.id :: spared) mid)
    (hmid : mid.site = (next.runWatched request state task).2.2) :
    let ran := next.runWatched request state task
    ∃ code, ((∀ fault, ran.1 ≠ .panic fault) → (Touch.run code).Tidy) ∧
      Conducted (sys.step (.get request)).2 mid
        (mid.settle state.id code (Parting.after ran.1)) state ran.2.1 ran.1
        (sys.site.withState request task) := by
  obtain ⟨code, hcode, tidy⟩ := next.runWatched_eq_touch request state task mid.site.world
  refine ⟨code, tidy, ?_⟩
  rw [Site.withState_eq_partAfter _ _ _ hget]
  simp only
  rw [hcode, ← hmid]
  exact lived.conducted hopen hget h code _

end System

end StatePool
