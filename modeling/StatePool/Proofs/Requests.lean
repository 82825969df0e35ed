import StatePool.Proofs.Unhooked
import StatePool.Session.Request

/-!
What requests do with a pool.

Work is civil that does with the pool only what honest callers may do, and that lets the states alone
that others hold.  Scripts are civil, for they reach no pool; so is all work that is put together
from civil work, requests inside of work included.  All of this holds as well of callers who hook
nothing into their states.
-/

namespace StatePool

namespace System

variable {sys mid next : System} {spared : List StateId} {request : Token} {state : LuaState}
  {site : Site}

/-- A pool in use that states were taken from. -/
structure Lends (sys : System) (spared : List StateId) : Prop where
  lived : sys.Lived
  isOpen : sys.isOpen = true
  held : ∀ id ∈ spared, ∃ state ∈ sys.held, state.id = id

theorem Lends.meanwhile (lends : sys.Lends spared) (h : sys.Meanwhile spared next) :
    next.Lends spared where
  lived := lends.lived.meanwhile h
  isOpen := h.isOpen lends.isOpen
  held id hid := by
    obtain ⟨state, hheld, rfl⟩ := lends.held id hid
    exact ⟨state, h.held lends.lived.sound hid hheld, rfl⟩

theorem Lends.fresh (lends : sys.Lends spared) (hget : sys.site.get request = (.ok state, site)) :
    state.id ∉ spared := by
  intro hid
  obtain ⟨other, hheld, heq⟩ := lends.held _ hid
  have granted := sys.step_get_meanwhile request []
  have honce := (lends.lived.meanwhile granted).sound.books.once state.id
  have hout := lends.lived.sound.books.out_of_held hheld
  have hpos := List.count_pos_iff.2 hout
  rw [(step_get lends.isOpen hget).2, List.count_cons_self, ← heq] at honce
  omega

theorem Lends.granted (lends : sys.Lends spared)
    (hget : sys.site.get request = (.ok state, site)) :
    (sys.step (.get request)).2.Lends (state.id :: spared) := by
  have later := lends.meanwhile (sys.step_get_meanwhile request spared)
  refine ⟨later.lived, later.isOpen, fun id hid => ?_⟩
  rcases List.mem_cons.1 hid with rfl | hid
  · refine ⟨state, ?_, rfl⟩
    rw [(step_get lends.isOpen hget).1]
    exact List.mem_cons_self
  · exact later.held id hid

/-- A way to use a pool: what can come of a system while callers spare some states.  It allows for
requests, whose work ends with nothing hooked into their states or with a fault. -/
structure Usage (R : List StateId → System → System → Prop) : Prop where
  meanwhile {spared : List StateId} {sys next : System} :
    R spared sys next → sys.Meanwhile spared next
  refl (spared : List StateId) (sys : System) : R spared sys sys
  trans {spared : List StateId} {sys mid next : System} :
    R spared sys mid → R spared mid next → R spared sys next
  mono {spared fewer : List StateId} {sys next : System} :
    R spared sys next → (∀ id ∈ fewer, id ∈ spared) → R fewer sys next
  stir {sys : System} {world : World} (spared : List StateId) :
    sys.site.world.states ≤ world.states → R spared sys (sys.withWorld world)
  get (sys : System) (request : Token) (spared : List StateId) :
    R spared sys (sys.step (.get request)).2
  settle {spared : List StateId} {sys : System} {id : StateId} {α : Type}
    {code : Script.Interpreter → Script.Interpreter} {result : Outcome PoolError α} :
    sys.isOpen = true → id ∉ spared →
      ((∀ fault, result ≠ .panic fault) → (Touch.run code).Tidy) →
        R spared sys (sys.settle id code (Parting.after result))

theorem usage_meanwhile : Usage Meanwhile where
  meanwhile := id
  refl _ _ := .refl
  trans := .trans
  mono := .mono
  stir _ hstates := .stir .refl hstates
  get sys request spared := sys.step_get_meanwhile request spared
  settle _ hid _ := settle_meanwhile _ hid _ _

theorem usage_attended : Usage Attended where
  meanwhile := Attended.meanwhile
  refl _ _ := .refl
  trans := .trans
  mono := .mono
  stir _ hstates := .stir .refl hstates
  get _ _ _ := .act .refl rfl rfl trivial
  settle hopen hid tidy := settle_attended hopen hid tidy

/-- Callers who use a pool that way and spare some states can bring a system to a site. -/
def Leads (R : List StateId → System → System → Prop) (sys : System) (spared : List StateId)
    (site : Site) : Prop :=
  ∃ next, R spared sys next ∧ next.site = site

end System

variable {α β : Type} {R : List StateId → System → System → Prop}

/-- Work that does with a pool what callers may do who use it that way, and spares the states that
others hold. -/
def Task.Within (R : List StateId → System → System → Prop) (task : Task α) : Prop :=
  ∀ (sys : System) (spared : List StateId), sys.Lends spared →
    ∀ scene : Scene, scene.site = sys.site → ∀ watch last,
      sys.Leads R spared ((task scene).run watch last).1.site

/-- Work that does with a pool what honest callers may do, and spares the states that others hold. -/
def Task.Civil (task : Task α) : Prop :=
  task.Within System.Meanwhile

namespace Task

theorem within_done (usage : System.Usage R) (result : Outcome ScriptError α) :
    (done result).Within R := by
  intro sys spared lends scene hscene watch last
  exact ⟨sys, usage.refl spared sys, hscene.symm⟩

theorem Within.andThen (usage : System.Usage R) {first : Task α} {next : α → Task β}
    (h : first.Within R) (hnext : ∀ a, (next a).Within R) : (first.andThen next).Within R := by
  intro sys spared lends scene hscene watch last
  obtain ⟨mid, hmid, hsite⟩ := h sys spared lends scene hscene watch last
  simp only [Task.andThen, Work.run_andThen]
  generalize (first scene).run watch last = ran at hsite ⊢
  obtain ⟨between, result, trip⟩ := ran
  cases result with
  | ok a =>
      obtain ⟨after, hafter, hlast⟩ :=
        hnext a mid spared (lends.meanwhile (usage.meanwhile hmid)) between hsite.symm watch trip
      exact ⟨after, usage.trans hmid hafter, hlast⟩
  | error e => exact ⟨mid, hmid, hsite⟩
  | panic fault => exact ⟨mid, hmid, hsite⟩

theorem Within.replied (usage : System.Usage R) {task : Task α} (h : task.Within R)
    (reply : α → β) : (task.andThen fun a => done (.ok (reply a))).Within R :=
  h.andThen usage fun _ => within_done usage _

theorem within_compile (usage : System.Usage R)
    (how : Script.Interpreter → Except ScriptError Script.Program) : (compile how).Within R := by
  intro sys spared lends scene hscene watch last
  simp only [compile]
  split <;> exact ⟨sys, usage.refl spared sys, hscene.symm⟩

theorem within_script (usage : System.Usage R) (program : Script.Program)
    (arguments : List Script.Value) : (script (program.call arguments)).Within R := by
  intro sys spared lends scene hscene watch last
  simp only [script, Work.run_andThen, Work.run_embed]
  generalize hinner : (fun machine : Script.Machine => watch _) = inner
  have undergone := (program.call_throughout arguments
    { interp := scene.interp, world := scene.site.world }).run inner last
  generalize (program.call arguments _).run inner last = ran at undergone ⊢
  obtain ⟨machine, result, trip⟩ := ran
  -- The pool sees only what became of the world.
  have hstates : sys.site.world.states ≤ machine.world.states := by
    rw [← hscene]
    exact Nat.le_of_eq undergone.states_eq.symm
  refine ⟨sys.withWorld machine.world, usage.stir spared hstates, ?_⟩
  cases result <;> simp [System.withWorld, hscene]

theorem within_onGlobals (usage : System.Usage R)
    (f : Script.Interpreter → α × Script.Interpreter) : (onGlobals f).Within R := by
  intro sys spared lends scene hscene watch last
  simp only [onGlobals]
  split <;> exact ⟨sys, usage.refl spared sys, hscene.symm⟩

theorem within_onWorld (usage : System.Usage R) {f : World → World}
    (hstates : ∀ world, (f world).states = world.states) : (onWorld f).Within R := by
  intro sys spared lends scene hscene watch last
  have hle : sys.site.world.states ≤ (f scene.site.world).states :=
    Nat.le_of_eq (by rw [hstates, hscene])
  refine ⟨sys.withWorld (f scene.site.world), usage.stir spared hle, ?_⟩
  simp [onWorld, System.withWorld, hscene]

theorem within_runText (usage : System.Usage R) (origin : Script.Origin) (text : String) :
    (runText origin text).Within R :=
  (within_compile usage _).andThen usage fun script =>
    (within_script usage script []).andThen usage fun _ => within_done usage _

theorem within_evaluate (usage : System.Usage R) (origin : Script.Origin) (text : String)
    (wanted : Script.Wanted) : (evaluate origin text wanted).Within R := by
  refine (within_compile usage _).andThen usage fun script =>
    (within_script usage script []).andThen usage fun values => ?_
  cases wanted.take values <;> exact within_done usage _

theorem within_withScript (usage : System.Usage R) (origin : Script.Origin) (text : String)
    {callback : Script.Program → Task α} (h : ∀ script, (callback script).Within R) :
    (withScript origin text callback).Within R :=
  (within_compile usage _).andThen usage h

theorem within_callTimes (usage : System.Usage R) (script : Script.Program)
    (arguments : List Script.Value) (times : Nat) (last : Reply) :
    (callTimes script arguments times last).Within R := by
  induction times generalizing last with
  | zero => exact within_done usage _
  | succ times ih => exact (within_script usage script arguments).andThen usage fun values => ih _

theorem within_follow (usage : System.Usage R) (plan : LoadPlan) (script : Script.Program) :
    (follow plan script).Within R := by
  cases plan with
  | fail message => exact within_done usage _
  | keep => exact within_done usage _
  | call times arguments => exact within_callTimes usage _ _ _ _

end Task

/-! ### Requests -/

namespace System

variable {sys mid next : System} {spared : List StateId} {request : Token} {task : Task α}
  {state : LuaState} {site : Site}

theorem Lends.leads_runWatched (lends : sys.Lends spared) (usage : Usage R)
    (within : task.Within R) (hget : sys.site.get request = (.ok state, site)) :
    (sys.step (.get request)).2.Leads R (state.id :: spared)
      (site.runWatched request state task).2.2 := by
  have hsite : (sys.step (.get request)).2.site = site := by rw [step_get_site lends.isOpen, hget]
  have still : (sys.step (.get request)).2.Leads R (state.id :: spared) site :=
    ⟨_, usage.refl _ _, hsite⟩
  unfold Site.runWatched
  cases state.interpreter with
  | none => exact still
  | some interp =>
      simp only
      split
      · exact still
      · exact within _ _ (lends.granted hget) ⟨site, _⟩ hsite.symm _ _

theorem Lends.leads_withState (lends : sys.Lends spared) (usage : Usage R)
    (within : task.Within R) (request : Token) :
    sys.Leads R spared (sys.site.withState request task).2 := by
  have hsite := step_get_site lends.isOpen request
  have granted := usage.get sys request spared
  cases hget : sys.site.get request with
  | mk result site =>
      rw [hget] at hsite
      cases result with
      | ok state =>
          obtain ⟨mid, hmid, hran⟩ := lends.leads_runWatched usage within hget
          obtain ⟨code, tidy, conducted⟩ :=
            lends.lived.conducts lends.isOpen task hget (usage.meanwhile hmid) hran
          -- The work spares its own state as well, which the parting then ends the checkout of.
          have hbefore := usage.trans granted (usage.mono hmid fun id => List.mem_cons_of_mem _)
          have hopen := (usage.meanwhile hbefore).isOpen lends.isOpen
          have parted := usage.settle hopen (lends.fresh hget) tidy
          exact ⟨_, usage.trans hbefore parted, conducted.site_eq⟩
      | error e | panic fault =>
          refine ⟨_, granted, ?_⟩
          simp only [hsite, Site.withState, hget]

end System

theorem World.states_requestToken (world : World) (context : Option String) :
    (world.requestToken context).2.states = world.states := by
  unfold requestToken
  split <;> rfl

/-- What a request comes to: its text cannot be read, and the pool is not touched, or it is work on a
state of the pool. -/
inductive Site.Posed (R : List StateId → System → System → Prop) (site : Site) :
    Outcome PoolError α × Site → Prop
  | unreadable {name message : String} : Posed R site (.error (.unreadable name message), site)
  | asked {world : World} {token : Token} {task : Task α}
      (hstates : site.world.states ≤ world.states) (within : task.Within R) :
      Posed R site ({ site with world }.withState token task)

theorem Site.ask_posed (site : Site) (context : Option String) {task : Task α}
    (within : task.Within R) : site.Posed R (site.ask context task) :=
  .asked (Nat.le_of_eq (site.world.states_requestToken context).symm) within

theorem Site.askWithFile_posed (site : Site) (files : Files) (context : Option String)
    (path : String) {task : String → Task α} (within : ∀ text, (task text).Within R) :
    site.Posed R (site.askWithFile files context path task) := by
  unfold askWithFile
  split
  · exact .unreadable
  · exact site.ask_posed context (within _)

theorem Site.Posed.leads {sys : System} {spared : List StateId}
    {answer : Outcome PoolError α × Site} (posed : sys.site.Posed R answer)
    (usage : System.Usage R) (lends : sys.Lends spared) : sys.Leads R spared answer.2 := by
  cases posed with
  | unreadable => exact ⟨sys, usage.refl spared sys, rfl⟩
  | @asked world token _ hstates within =>
      have stirred : R spared sys (sys.withWorld world) := usage.stir spared hstates
      obtain ⟨after, hafter, hsite⟩ :=
        (lends.meanwhile (usage.meanwhile stirred)).leads_withState usage within token
      exact ⟨after, usage.trans stirred hafter, hsite⟩

-- For a request inside of work it is the statement about requests, and for acts that about acts.
mutual

theorem Request.perform_posed (usage : System.Usage R) (files : Files) (request : Request)
    (site : Site) : site.Posed R (request.perform files site) := by
  cases request with
  | doString context text =>
      exact site.ask_posed context ((Task.within_runText usage _ _).replied usage _)
  | doFile context path =>
      exact site.askWithFile_posed files context path fun text =>
        (Task.within_runText usage _ _).replied usage _
  | eval context text wanted =>
      exact site.ask_posed context ((Task.within_evaluate usage _ _ wanted).replied usage _)
  | loadString context text plan =>
      exact site.ask_posed context
        (Task.within_withScript usage _ _ (Task.within_follow usage plan))
  | loadFile context path plan =>
      exact site.askWithFile_posed files context path fun text =>
        Task.within_withScript usage _ _ (Task.within_follow usage plan)
  | load context name source plan =>
      simp only [Request.perform]
      split
      · exact .unreadable
      · exact site.ask_posed context
          (Task.within_withScript usage _ _ (Task.within_follow usage plan))
  | withState context acts =>
      exact site.ask_posed context ((Act.within_performAll usage files acts).replied usage _)

theorem Act.within_perform (usage : System.Usage R) (files : Files) (act : Act) :
    (act.perform files).Within R := by
  cases act with
  | set name value => exact (Task.within_onGlobals usage _).replied usage _
  | get name => exact (Task.within_onGlobals usage _).replied usage _
  | run text => exact (Task.within_evaluate usage _ _ _).replied usage _
  | cancel context | advance ms =>
      refine (Task.within_onWorld usage ?_).replied usage _
      exact fun _ => rfl
  | fail message | panic message => exact Task.within_done usage _
  | stats =>
      intro sys spared lends scene hscene watch last
      exact ⟨sys, usage.refl spared sys, hscene.symm⟩
  | nested request =>
      intro sys spared lends scene hscene watch last
      have posed := Request.perform_posed usage files request scene.site
      rw [hscene] at posed
      simp only [Act.perform, Work.run_finish, hscene]
      exact posed.leads usage lends

theorem Act.within_performAll (usage : System.Usage R) (files : Files) (acts : List Act) :
    (Act.performAll files acts).Within R := by
  cases acts with
  | nil => exact Task.within_done usage _
  | cons act acts =>
      exact (Act.within_perform usage files act).andThen usage fun _ =>
        (Act.within_performAll usage files acts).andThen usage fun _ => Task.within_done usage _

end

/-! ### Work that gives its state back -/

namespace System

/-- Whatever the task does, its state comes back or is closed behind it. -/
def Serves (sys : System) (request : Token) (task : Task α) : Prop :=
  ∀ state next, sys.site.get request = (.ok state, next) →
    let lent := (sys.step (.get request)).2
    let ran := next.runWatched request state task
    ∃ mid after, lent.Meanwhile [state.id] mid ∧ mid.site = ran.2.2 ∧
      Conducted lent mid after state ran.2.1 ran.1 (sys.site.withState request task)

inductive Answered (sys : System) : Outcome PoolError α × Site → Prop
  | unreadable {name message : String} :
      Answered sys (.error (.unreadable name message), sys.site)
  | served {world : World} {token : Token} {task : Task α}
      (hstates : sys.site.world.states ≤ world.states)
      (serves : (sys.withWorld world).Serves token task) :
      Answered sys ((sys.withWorld world).site.withState token task)

/-- Work on a state gives it back, or it closes it. -/
structure Orderly (sys : System) : Prop where
  /-- Others use the pool while code runs on a state, and the code comes to any result. -/
  conduct : ∀ {α : Type} (request : Token) (state : LuaState) (next : Site),
    sys.site.get request = (.ok state, next) →
      let lent := (sys.step (.get request)).2
      ∀ mid, lent.Meanwhile [state.id] mid →
        ∀ (code : Script.Interpreter → Script.Interpreter) (result : Outcome PoolError α),
          let ran := (state.touch mid.site.world (.run code)).1
          let after := mid.settle state.id code (Parting.after result)
          Conducted lent mid after state ran result (mid.site.partAfter ran result)
  /-- The task does with the pool whatever honest callers can do. -/
  work : ∀ {α : Type} (request : Token) (task : Task α) (state : LuaState) (next : Site),
    sys.site.get request = (.ok state, next) →
      let lent := (sys.step (.get request)).2
      let ran := next.runWatched request state task
      ∀ mid, lent.Meanwhile [state.id] mid → mid.site = ran.2.2 →
        ∃ after, Conducted lent mid after state ran.2.1 ran.1 (sys.site.withState request task)
  serves : ∀ {α : Type} (request : Token) (task : Task α), task.Civil → sys.Serves request task
  loads : ∀ {α : Type} (request : Token) (origin : Script.Origin) (text : String)
    (callback : Script.Program → Task α), (∀ script, (callback script).Civil) →
      sys.Serves request (Task.withScript origin text callback)
  answers : ∀ (files : Files) (request : Request),
    sys.Answered (request.perform files sys.site)

variable {sys : System}

theorem Lived.lends (lived : sys.Lived) (hopen : sys.isOpen = true) : sys.Lends [] :=
  ⟨lived, hopen, nofun⟩

theorem Lends.serves (lends : sys.Lends []) (request : Token) {task : Task α}
    (civil : task.Civil) : sys.Serves request task := by
  intro state next hget
  obtain ⟨mid, hmid, hran⟩ := lends.leads_runWatched usage_meanwhile civil hget
  obtain ⟨code, -, conducted⟩ := lends.lived.conducts lends.isOpen task hget hmid hran
  exact ⟨mid, _, hmid, hran, conducted⟩

theorem Lends.answered (lends : sys.Lends []) {answer : Outcome PoolError α × Site}
    (posed : sys.site.Posed Meanwhile answer) : sys.Answered answer := by
  cases posed with
  | unreadable => exact .unreadable
  | @asked world token _ hstates civil =>
      have stirred : sys.Meanwhile [] (sys.withWorld world) := .stir .refl hstates
      exact .served hstates ((lends.meanwhile stirred).serves token civil)

theorem lived_orderly (lived : sys.Lived) (hopen : sys.isOpen = true) : sys.Orderly where
  conduct request state next hget mid h code result := lived.conducted hopen hget h code result
  work request task state next hget mid h hmid := by
    obtain ⟨code, -, conducted⟩ := lived.conducts hopen task hget h hmid
    exact ⟨_, conducted⟩
  serves request task civil := (lived.lends hopen).serves request civil
  loads request origin text callback civil :=
    (lived.lends hopen).serves request (Task.within_withScript usage_meanwhile origin text civil)
  answers files request :=
    (lived.lends hopen).answered (request.perform_posed usage_meanwhile files sys.site)

/-- A pool one state of which is taken. -/
def engaged : System :=
  (make .small none ⟨0⟩ clean).run [.advance 0, .advance 0, .advance 0, .get ⟨0⟩]

theorem reachable_engaged : engaged.Reachable :=
  (Reachable.made Config.built_small none ⟨0⟩ clean).run (by decide)

theorem engaged_orderly :
    (engaged.Lived ∧ engaged.isOpen = true ∧ (engaged.step (.get ⟨0⟩)).1.isGrant = true) ∧
      engaged.Orderly :=
  ⟨⟨reachable_engaged.lived, by decide, by decide⟩,
    lived_orderly reachable_engaged.lived (by decide)⟩

/-- The wall clock of a pool was set to a time before the epoch. -/
def ancient : System :=
  (make .small none ⟨0⟩ clean).run
    [.advance 0, .advance 0, .advance 0, .tick (-1700000000001) 0]

theorem reachable_ancient : ancient.Reachable :=
  (Reachable.made Config.built_small none ⟨0⟩ clean).run (by decide)

/-- A task that succeeds does not always give its state back. -/
theorem not_work_frees :
    ¬ ∀ sys : System, sys.Reachable → sys.isOpen = true →
      ∀ (request : Token) (task : Task Unit), task.Civil → ∀ state next,
        sys.site.get request = (.ok state, next) →
          (next.runWatched request state task).1 = .ok () →
            (sys.site.withState request task).1 = .ok () ∧
              (sys.site.withState request task).2.pool.serving + 1 =
                (next.runWatched request state task).2.2.pool.serving := by
  intro h
  obtain ⟨state, next, hget, hran⟩ : ∃ state next, ancient.site.get ⟨0⟩ = (.ok state, next) ∧
      (next.runWatched ⟨0⟩ state (Task.done (.ok ()))).1 = .ok () := ⟨_, _, rfl, rfl⟩
  have hanswer : (ancient.site.withState ⟨0⟩ (Task.done (.ok ()))).1 =
      .panic (.clock (.beforeEpoch 1)) := rfl
  obtain ⟨hok, -⟩ :=
    h ancient reachable_ancient (by decide) ⟨0⟩ _ (Task.within_done usage_meanwhile _) state next
      hget hran
  rw [hanswer] at hok
  cases hok

end System

end StatePool
