import StatePool.Session.Command

/-!
A caller's session with a pool.

One observer subscribes as soon as the pool has started and takes note of every event.  A lifecycle
call that would sleep is left pending; as soon as no state is checked out, the pending calls are
finished in the order in which they were made.
-/

namespace StatePool

structure Handle where
  state : LuaState
  guarded : Bool

structure Session where
  site : Site
  files : Files := {}
  handles : List (String × Handle) := []
  hub : Hub Event := { bus := .standard }
  observer : Receiver := ⟨0⟩
  published : Nat := 0
  /-- The lifecycle calls on their way, each with the number of its step. -/
  pending : List (Nat × LifecycleRun) := []

structure StepReport where
  answer : Answer
  /-- The pending calls that finished, each with the number of the step that made it. -/
  finished : List (Nat × Outcome PoolError Unit)
  events : List (Received Event)
  stats : Stats

namespace Session

def begin (site : Site) (files : Files) : Session :=
  let (observer, bus) := (Bus.standard : Bus Event).subscribe
  { site, files, hub := { bus }, observer, published := site.pool.journal.size }

/-! ### Held states -/

def held? (session : Session) (name : String) : Option Handle :=
  session.handles.lookup name

def without (session : Session) (name : String) : Session :=
  { session with handles := session.handles.filter fun entry => entry.1 != name }

def withWorld (session : Session) (world : World) : Session :=
  { session with site := { session.site with world } }

def letGo (session : Session) (handle : Handle) : Outcome Empty Unit × Session :=
  if handle.guarded then
    let (result, site) := session.site.dropGuard handle.state
    (result, { session with site })
  else (.ok (), { session with site := session.site.forget handle.state })

def update (session : Session) (name : String) (handle : Handle) : Session :=
  let session := session.without name
  { session with handles := (name, handle) :: session.handles }

/-- Holds a state under a name; one held there before is let go. -/
def hold (session : Session) (name : String) (handle : Handle) :
    Outcome Empty Unit × Session :=
  match session.held? name with
  | none => (.ok (), session.update name handle)
  | some old => (session.update name handle).letGo old

def infoOf (world : World) (state : LuaState) : Except ClockFault StateInfo :=
  (state.mustTerminate world.clock).map fun mustTerminate =>
    { id := state.id
      requested := state.requested
      serving := state.serving
      closed := state.closed
      hasInterpreter := state.interpreter.isSome
      cancelled := world.isCancelled state.token
      mustTerminate
      servingFor := state.servingFor world.clock
      createdAt := state.createdAt }

def showInfo (session : Session) (state : LuaState) : Answer :=
  match infoOf session.site.world state with
  | .ok info => .info info
  | .error fault => .panicked (.clock fault)

/-- Does something with a held state, if one is held. -/
def onHeld (session : Session) (name : String) (f : Handle → Answer × Session) :
    Answer × Session :=
  match session.held? name with
  | none => (.notHeld, session)
  | some handle => f handle

def change (session : Session) (name : String) (f : World → LuaState → LuaState × World) :
    Answer × Session :=
  session.onHeld name fun handle =>
    let (state, world) := f session.site.world handle.state
    let session := (session.withWorld world).update name { handle with state }
    (session.showInfo state, session)

def giveUp (session : Session) (name : String)
    (f : Site → LuaState → Answer × Site) : Answer × Session :=
  session.onHeld name fun handle =>
    let (answer, site) := f session.site handle.state
    (answer, { session.without name with site })

/-! ### Single commands -/

def advanceClocks (world : World) (both wall monotonic : Int) : World :=
  { world with clock := ((world.clock.advance both).shiftWall wall).shiftMonotonic monotonic }

def newContext (world : World) (name id : String) (parent : Option String) : World :=
  let action :=
    match parent with
    | none => .create name id
    | some parent => .child name parent id
  { world with book := world.book.apply action }

def create (session : Session) (name : String) (context : Option String) (blueprint : Blueprint) :
    Answer × Session :=
  let (token, world) := session.site.world.requestToken context
  let hook := if blueprint.hooked then session.site.pool.hook else none
  match LuaState.create token blueprint.budget blueprint.idleSeconds blueprint.options hook
      world with
  | (.ok state, world) =>
      let (replaced, session) := (session.withWorld world).hold name ⟨state, false⟩
      (.ofSection (session.showInfo state) replaced, session)
  | (.error e, world) => (.failed e, session.withWorld world)
  | (.panic fault, world) => (.panicked fault, session.withWorld world)

def runOn (session : Session) (name text : String) : Answer × Session :=
  session.onHeld name fun handle =>
    match handle.state.interpreter with
    | none => (.noInterpreter, session)
    | some interp =>
        let task := Task.evaluate (.named "run") text .all
        let (scene, result) := task.runOn { site := session.site, interp }
        let state := { handle.state with interpreter := some scene.interp }
        let session := { session with site := scene.site }.update name { handle with state }
        match result with
        | .ok taken => (.reply (Task.replyTaken taken), session)
        | .error e => (.failed (.script e), session)
        | .panic fault => (.panicked fault, session)

def checkOut (session : Session) (name : String) (context : Option String) (guarded : Bool) :
    Answer × Session :=
  let (token, world) := session.site.world.requestToken context
  match (session.withWorld world).site.get token with
  | (.ok state, site) =>
      let (replaced, session) := { session with site }.hold name ⟨state, guarded⟩
      (.ofSection (session.showInfo state) replaced, session)
  | (.error e, site) => (.failed e, { session with site })
  | (.panic fault, site) => (.panicked fault, { session with site })

def drop (session : Session) (name : String) : Answer × Session :=
  session.onHeld name fun handle =>
    let (result, session) := (session.without name).letGo handle
    (.ofSection .ok result, session)

/-- Checks out a state and gives it back or closes it, over and over; the last answer counts, and a
fault ends it. -/
def cycle (context : Option String) (closing : Bool) : Nat → Answer → Site → Answer × Site
  | 0, last, site => (last, site)
  | times + 1, _, site =>
      let (token, world) := site.world.requestToken context
      match { site with world }.get token with
      | (.panic fault, site) => (.panicked fault, site)
      | (.error e, site) => cycle context closing times (.failed e) site
      | (.ok state, site) =>
          let (answer, site) :=
            if closing then
              let (result, site) := site.close state .discarded
              (Answer.ofSection .ok result, site)
            else
              let (result, site) := site.put state
              (Answer.ofOutcome (fun () => .ok) result, site)
          match answer with
          | .panicked fault => (.panicked fault, site)
          | answer => cycle context closing times answer site

/-! ### Lifecycle calls -/

/-- Goes on with the pending calls: the first one as far as it gets, and those behind it once it is
done. -/
def advancePending : List (Nat × LifecycleRun) → Site →
    List (Nat × Outcome PoolError Unit) × List (Nat × LifecycleRun) × Site
  | [], site => ([], [], site)
  | (index, run) :: pending, site =>
      let (run, site) := run.advance site
      match run.result? with
      | none => ([], (index, run) :: pending, site)
      | some result =>
          let (finished, pending, site) := advancePending pending site
          ((index, result) :: finished, pending, site)

/-- Makes a lifecycle call.  One that may sleep is left pending. -/
def order (session : Session) (index : Nat) (order : LifecycleOrder) : Answer × Session :=
  let (call, world) :=
    match order with
    | .shutdown => (LifecycleCall.shutdown, session.site.world)
    | .terminate => (LifecycleCall.terminate, session.site.world)
    | .restart context =>
        let (token, world) := session.site.world.requestToken context
        (LifecycleCall.restart token, world)
  let session := session.withWorld world
  let run : LifecycleRun := { call }
  if 0 < session.site.pool.serving then
    match session.pending with
    | [] =>
        let (run, site) := run.advance session.site
        (.pending, { session with site, pending := [(index, run)] })
    | pending => (.pending, { session with pending := pending ++ [(index, run)] })
  else
    let (run, site) := run.advance session.site
    let result := run.result?.getD (.ok ())
    (.ofOutcome (fun () => .ok) result, { session with site })

/-! ### Steps -/

def execute (session : Session) (index : Nat) : Command → Answer × Session
  | .advance both wall monotonic =>
      (.ok, session.withWorld (advanceClocks session.site.world both wall monotonic))
  | .newContext name id parent =>
      (.ok, session.withWorld (newContext session.site.world name id parent))
  | .cancelContext name =>
      let world := session.site.world
      (.ok, session.withWorld { world with book := world.book.cancelNamed name })
  | .create name context blueprint => session.create name context blueprint
  | .info name => session.onHeld name fun handle => (session.showInfo handle.state, session)
  | .inc name times =>
      session.change name fun world state =>
        ({ state with requested := state.requested + times }, world)
  | .setServing name serving =>
      session.change name fun world state => (state.setServing world.clock serving, world)
  | .closeState name => session.change name fun world state => state.close world
  | .cancelState name =>
      session.change name fun world state => (state, world.cancel state.token)
  | .runOn name text => session.runOn name text
  | .describe name =>
      session.onHeld name fun handle => (.state handle.state handle.guarded, session)
  | .drop name => session.drop name
  | .get name context => session.checkOut name context false
  | .acquire name context => session.checkOut name context true
  | .put name =>
      session.giveUp name fun site state =>
        let (result, site) := site.put state
        (.ofOutcome (fun () => .ok) result, site)
  | .close name | .discard name =>
      session.giveUp name fun site state =>
        let (result, site) := site.close state .discarded
        (.ofSection (.okAbout state.id) result, site)
  | .unguard name =>
      session.onHeld name fun handle =>
        let session := session.update name { handle with guarded := false }
        (session.showInfo handle.state, session)
  | .unwindGuard name =>
      session.giveUp name fun site state =>
        let (_, site) := site.dropGuardUnwinding state
        (.panicked (.raised "host bug"), site)
  | .cycle times context closing =>
      let (answer, site) := cycle context closing times .ok session.site
      (answer, { session with site })
  | .setStateOptions options =>
      (.ok, { session with site := session.site.setStateOptions options })
  | .config => (.text session.site.pool.config.toJson, session)
  | .describePool => (.text session.site.pool.describe, session)
  | .counters => (.counters session.site.pool.stats, session)
  | .subscribe name => (.ok, { session with hub := session.hub.subscribe name })
  | .unsubscribe name =>
      let (existed, hub) := session.hub.unsubscribe name
      (.flag existed, { session with hub })
  | .receive name count =>
      let (received, hub) := session.hub.receive name count
      (.received received, { session with hub })
  | .lifecycle order => session.order index order
  | .request request =>
      let (result, site) := request.perform session.files session.site
      (.ofOutcome .reply result, { session with site })

/-- Finishes the pending calls if no state is checked out. -/
def settle (session : Session) : List (Nat × Outcome PoolError Unit) × Session :=
  if 0 < session.site.pool.serving then ([], session)
  else
    let (finished, pending, site) := advancePending session.pending session.site
    (finished, { session with pending, site })

def publish (session : Session) : Session :=
  let journal := session.site.pool.journal
  { session with
    hub := (journal.toList.drop session.published).foldl Hub.emit session.hub
    published := journal.size }

def observe (session : Session) : List (Received Event) × Session :=
  let (received, observer) := session.hub.bus.receiveAll session.observer
  (received.filter (· != .empty), { session with observer })

def step (session : Session) (index : Nat) (command : Command) : StepReport × Session :=
  let (answer, session) := session.execute index command
  let (finished, session) := session.settle
  let (events, session) := session.publish.observe
  (⟨answer, finished, events, session.site.pool.stats⟩, session)

/-- All steps in order, the first of them with the given number. -/
def stepAll (session : Session) : Nat → List Command → List StepReport × Session
  | _, [] => ([], session)
  | index, command :: commands =>
      let (report, session) := session.step index command
      let (reports, session) := stepAll session (index + 1) commands
      (report :: reports, session)

end Session

end StatePool
