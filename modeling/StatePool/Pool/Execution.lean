import StatePool.Script.Program
import StatePool.Pool

/-!
Running work on a state of the pool.

A state is checked out for the work and watched while it runs.  Work that succeeds gives the state
back; work that fails may have left anything behind in it, so its state is closed.
-/

namespace StatePool

/-- What work on a checked-out state sees: the pool and the world, and the state's interpreter. -/
structure Scene where
  site : Site
  interp : Script.Interpreter

/-- What the watch says that is hooked into the interpreter, if there is one. -/
def Scene.tick (scene : Scene) : Option Trip :=
  scene.interp.hook.bind fun watch => watch.verdict scene.site.world

/-- What a certain watch says; it is not asked unless it is the one that is hooked in. -/
def Watch.tick (watch : Watch) (scene : Scene) : Option Trip :=
  if scene.interp.hook = some watch then scene.tick else none

/-- What the pool runs on a state; it may use the pool for other states. -/
abbrev Task (α : Type) := Scene → Work Scene (Outcome ScriptError α)

namespace Task

variable {α β : Type}

/-- Runs past the pool, with whatever is hooked into the interpreter. -/
def runOn (task : Task α) (scene : Scene) : Scene × Outcome ScriptError α :=
  let (scene, result, _) := (task scene).run Scene.tick none
  (scene, result)

def done (result : Outcome ScriptError α) : Task α := fun scene => .finish scene result

/-- Goes on with a result; an error and a fault end the work. -/
def andThen (first : Task α) (next : α → Task β) : Task β := fun scene =>
  (first scene).andThen fun scene result =>
    match result with
    | .ok a => next a scene
    | .error e => .finish scene (.error e)
    | .panic fault => .finish scene (.panic fault)

def script (run : Script.Run α) : Task α := fun scene =>
  let inScene (machine : Script.Machine) : Scene :=
    { site := { scene.site with world := machine.world }, interp := machine.interp }
  ((run { interp := scene.interp, world := scene.site.world }).embed inScene).andThen
    fun scene result =>
      match result with
      | .ok a => .finish scene (.ok a)
      | .error raise => .finish scene (.error raise.report)

def compile (how : Script.Interpreter → Except ScriptError Script.Program) :
    Task Script.Program := fun scene =>
  match how scene.interp with
  | .ok script => .finish scene (.ok script)
  | .error e => .finish scene (.error e)

end Task

namespace Site

variable {α : Type}

/-- What a request comes to, given the last trip of its watchdog: a trip explains any error, and
leaves success and faults as they are. -/
def judge (seconds : Nat) (trip : Option Trip) : Outcome ScriptError α → Outcome PoolError α
  | .ok a => .ok a
  | .panic fault => .panic fault
  | .error e =>
      match trip with
      | some .cancelled => .error .cancelled
      | some .timedOut => .error (.timeout seconds)
      | none => .error (.script e)

/-- What a task that was watched leaves of an interpreter: the watch is unhooked as soon as the task
returns, but a fault unwinds past that. -/
def unwatched (interp : Script.Interpreter) : Outcome ScriptError α → Script.Interpreter
  | .ok _ | .error _ => interp.unhook
  | .panic _ => interp

/-- Runs a task on a checked-out state under a watchdog; yields the state as the task left it. -/
def runWatched (site : Site) (request : Token) (state : LuaState) (task : Task α) :
    Outcome PoolError α × LuaState × Site :=
  match state.interpreter with
  | none => (.error .closed, state, site)
  | some interp =>
      let seconds := site.pool.config.requestTimeout
      match Watch.deadlineFrom site.world.clock seconds with
      | .panic fault => (.panic fault, state, site)
      | .ok deadline =>
          let watch : Watch := { request, own := state.token, deadline }
          let (scene, result, trip) :=
            (task { site, interp := interp.hookIn watch }).run watch.tick none
          let left := unwatched scene.interp result
          (judge seconds trip result, { state with interpreter := some left }, scene.site)

/-- Checks out a state, runs a task on it and gives it back, or closes it if the task fails. -/
def withState (site : Site) (request : Token) (task : Task α) : Outcome PoolError α × Site :=
  match site.get request with
  | (.error e, site) => (.error e, site)
  | (.panic fault, site) => (.panic fault, site)
  | (.ok state, site) =>
      match site.runWatched request state task with
      | (.ok a, state, site) =>
          match site.dropGuard state with
          | (.ok (), site) => (.ok a, site)
          | (.panic fault, site) => (.panic fault, site)
      | (.error e, state, site) =>
          match site.close state .scriptFailure with
          | (.ok (), site) => (.error e, site)
          | (.panic fault, site) => (.panic fault, site)
      | (.panic fault, state, site) =>
          let (_, site) := site.dropGuardUnwinding state
          (.panic fault, site)

end Site

/-! ### Running scripts -/

namespace Task

def runText (origin : Script.Origin) (text : String) : Task Unit :=
  (compile fun interp => Script.Program.compile interp origin text).andThen fun script =>
    (Task.script (script.call [])).andThen fun _ => done (.ok ())

/-- Runs a text as an expression or as statements and takes its results. -/
def evaluate (origin : Script.Origin) (text : String) (wanted : Script.Wanted) :
    Task Script.Taken :=
  (compile fun interp => Script.Program.compileExpression interp origin text).andThen fun script =>
    (Task.script (script.call [])).andThen fun values =>
      match wanted.take values with
      | .ok taken => done (.ok taken)
      | .error e => done (.error e)

def withScript {α : Type} (origin : Script.Origin) (text : String)
    (callback : Script.Program → Task α) : Task α :=
  (compile fun interp => Script.Program.compile interp origin text).andThen callback

end Task

end StatePool
