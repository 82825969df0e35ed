import StatePool.Pool.Execution
import StatePool.Session.Files

/-!
Requests that a caller makes of a pool, as data, and what they come to.

A request names its context; without a name it belongs to no one and gets a context of its own.
-/

namespace StatePool

inductive HostValue where
  | nil
  | bool (b : Bool)
  | int (n : Int64)
  | text (s : String)
  deriving DecidableEq, Repr

def HostValue.toValue : HostValue → Script.Value
  | .nil => .nil
  | .bool b => .bool b
  | .int n => .int n
  | .text s => .ofString s

inductive LoadPlan where
  /-- Fails without calling it. -/
  | fail (message : String)
  | keep
  | call (times : Nat) (arguments : List HostValue)
  deriving DecidableEq, Repr

inductive Reading where
  | piece (text : String)
  /-- Nothing yet; the attempt is to be repeated. -/
  | interrupted
  | failure (message : String)
  deriving DecidableEq, Repr

/-- What a source of text yields, attempt by attempt, up to its end. -/
abbrev Source := List Reading

/-- Reads a source to its end; the first failure ends it, and so does an empty piece. -/
def Source.read : Source → Except String String
  | [] => .ok ""
  | .piece text :: rest =>
      if text.isEmpty then .ok "" else (read rest).map fun more => text ++ more
  | .interrupted :: rest => read rest
  | .failure message :: _ => .error message

mutual

inductive Request where
  | doString (context : Option String) (text : String)
  | doFile (context : Option String) (path : String)
  | eval (context : Option String) (text : String) (wanted : Script.Wanted)
  | loadString (context : Option String) (text : String) (plan : LoadPlan)
  | loadFile (context : Option String) (path : String) (plan : LoadPlan)
  | load (context : Option String) (name : String) (source : Source) (plan : LoadPlan)
  | withState (context : Option String) (acts : List Act)

inductive Act where
  | set (name : String) (value : HostValue)
  | get (name : String)
  | run (text : String)
  | cancel (context : String)
  | advance (ms : Int)
  | fail (message : String)
  | panic (message : String)
  | stats
  | nested (request : Request)

end

inductive Reply where
  | ok
  | compiled
  | nothing
  | value (value : Script.Value)
  | values (values : List Script.Value)
  | stats (stats : Stats)
  | failed (e : PoolError)
  | replies (replies : List Reply)

namespace World

/-- The token of a request that names its context. -/
def requestToken (world : World) (context : Option String) : Token × World :=
  match context.bind world.book.get? with
  | some context => (context.token, world)
  | none =>
      let (context, book) := world.book.fresh backgroundId
      (context.token, { world with book })

end World

namespace Task

/-- Calls a script a number of times with the same arguments; the last results are kept. -/
def callTimes (script : Script.Program) (arguments : List Script.Value) : Nat → Reply → Task Reply
  | 0, last => done (.ok last)
  | times + 1, _ =>
      (Task.script (script.call arguments)).andThen fun values =>
        callTimes script arguments times (.values values)

def follow (plan : LoadPlan) (script : Script.Program) : Task Reply :=
  match plan with
  | .fail message => done (.error (.runtime message))
  | .keep => done (.ok .compiled)
  | .call times arguments => callTimes script (arguments.map HostValue.toValue) times .nothing

/-- Touches a global variable, for which an interpreter without memory has no room. -/
def onGlobals {α : Type} (f : Script.Interpreter → α × Script.Interpreter) : Task α := fun scene =>
  if scene.interp.isStarved then .finish scene (.error .outOfMemory)
  else
    let (a, interp) := f scene.interp
    .finish { scene with interp } (.ok a)

def onWorld (f : World → World) : Task Unit := fun scene =>
  .finish { scene with site := { scene.site with world := f scene.site.world } } (.ok ())

def replyTaken : Script.Taken → Reply
  | .many values => .values values
  | .one value => .value value

end Task

def Site.ask {α : Type} (site : Site) (context : Option String) (task : Task α) :
    Outcome PoolError α × Site :=
  let (token, world) := site.world.requestToken context
  { site with world }.withState token task

/-- Reads a file before the pool is touched. -/
def Site.askWithFile {α : Type} (site : Site) (files : Files) (context : Option String)
    (path : String) (task : String → Task α) : Outcome PoolError α × Site :=
  match files.read path with
  | .error fault => (.error (.unreadable path fault.message), site)
  | .ok text => site.ask context (task text)

mutual

def Request.perform (files : Files) : Request → Site → Outcome PoolError Reply × Site
  | .doString context text, site =>
      site.ask context <|
        (Task.runText (.named "do_string") text).andThen fun () => Task.done (.ok .ok)
  | .doFile context path, site =>
      site.askWithFile files context path fun text =>
        (Task.runText (.file path) text).andThen fun () => Task.done (.ok .ok)
  | .eval context text wanted, site =>
      site.ask context <|
        (Task.evaluate (.named "eval") text wanted).andThen fun taken =>
          Task.done (.ok (Task.replyTaken taken))
  | .loadString context text plan, site =>
      site.ask context (Task.withScript (.named "load_string") text (Task.follow plan))
  | .loadFile context path plan, site =>
      site.askWithFile files context path fun text =>
        Task.withScript (.file path) text (Task.follow plan)
  | .load context name source plan, site =>
      match Source.read source with
      | .error message => (.error (.unreadable name message), site)
      | .ok text => site.ask context (Task.withScript (.named name) text (Task.follow plan))
  | .withState context acts, site =>
      site.ask context <|
        (Act.performAll files acts).andThen fun replies => Task.done (.ok (.replies replies))

def Act.perform (files : Files) : Act → Task Reply
  | .set name value =>
      (Task.onGlobals fun interp => ((), interp.define name value.toValue)).andThen fun () =>
        Task.done (.ok .ok)
  | .get name =>
      (Task.onGlobals fun interp => (interp.lookUp name, interp)).andThen fun value =>
        Task.done (.ok (.value value))
  | .run text =>
      (Task.evaluate (.named "act") text .all).andThen fun taken =>
        Task.done (.ok (Task.replyTaken taken))
  | .cancel context =>
      (Task.onWorld fun world => { world with book := world.book.cancelNamed context }).andThen
        fun () => Task.done (.ok .ok)
  | .advance ms =>
      (Task.onWorld fun world => { world with clock := world.clock.advance ms }).andThen
        fun () => Task.done (.ok .ok)
  | .fail message => Task.done (.error (.runtime message))
  | .panic message => Task.done (.panic (.raised message))
  | .stats => fun scene => .finish scene (.ok (.stats scene.site.pool.stats))
  | .nested request => fun scene =>
      let (result, site) := request.perform files scene.site
      .finish { scene with site } <|
        match result with
        | .ok reply => .ok reply
        | .error e => .ok (.failed e)
        | .panic fault => .panic fault

/-- Carries out acts in order; the first failure ends them. -/
def Act.performAll (files : Files) : List Act → Task (List Reply)
  | [] => Task.done (.ok [])
  | act :: acts =>
      (act.perform files).andThen fun reply =>
        (Act.performAll files acts).andThen fun replies => Task.done (.ok (reply :: replies))

end

end StatePool
