import StatePool.Json.Reading
import StatePool.Text.Integer

/-!
What can go wrong, as causes; the wording of each is in one place.
-/

namespace StatePool

/-- The first line of a text, without its line end. -/
def firstLine (text : String) : String :=
  let line := text.toList.takeWhile (· ≠ '\n')
  let cut := line.length < text.length && line.getLast? = some '\r'
  String.ofList (if cut then line.dropLast else line)

inductive ScriptError where
  /-- The chunk does not parse; the place is its name and line. -/
  | unparsable (place : String)
  | runtime (message : String)
  | outOfMemory
  | callback (message : String)
  /-- A script's value is not of the type that the host asked for. -/
  | conversion (source target : String)
  | other (message : String)
  deriving DecidableEq, Repr

namespace ScriptError

def kind : ScriptError → String
  | .unparsable _ => "SyntaxError"
  | .runtime _ => "RuntimeError"
  | .outOfMemory => "MemoryError"
  | .callback _ => "CallbackError"
  | .conversion _ _ => "FromLuaConversionError"
  | .other _ => "Other"

/-- The text of an error, of which only the first line is kept. -/
def cause : ScriptError → String
  | .unparsable place => place
  | .runtime message | .callback message | .other message => firstLine message
  | .outOfMemory => ""
  | .conversion source target => source ++ " -> " ++ target

end ScriptError

inductive ConfigFault where
  | integer (fault : Text.IntegerFault)
  | document (fault : Json.Fault)
  deriving DecidableEq, Repr

inductive PoolError where
  | full (capacity : Nat)
  | exiting
  | dead
  | closed
  | idleTimeoutFormat (text : String)
  | configuration (summary : String) (cause : Option ConfigFault)
  | initialization (reason : String) (cause : ScriptError)
  | script (cause : ScriptError)
  | timeout (seconds : Nat)
  | cancelled
  | unreadable (chunk cause : String)
  deriving DecidableEq, Repr

namespace PoolError

def message : PoolError → String
  | .full capacity => s!"State pool is full: {capacity} states in use"
  | .exiting => "State pool is exiting"
  | .dead => "State pool is dead"
  | .closed => "Lua state is already closed"
  | .idleTimeoutFormat text => "Invalid idle timeout format '" ++ text ++ "': expected <n><d|h|m|s>"
  | .configuration summary _ => "Configuration error: " ++ summary
  | .initialization reason _ => "Failed to initialize Lua state: " ++ reason
  | .script cause => "Script error: " ++ cause.cause
  | .timeout seconds => s!"Execution timed out after {seconds}s"
  | .cancelled => "Execution cancelled"
  | .unreadable chunk cause => "Failed to read chunk '" ++ chunk ++ "': " ++ cause

/-- Whether the same request may succeed later on the same pool. -/
def isRetryable : PoolError → Bool
  | .full _ | .timeout _ => true
  | _ => false

/-- Whether the error only says that the pool or the state is at the end of its life. -/
def isLifecycle : PoolError → Bool
  | .exiting | .dead | .closed => true
  | _ => false

end PoolError

end StatePool
