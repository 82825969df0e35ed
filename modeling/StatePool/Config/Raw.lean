import StatePool.IdleTimeout
import StatePool.Limits
import StatePool.Json.Record
import StatePool.Json.Written

/-!
Policy as it is written down: interpreter options and the signed numbers before normalization, with
their document form.
-/

namespace StatePool

/-! ### Interpreter options -/

inductive LibSet where
  /-- All but those that reach below the interpreter. -/
  | safe
  /-- Pure computation only. -/
  | minimal
  deriving DecidableEq, Repr, Inhabited

namespace LibSet

def name : LibSet → String
  | .safe => "safe"
  | .minimal => "minimal"

def all : List LibSet := [.safe, .minimal]

/-- The library tables, sorted. -/
def libraries : LibSet → List String
  | .safe => ["coroutine", "io", "math", "os", "package", "string", "table", "utf8"]
  | .minimal => ["math", "string", "table"]

def read : Json.Reader LibSet :=
  Json.readName (all.map fun libs => (libs.name.toList, libs))

end LibSet

structure StateOptions where
  libs : LibSet := .safe
  /-- In bytes; zero for no limit. -/
  memoryLimit : UInt64 := 0
  deriving DecidableEq, Repr, Inhabited

namespace StateOptions

inductive Field where
  | libs
  | memoryLimit
  deriving DecidableEq, Repr

def shape : Json.Shape StateOptions Field where
  fields := [("libs".toList, .libs), ("memory_limit".toList, .memoryLimit)]
  blank := {}
  readField
    | .libs, options, s =>
        (LibSet.read s).map fun (libs, rest) => ({ options with libs }, rest)
    | .memoryLimit, options, s =>
        (Json.readUInt64 s).map fun (memoryLimit, rest) => ({ options with memoryLimit }, rest)

def write (options : StateOptions) : List Char :=
  Json.writeObject
    [("libs".toList, Json.quote options.libs.name.toList),
      ("memory_limit".toList, Json.writeNat options.memoryLimit.toNat)]

def ofJson (text : String) : Except Json.Fault StateOptions :=
  Json.readWhole shape.read text.toList

def toJson (options : StateOptions) : String := String.ofList options.write

end StateOptions

/-! ### Policy before normalization -/

structure RawConfig where
  capacity : Int64 := 0
  seeds : Int64 := 1
  budget : Int64 := 0
  requestTimeout : Int64 := 120
  idleTimeout : String := "1h"
  stateOptions : StateOptions := {}
  deriving DecidableEq, Repr, Inhabited

namespace RawConfig

inductive Field where
  | capacity
  | seeds
  | budget
  | requestTimeout
  | idleTimeout
  | stateOptions
  deriving DecidableEq, Repr

def shape : Json.Shape RawConfig Field where
  fields :=
    [("max_num".toList, .capacity), ("start_num".toList, .seeds), ("max_request".toList, .budget),
      ("request_terminate_timeout".toList, .requestTimeout),
      ("idle_timeout".toList, .idleTimeout), ("state_options".toList, .stateOptions)]
  blank := {}
  readField
    | .capacity, raw, s =>
        (Json.readInt64 s).map fun (capacity, rest) => ({ raw with capacity }, rest)
    | .seeds, raw, s =>
        (Json.readInt64 s).map fun (seeds, rest) => ({ raw with seeds }, rest)
    | .budget, raw, s =>
        (Json.readInt64 s).map fun (budget, rest) => ({ raw with budget }, rest)
    | .requestTimeout, raw, s =>
        (Json.readInt64 s).map fun (requestTimeout, rest) => ({ raw with requestTimeout }, rest)
    | .idleTimeout, raw, s =>
        (Json.readText s).map fun (text, rest) =>
          ({ raw with idleTimeout := String.ofList text }, rest)
    | .stateOptions, raw, s =>
        (StateOptions.shape.read s).map fun (stateOptions, rest) =>
          ({ raw with stateOptions }, rest)

def write (raw : RawConfig) : List Char :=
  Json.writeObject
    [("max_num".toList, Json.writeInt raw.capacity.toInt),
      ("start_num".toList, Json.writeInt raw.seeds.toInt),
      ("max_request".toList, Json.writeInt raw.budget.toInt),
      ("request_terminate_timeout".toList, Json.writeInt raw.requestTimeout.toInt),
      ("idle_timeout".toList, Json.quote raw.idleTimeout.toList),
      ("state_options".toList, raw.stateOptions.write)]

def ofJson (text : String) : Except Json.Fault RawConfig :=
  Json.readWhole shape.read text.toList

def toJson (raw : RawConfig) : String := String.ofList raw.write

end RawConfig

end StatePool
