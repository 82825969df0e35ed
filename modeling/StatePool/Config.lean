import StatePool.Config.Raw

/-!
The policy of a pool in normal form.
-/

namespace StatePool

structure Config where
  /-- The largest number of states, zero for no limit. -/
  capacity : Nat
  seeds : Nat
  /-- How many requests a state serves, zero for no limit. -/
  budget : Nat
  idleTimeout : String
  idleSeconds : Nat
  /-- After how many seconds a request is ended, zero for never. -/
  requestTimeout : Nat
  stateOptions : StateOptions
  deriving DecidableEq, Repr, Inhabited

namespace Config

/-- Normalizes policy numbers and reads the idle timeout; the options are the default ones. -/
def ofPolicy (capacity seeds budget requestTimeout : Int64) (idleTimeout : String) :
    Except PoolError Config :=
  match IdleTimeout.read idleTimeout with
  | .error e => .error e
  | .ok timeout =>
      .ok {
        capacity := Limits.capacity capacity
        seeds := Limits.seeds (Limits.capacity capacity) seeds
        budget := Limits.budget budget
        idleTimeout := String.ofList timeout.text
        idleSeconds := timeout.seconds
        requestTimeout := Limits.requestTimeout requestTimeout
        stateOptions := {} }

def withStateOptions (config : Config) (options : StateOptions) : Config :=
  { config with stateOptions := options }

def ofRaw (raw : RawConfig) : Except PoolError Config :=
  match ofPolicy raw.capacity raw.seeds raw.budget raw.requestTimeout raw.idleTimeout with
  | .error e => .error e
  | .ok config => .ok (config.withStateOptions raw.stateOptions)

def ofJson (text : String) : Except PoolError Config :=
  match RawConfig.ofJson text with
  | .error fault => .error (.configuration "invalid JSON pool config" (some (.document fault)))
  | .ok raw => ofRaw raw

/-- One seed state, no limits but an hour of idleness and two minutes for a request. -/
def default : Config where
  capacity := Limits.defaultCapacity
  seeds := Limits.defaultSeeds
  budget := Limits.defaultBudget
  idleTimeout := "1h"
  idleSeconds := 3600
  requestTimeout := Limits.defaultRequestTimeout
  stateOptions := {}

def write (config : Config) : List Char :=
  Json.writeObject
    [("max_num".toList, Json.writeNat config.capacity),
      ("start_num".toList, Json.writeNat config.seeds),
      ("max_request".toList, Json.writeNat config.budget),
      ("idle_timeout".toList, Json.quote config.idleTimeout.toList),
      ("idle_timeout_secs".toList, Json.writeNat config.idleSeconds),
      ("request_terminate_timeout".toList, Json.writeNat config.requestTimeout),
      ("state_options".toList, config.stateOptions.write)]

def toJson (config : Config) : String := String.ofList config.write

def describe (config : Config) : String :=
  let options := config.stateOptions
  let libs :=
    match options.libs with
    | .safe => "Safe"
    | .minimal => "Minimal"
  "Config \x7b max_num: " ++ toString config.capacity ++
    ", start_num: " ++ toString config.seeds ++
    ", max_request: " ++ toString config.budget ++
    ", idle_timeout: \"" ++ config.idleTimeout ++
    "\", idle_timeout_secs: " ++ toString config.idleSeconds ++
    ", request_terminate_timeout: " ++ toString config.requestTimeout ++
    ", state_options: StateOptions \x7b libs: " ++ libs ++
    ", memory_limit: " ++ toString options.memoryLimit.toNat ++ " \x7d \x7d"

end Config

end StatePool
