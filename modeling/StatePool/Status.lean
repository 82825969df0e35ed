import StatePool.Json.Record
import StatePool.Json.Written

/-!
The stations of a pool's life and the moves between them.
-/

namespace StatePool

inductive Status where
  | ready
  | running
  | exiting
  | dead
  deriving DecidableEq, Repr, Inhabited

namespace Status

def all : List Status := [.ready, .running, .exiting, .dead]

def display : Status → String
  | .ready => "ready"
  | .running => "running"
  | .exiting => "exiting"
  | .dead => "dead"

def name : Status → String
  | .ready => "Ready"
  | .running => "Running"
  | .exiting => "Exiting"
  | .dead => "Dead"

/-- Whether states may be checked out and given back. -/
def accepts : Status → Bool
  | .ready | .running => true
  | .exiting | .dead => false

def isTerminal : Status → Bool
  | .dead => true
  | _ => false

def canRestart (status : Status) : Bool := !status.isTerminal

/-- The moves a pool may make: a pool leaves `ready` once, `dead` never, and repeats only
`exiting`. -/
def canBecome : Status → Status → Bool
  | .ready, .running | .ready, .exiting => true
  | .running, .exiting => true
  | .exiting, .running | .exiting, .exiting | .exiting, .dead => true
  | _, _ => false

/-- The stations one move away, in the order of a life. -/
def successors : Status → List Status
  | .ready => [.running, .exiting]
  | .running => [.exiting]
  | .exiting => [.running, .exiting, .dead]
  | .dead => []

def ofJson (text : String) : Except Json.Fault Status :=
  Json.readWhole (Json.readName (all.map fun status => (status.name.toList, status))) text.toList

def toJson (status : Status) : String := String.ofList (Json.quote status.name.toList)

theorem canBecome_iff_mem_successors (a b : Status) :
    a.canBecome b = true ↔ b ∈ a.successors := by
  cases a <;> cases b <;> decide

theorem accepts_iff (status : Status) :
    status.accepts = true ↔ status = .ready ∨ status = .running := by
  cases status <;> decide

end Status

end StatePool
