import StatePool.Event.Bus

/-!
A bus together with receivers that are held by name.
-/

namespace StatePool

structure Hub (α : Type) where
  bus : Bus α
  receivers : List (String × Receiver) := []
  deriving DecidableEq, Repr

namespace Hub

variable {α : Type}

def get? (hub : Hub α) (name : String) : Option Receiver :=
  hub.receivers.lookup name

def without (hub : Hub α) (name : String) : List (String × Receiver) :=
  hub.receivers.filter fun entry => entry.1 != name

/-- Drops the receiver of a name and says whether there was one. -/
def unsubscribe (hub : Hub α) (name : String) : Bool × Hub α :=
  match hub.get? name with
  | none => (false, hub)
  | some _ => (true, ⟨hub.bus.unsubscribe, hub.without name⟩)

/-- Subscribes under a name; an older receiver of that name is dropped. -/
def subscribe (hub : Hub α) (name : String) : Hub α :=
  let (receiver, bus) := hub.bus.subscribe
  let bus := if (hub.get? name).isSome then bus.unsubscribe else bus
  ⟨bus, (name, receiver) :: hub.without name⟩

def emit (hub : Hub α) (a : α) : Hub α :=
  { hub with bus := hub.bus.emit a }

def close (hub : Hub α) : Hub α :=
  { hub with bus := hub.bus.close }

/-- Receives under a name, a number of times or until nothing is left. -/
def receive (hub : Hub α) (name : String) (count : Option Nat) : List (Received α) × Hub α :=
  match hub.get? name with
  | none => ([], hub)
  | some receiver =>
      let (received, receiver) :=
        match count with
        | some count => hub.bus.receiveMany count receiver
        | none => hub.bus.receiveAll receiver
      (received, { hub with receivers := (name, receiver) :: hub.without name })

def describe (hub : Hub α) : String :=
  "EventBus \x7b subscriber_count: " ++ toString hub.bus.receivers ++ " \x7d"

end Hub

end StatePool
