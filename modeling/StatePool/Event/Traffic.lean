import StatePool.Event.Hub

/-!
Traffic on a bus: what its users do, in order, and what they are answered.
-/

namespace StatePool

inductive BusAction (α : Type) where
  | subscribe (name : String)
  | unsubscribe (name : String)
  | emit (messages : List α)
  /-- Up to a number of times, or until nothing is left. -/
  | receive (name : String) (count : Option Nat)
  | describe
  | close

inductive BusAnswer (α : Type) where
  | ok
  | existed (b : Bool)
  | received (received : List (Received α))
  | text (text : String)
  | noBus

namespace Hub

variable {α : Type}

def emitAll (hub : Hub α) (messages : List α) : Hub α :=
  messages.foldl emit hub

def whileOpen (hub : Hub α) (result : BusAnswer α × Hub α) : BusAnswer α × Hub α :=
  if hub.bus.closed then (.noBus, hub) else result

def apply (hub : Hub α) : BusAction α → BusAnswer α × Hub α
  | .subscribe name => hub.whileOpen (.ok, hub.subscribe name)
  | .unsubscribe name =>
      let (existed, hub) := hub.unsubscribe name
      (.existed existed, hub)
  | .emit messages => hub.whileOpen (.ok, hub.emitAll messages)
  | .receive name count =>
      let (received, hub) := hub.receive name count
      (.received received, hub)
  | .describe => hub.whileOpen (.text hub.describe, hub)
  | .close => (.ok, hub.close)

def applyAll (hub : Hub α) : List (BusAction α) → List (BusAnswer α) × Hub α
  | [] => ([], hub)
  | action :: actions =>
      let (answer, hub) := hub.apply action
      let (answers, hub) := applyAll hub actions
      (answer :: answers, hub)

end Hub

end StatePool
