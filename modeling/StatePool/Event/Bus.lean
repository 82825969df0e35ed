import StatePool.Fault

/-!
A broadcast bus that keeps the last messages for receivers which read at their own pace.

A receiver knows only the number of the message it reads next.  One that falls further behind than
the bus keeps messages is told once how many it missed and goes on with the oldest kept one.  A
message sent while nobody receives is lost and not counted.
-/

namespace StatePool

structure Bus (α : Type) where
  /-- How many messages are kept; a power of two. -/
  capacity : Nat
  sent : Nat := 0
  /-- The last messages, oldest first, at most `capacity` of them. -/
  kept : List α := []
  receivers : Nat := 0
  closed : Bool := false
  deriving DecidableEq, Repr

/-- A reader's place: the number of the message it reads next. -/
structure Receiver where
  next : Nat
  deriving DecidableEq, Repr, Inhabited

inductive Received (α : Type) where
  | message (a : α)
  | lagged (missed : Nat)
  | empty
  | closed
  deriving DecidableEq, Repr

namespace Bus

variable {α : Type}

def defaultSize : Nat := 1024

/-- As many messages as this have no place in memory. -/
def memoryBound : Nat := Nat.pow 2 57

/-- The least power of two that is not below a size. -/
def roundUp (size : Nat) : Nat :=
  if size ≤ 1 then 1 else Nat.pow 2 ((size - 1).log2 + 1)

/-- A bus that keeps at least `size` messages. -/
def new (size : Nat) : Except Fault (Bus α) :=
  if size = 0 then .error .emptyBus
  else if Nat.pow 2 63 ≤ size then .error .oversizedBus
  else if memoryBound ≤ roundUp size then .error .boundlessBus
  else .ok { capacity := roundUp size }

def standard : Bus α := { capacity := defaultSize }

def emit (bus : Bus α) (a : α) : Bus α :=
  if bus.receivers = 0 then bus
  else
    let kept := bus.kept ++ [a]
    { bus with sent := bus.sent + 1, kept := kept.drop (kept.length - bus.capacity) }

def subscribe (bus : Bus α) : Receiver × Bus α :=
  (⟨bus.sent⟩, { bus with receivers := bus.receivers + 1 })

def unsubscribe (bus : Bus α) : Bus α :=
  { bus with receivers := bus.receivers - 1 }

/-- Ends the sending side; what is kept can still be received. -/
def close (bus : Bus α) : Bus α := { bus with closed := true }

/-- The number of the oldest kept message. -/
def oldest (bus : Bus α) : Nat := bus.sent - bus.kept.length

def receive (bus : Bus α) (receiver : Receiver) : Received α × Receiver :=
  if receiver.next + bus.capacity < bus.sent then
    (.lagged (bus.sent - bus.capacity - receiver.next), ⟨bus.sent - bus.capacity⟩)
  else
    match bus.kept[receiver.next - bus.oldest]? with
    | some a => (.message a, ⟨receiver.next + 1⟩)
    | none => (if bus.closed then .closed else .empty, receiver)

/-- Receives up to `count` times; finding nothing ends it early. -/
def receiveMany (bus : Bus α) : Nat → Receiver → List (Received α) × Receiver
  | 0, receiver => ([], receiver)
  | count + 1, receiver =>
      match bus.receive receiver with
      | (.empty, receiver) => ([.empty], receiver)
      | (.closed, receiver) => ([.closed], receiver)
      | (received, receiver) =>
          let (more, receiver) := receiveMany bus count receiver
          (received :: more, receiver)

/-- Receives until nothing is left: at most one notice, every kept message, and the end. -/
def receiveAll (bus : Bus α) (receiver : Receiver) : List (Received α) × Receiver :=
  bus.receiveMany (bus.kept.length + 2) receiver

@[simp] theorem capacity_emit (bus : Bus α) (a : α) : (bus.emit a).capacity = bus.capacity := by
  unfold emit
  split <;> rfl

/-- A message that nobody receives is lost. -/
theorem emit_of_no_receivers (bus : Bus α) (a : α) (h : bus.receivers = 0) : bus.emit a = bus := by
  simp [emit, h]

end Bus

end StatePool
