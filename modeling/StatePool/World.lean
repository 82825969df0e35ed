import StatePool.Clock
import StatePool.Context

/-!
What the pool shares with the rest of the program: the clocks, the contexts with their tokens, and
the numbers that name states and calls of the initialization hook.
-/

namespace StatePool

structure World where
  clock : Clock := {}
  book : ContextBook := {}
  states : Nat := 0
  hookCalls : Nat := 0
  deriving DecidableEq, Repr, Inhabited

/-- What code that the pool was given may do to the world: let time pass, and cancel tokens. -/
inductive HostEffect where
  | advance (ms : Int)
  | cancel (token : Token)
  deriving DecidableEq, Repr

namespace World

def isCancelled (world : World) (token : Token) : Bool :=
  world.book.tokens.isCancelled token

def cancel (world : World) (token : Token) : World :=
  { world with book := world.book.cancelToken token }

def undergo (world : World) : HostEffect → World
  | .advance ms => { world with clock := world.clock.advance ms }
  | .cancel token => world.cancel token

def undergoAll (world : World) (effects : List HostEffect) : World :=
  effects.foldl undergo world

end World

end StatePool
