/-!
Normal forms of the signed policy numbers.

A negative number asks for the default.  Zero means no limit, except for the number of seed states,
which is at least one and at most the capacity.
-/

namespace StatePool.Limits

def defaultCapacity : Nat := 0

def defaultSeeds : Nat := 1

def defaultBudget : Nat := 0

def defaultRequestTimeout : Nat := 120

def orDefault (default : Nat) (n : Int64) : Nat :=
  if n < 0 then default else n.toNatClampNeg

/-- The largest number of states, zero for no limit. -/
def capacity (n : Int64) : Nat := orDefault defaultCapacity n

/-- The number of states a pool starts with.  An unusable one becomes the first number above half of
the capacity. -/
def seeds (capacity : Nat) (n : Int64) : Nat :=
  if capacity = 0 then
    if n ≤ 0 then defaultSeeds else n.toNatClampNeg
  else if n ≤ 0 ∨ capacity < n.toNatClampNeg then capacity / 2 + 1
  else n.toNatClampNeg

/-- How many requests a state serves, zero for no limit. -/
def budget (n : Int64) : Nat := orDefault defaultBudget n

/-- After how many seconds a request is ended, zero for never. -/
def requestTimeout (n : Int64) : Nat := orDefault defaultRequestTimeout n

end StatePool.Limits
