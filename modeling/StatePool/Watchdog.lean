import StatePool.Fault
import StatePool.World

/-!
Work under a watchdog.

Work runs in stretches.  After each stretch the watchdog looks at the state it reached and may trip;
a trip reaches the work as an error, which the work is free to pass on or to swallow.  The last trip
is remembered beside the work, so its outcome can be judged when the work is over.
-/

namespace StatePool

inductive Trip where
  | cancelled
  | timedOut
  deriving DecidableEq, Repr

/-- Work on states of type `σ` with a result of type `α`. -/
inductive Work (σ α : Type) where
  | finish (state : σ) (result : α)
  /-- The watchdog looks at a state; the work goes on with what it says. -/
  | look (state : σ) (resume : Option Trip → Work σ α)

namespace Work

variable {σ τ α β : Type}

/-- Goes on with more work where the first ends. -/
def andThen : Work σ α → (σ → α → Work σ β) → Work σ β
  | .finish state result, next => next state result
  | .look state resume, next => .look state fun trip => (resume trip).andThen next

def embed (f : σ → τ) : Work σ α → Work τ α
  | .finish state result => .finish (f state) result
  | .look state resume => .look (f state) fun trip => (resume trip).embed f

/-- Runs work to its end under a watchdog; `last` is the latest trip so far. -/
def run (watch : σ → Option Trip) : Work σ α → Option Trip → σ × α × Option Trip
  | .finish state result, last => (state, result, last)
  | .look state resume, last =>
      match watch state with
      | none => (resume none).run watch last
      | some trip => (resume (some trip)).run watch (some trip)

def runFree (work : Work σ α) : σ × α :=
  let (state, result, _) := work.run (fun _ => none) none
  (state, result)

@[simp] theorem run_finish (watch : σ → Option Trip) (state : σ) (result : α)
    (last : Option Trip) : (finish state result).run watch last = (state, result, last) := rfl

/-- Work done in two parts runs as the first one and then the second one. -/
theorem run_andThen (watch : σ → Option Trip) (work : Work σ α) (next : σ → α → Work σ β)
    (last : Option Trip) :
    (work.andThen next).run watch last =
      (next (work.run watch last).1 (work.run watch last).2.1).run watch
        (work.run watch last).2.2 := by
  induction work generalizing last with
  | finish state result => rfl
  | look state resume ih =>
      simp only [andThen, run]
      split
      · exact ih none last
      · exact ih _ _

/-- All states that the work comes to have a property, whatever it is told at its looks. -/
def Throughout (P : σ → Prop) : Work σ α → Prop
  | .finish state _ => P state
  | .look state resume => P state ∧ ∀ trip, (resume trip).Throughout P

namespace Throughout

variable {P Q : σ → Prop} {work : Work σ α}

theorem mono (h : work.Throughout P) (hle : ∀ state, P state → Q state) : work.Throughout Q := by
  induction work with
  | finish state result => exact hle state h
  | look state resume ih => exact ⟨hle state h.1, fun trip => ih trip (h.2 trip)⟩

theorem andThen {next : σ → α → Work σ β} (h : work.Throughout P)
    (hnext : ∀ state result, P state → (next state result).Throughout P) :
    (work.andThen next).Throughout P := by
  induction work with
  | finish state result => exact hnext state result h
  | look state resume ih => exact ⟨h.1, fun trip => ih trip (h.2 trip)⟩

theorem embed {f : σ → τ} {P : τ → Prop} (h : work.Throughout fun state => P (f state)) :
    (work.embed f).Throughout P := by
  induction work with
  | finish state result => exact h
  | look state resume ih => exact ⟨h.1, fun trip => ih trip (h.2 trip)⟩

theorem run (h : work.Throughout P) (watch : σ → Option Trip) (last : Option Trip) :
    P (work.run watch last).1 := by
  induction work generalizing last with
  | finish state result => exact h
  | look state resume ih =>
      simp only [Work.run]
      split
      · exact ih none (h.2 none) last
      · exact ih _ (h.2 _) _

/-- Two watches that say the same of these states cannot be told apart. -/
theorem run_congr (h : work.Throughout P) {watch other : σ → Option Trip}
    (hsame : ∀ state, P state → watch state = other state) (last : Option Trip) :
    work.run watch last = work.run other last := by
  induction work generalizing last with
  | finish state result => rfl
  | look state resume ih =>
      simp only [Work.run, hsame state h.1]
      split
      · exact ih none (h.2 none) last
      · exact ih _ (h.2 _) _

end Throughout

end Work

structure Watch where
  request : Token
  own : Token
  /-- The first instant of the monotonic clock that is too late. -/
  deadline : Option Int
  deriving DecidableEq, Repr

namespace Watch

/-- A cancellation is noticed before a deadline. -/
def verdict (watch : Watch) (world : World) : Option Trip :=
  if world.isCancelled watch.request || world.isCancelled watch.own then some .cancelled
  else
    match watch.deadline with
    | none => none
    | some deadline => if deadline ≤ world.clock.monotonic then some .timedOut else none

/-- The deadline of a request that starts now; none without a limit.  The clock counts its seconds
in 64 bits, and an instant beyond them cannot be told. -/
def deadlineFrom (clock : Clock) (seconds : Nat) : Outcome Empty (Option Int) :=
  if seconds = 0 then .ok none
  else if Nat.pow 2 63 ≤ Clock.wholeSeconds clock.monotonic + seconds then .panic .deadlineOverflow
  else .ok (some (clock.monotonic + 1000 * seconds))

end Watch

end StatePool
