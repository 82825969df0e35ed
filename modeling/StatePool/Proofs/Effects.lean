import StatePool.Pool.Execution
import StatePool.Proofs.Sections

/-!
What a script can do outside of its interpreter.

A script reaches the world through the functions of the host alone, and what is hooked into its
interpreter it does not reach at all.  So whatever it runs, and whenever the watchdog stops it, the
world behind it is the one before it after some host effects, and the same watch is hooked in.
-/

namespace StatePool

theorem Work.run_embed {σ τ α : Type} (f : σ → τ) (watch : τ → Option Trip) (work : Work σ α)
    (last : Option Trip) :
    (work.embed f).run watch last =
      let ran := work.run (fun state => watch (f state)) last
      (f ran.1, ran.2.1, ran.2.2) := by
  induction work generalizing last with
  | finish state result => rfl
  | look state resume ih =>
      simp only [embed, run]
      split
      · exact ih none last
      · exact ih _ _

namespace Script

/-- What is around a script: the world, and the watch that is hooked into its interpreter. -/
structure Surroundings where
  world : World
  hook : Option Watch

namespace Surroundings

/-- The second surroundings are the first ones after some host effects. -/
def Undergone (before after : Surroundings) : Prop :=
  ∃ effects, after = { before with world := before.world.undergoAll effects }

namespace Undergone

variable {before after last : Surroundings}

theorem refl (before : Surroundings) : before.Undergone before :=
  ⟨[], rfl⟩

theorem of_eq (h : after = before) : before.Undergone after :=
  ⟨[], h⟩

theorem single (before : Surroundings) (effect : HostEffect) :
    before.Undergone { before with world := before.world.undergo effect } :=
  ⟨[effect], rfl⟩

theorem trans (h : before.Undergone after) (later : after.Undergone last) :
    before.Undergone last := by
  obtain ⟨effects, rfl⟩ := h
  obtain ⟨more, rfl⟩ := later
  exact ⟨effects ++ more, by simp [World.undergoAll]⟩

theorem states_eq (h : before.Undergone after) : after.world.states = before.world.states := by
  obtain ⟨effects, rfl⟩ := h
  exact before.world.states_undergoAll effects

theorem hook_eq (h : before.Undergone after) : after.hook = before.hook := by
  obtain ⟨effects, rfl⟩ := h
  rfl

end Undergone

end Surroundings

def Machine.around (machine : Machine) : Surroundings :=
  ⟨machine.world, machine.interp.hook⟩

def Step.around : Step → Surroundings
  | .running machine => machine.around
  | .finished machine _ => machine.around

@[simp] theorem Step.around_running (machine : Machine) :
    (Step.running machine).around = machine.around := rfl

@[simp] theorem Step.around_finished (machine : Machine) (result : Except Raise (List Value)) :
    (Step.finished machine result).around = machine.around := rfl

namespace Machine

variable {machine next : Machine}

/-- The surroundings are seen in two of the fields. -/
@[simp] theorem around_mk (interp : Interpreter) (world : World) (effects : List HostEffect)
    (stack : Array Value) (top : Nat) (frame : Frame) (callers : List Caller) (guards room : Nat)
    (shared : List (Nat × Nat)) :
    (Machine.mk interp world effects stack top frame callers guards room shared).around =
      ⟨world, interp.hook⟩ := rfl

@[simp] theorem mk_eq_around (machine : Machine) :
    Surroundings.mk machine.world machine.interp.hook = machine.around := rfl

/-! ### The stack and the cells -/

@[simp] theorem around_put (machine : Machine) (slot : Nat) (value : Value) :
    (machine.put slot value).around = machine.around := rfl

@[simp] theorem around_write (machine : Machine) (register : Nat) (value : Value) :
    (machine.write register value).around = machine.around := rfl

@[simp] theorem around_putAll (machine : Machine) (slot : Nat) (values : List Value) :
    (machine.putAll slot values).around = machine.around := by
  induction values generalizing machine slot with
  | nil => rfl
  | cons value values ih => simp [putAll, ih]

@[simp] theorem around_accept (machine : Machine) (slot : Nat) (wanted : Count)
    (values : List Value) : (machine.accept slot wanted values).around = machine.around := by
  cases wanted <;> simp [accept]

@[simp] theorem around_go (machine : Machine) (pc : Nat) :
    (machine.go pc).around = machine.around :=
  rfl

@[simp] theorem around_advance (machine : Machine) : machine.advance.around = machine.around := rfl

@[simp] theorem around_writeCell (machine : Machine) (cell : Nat) (value : Value) :
    (machine.writeCell cell value).around = machine.around := by
  unfold writeCell
  split <;> rfl

@[simp] theorem around_share (machine : Machine) (slot : Nat) :
    (machine.share slot).2.around = machine.around := by
  unfold share
  split <;> rfl

@[simp] theorem around_partFrom (machine : Machine) (slot : Nat) :
    (machine.partFrom slot).around = machine.around := by
  unfold partFrom
  split
  · rfl
  · split <;> rfl

@[simp] theorem around_newText (machine : Machine) (bytes : Bytes) :
    (machine.newText bytes).2.around = machine.around := by
  unfold newText
  split <;> rfl

/-! ### Returns and errors -/

@[simp] theorem around_complete (machine : Machine) (values : List Value) (slot : Nat)
    (wanted : Count) (isLast : Bool) (callers : List Caller) :
    (machine.complete values slot wanted isLast callers).around = machine.around := by
  induction callers generalizing machine values slot wanted isLast with
  | nil => rfl
  | cons caller callers ih =>
      cases caller with
      | script frame =>
          simp only [complete]
          split <;> simp [ih]
      | guard => simp [complete, ih]

@[simp] theorem around_hand (machine : Machine) (values : List Value) (slot : Nat)
    (wanted : Count) (isLast : Bool) :
    (machine.hand values slot wanted isLast).around = machine.around := by
  unfold hand
  split <;> simp

theorem around_caught {raise : Raise} {value : Value}
    (h : machine.caught raise = some (value, next)) :
    next.around = machine.around := by
  cases raise <;> cases h <;> rfl

@[simp] theorem around_unwind (machine : Machine) (raise : Raise) (callers : List Caller) :
    (machine.unwind raise callers).around = machine.around := by
  induction callers generalizing machine with
  | nil => simp [unwind]
  | cons caller callers ih =>
      cases caller with
      | script frame => exact ih machine
      | guard =>
          simp only [unwind]
          split
          · exact ih machine
          · next hcaught => simp [around_caught hcaught]

@[simp] theorem around_raise (machine : Machine) (raise : Raise) :
    (machine.raise raise).around = machine.around :=
  machine.around_unwind raise machine.callers

@[simp] theorem around_raiseText (machine : Machine) (text : Bytes) :
    (machine.raiseText text).around = machine.around :=
  machine.around_raise _

@[simp] theorem around_complain (machine : Machine) (message : String) :
    (machine.complain message).around = machine.around :=
  machine.around_raiseText _

@[simp] theorem around_complainAbout (machine : Machine) (action : String) (value : Value)
    (register : Nat) : (machine.complainAbout action value register).around = machine.around :=
  machine.around_complain _

@[simp] theorem around_raiseAt (machine : Machine) (site : Machine.Site) (message : String) :
    (machine.raiseAt site message).around = machine.around :=
  machine.around_raiseText _

@[simp] theorem around_obstruct (machine : Machine) (site : Machine.Site) (obstacle : Obstacle) :
    (machine.obstruct site obstacle).around = machine.around := by
  cases obstacle <;> simp [obstruct]

/-! ### Calls -/

theorem around_claimSlots {used more : Nat} (h : machine.claimSlots used more = .ok next) :
    next.around = machine.around := by
  unfold claimSlots at h
  simp only at h
  split at h
  · cases h
    rfl
  · split at h
    · cases h
    · split at h
      · cases h
        rfl
      · cases h

@[simp] theorem around_spread (machine : Machine) (given : Nat) :
    (machine.spread given).around = machine.around := by
  unfold spread
  simp only
  split
  · simp
  · next hclaim => simp [around_claimSlots hclaim]

@[simp] theorem around_start (machine : Machine) (site : Machine.Site) (closure : Closure)
    (slot given : Nat) (wanted : Count) (callers : List Caller) :
    (machine.start site closure slot given wanted callers).around = machine.around := by
  unfold start
  simp only
  split
  · simp
  · next hclaim => split <;> simp [around_claimSlots hclaim]

@[simp] theorem around_answer (machine : Machine) (call : Invocation) (values : List Value) :
    (machine.answer call values).around = machine.around := by
  unfold answer
  split <;> simp

@[simp] theorem around_badArgument (machine : Machine) (call : Invocation) (position : Nat)
    (problem : String) : (machine.badArgument call position problem).around = machine.around :=
  machine.around_raiseAt _ _

@[simp] theorem around_raiseError (machine : Machine) (call : Invocation) :
    (machine.raiseError call).around = machine.around := by
  unfold raiseError
  simp only
  split
  · simp
  · split
    · simp only [apply_ite Step.around, around_raise, ite_self]
    · simp

@[simp] theorem around_repeatText (machine : Machine) (call : Invocation) :
    (machine.repeatText call).around = machine.around := by
  unfold repeatText
  simp only
  split
  · simp
  · simp
  · simp
  · simp only [apply_ite Step.around, around_answer, around_newText, around_raiseAt, around_raise,
      ite_self]

@[simp] theorem around_refuseArgument (machine : Machine) (source target reason : String) :
    (machine.refuseArgument source target reason).around = machine.around :=
  machine.around_raise _

theorem withHostText_undergone (machine : Machine) (call : Invocation)
    {action : Machine → String → Step}
    (h : ∀ text, machine.around.Undergone (action machine text).around) :
    machine.around.Undergone (machine.withHostText call action).around := by
  unfold withHostText
  simp only
  split
  · exact .of_eq (by simp)
  · split
    · exact h _
    · exact .of_eq (by simp)

theorem withHostInt_undergone (machine : Machine) (call : Invocation)
    {action : Machine → Int64 → Step}
    (h : ∀ n, machine.around.Undergone (action machine n).around) :
    machine.around.Undergone (machine.withHostInt call action).around := by
  unfold withHostInt
  simp only
  split
  · exact h _
  · exact .of_eq (by simp)
  · exact .of_eq (by simp)

/-- Of all that a script can call, two functions of the host act on the world. -/
theorem invoke_undergone (machine : Machine) (call : Invocation) (builtin : Builtin) :
    machine.around.Undergone (machine.invoke call builtin).around := by
  unfold invoke
  cases builtin with
  | raise => exact .of_eq (machine.around_raiseError call)
  | repeatText => exact .of_eq (machine.around_repeatText call)
  | hostCancel =>
      refine withHostText_undergone machine call fun name => ?_
      simp only [around_answer, cancelNamed]
      split
      · exact .refl _
      · exact .single machine.around (.cancel _)
  | hostAdvance =>
      refine withHostInt_undergone machine call fun ms => ?_
      simp only [around_answer]
      exact .single machine.around (.advance _)
  | hostFail =>
      refine withHostText_undergone machine call fun message => ?_
      exact .of_eq (machine.around_raise _)
  | protect | other => exact .of_eq (machine.around_raise _)

@[simp] theorem around_callClosure (machine : Machine) (site : Machine.Site) (closure : Closure)
    (slot given : Nat) (wanted : Count) (isLast : Bool) :
    (machine.callClosure site closure slot given wanted isLast).around = machine.around := by
  unfold callClosure
  split
  · simp
  · simp
  · simp only
    split
    · simp
    · next hclaim => simp [around_claimSlots hclaim]

theorem callPlain_undergone (machine : Machine) (call : Invocation) (callee : Value) :
    machine.around.Undergone (machine.callPlain call callee).around := by
  unfold callPlain
  split
  · exact .of_eq (by simp)
  · split
    · exact .of_eq (by simp)
    · next hclaim =>
        rw [← around_claimSlots hclaim]
        split
        · exact .of_eq (by simp)
        · exact invoke_undergone _ _ _
  · exact .of_eq (by simp)

theorem around_guard {call : Invocation} (h : machine.guard call = .ok next) :
    next.around = machine.around := by
  unfold guard at h
  cases hclaim : machine.claimSlots (call.slot + 1 + call.given) builtinSlots with
  | error obstacle =>
      rw [hclaim] at h
      cases h
  | ok claimed =>
      rw [hclaim] at h
      cases h
      simp [around_claimSlots hclaim]

theorem callValue_undergone (machine : Machine) (site : Machine.Site) (slot : Nat)
    (wanted : Count) (isLast : Bool) (given : Nat) :
    machine.around.Undergone (machine.callValue site slot wanted isLast given).around := by
  induction given generalizing machine site slot wanted isLast with
  | zero => exact machine.callPlain_undergone _ _
  | succ given ih =>
      simp only [callValue]
      split
      · split
        · exact .of_eq (by simp)
        · next hguard =>
            rw [← around_guard hguard]
            split
            · exact .of_eq (by simp)
            · exact ih _ _ _ _ _
      · exact machine.callPlain_undergone _ _

/-! ### Instructions -/

@[simp] theorem around_readMember (machine : Machine) (target : Nat) (table key : Value)
    (name : String) : (machine.readMember target table key name).around = machine.around := by
  unfold readMember
  simp only
  split <;> split <;> simp

@[simp] theorem around_assignMember (machine : Machine) (table key value : Value) (name : String) :
    (machine.assignMember table key value name).around = machine.around := by
  unfold assignMember
  split
  · split <;> simp
  · simp
  · simp

theorem around_readyTextArith (h : machine.readyTextArith = .ok next) :
    next.around = machine.around := by
  unfold readyTextArith at h
  split at h
  · cases h
  · exact around_claimSlots h

@[simp] theorem around_textArith (machine : Machine) (target : Nat) (verb : String)
    (left right : Value) (apply : Number → Number → Number) :
    (machine.textArith target verb left right apply).around = machine.around := by
  unfold textArith
  split
  · simp
  · next hready => split <;> simp [around_readyTextArith hready]

@[simp] theorem around_otherArith (machine : Machine) (op : ArithOp) (left right : Source) :
    (machine.otherArith op left right).around = machine.around := by
  unfold otherArith
  simp only [apply_ite Step.around, around_textArith, around_complain, ite_self]

@[simp] theorem around_negate (machine : Machine) (target source : Nat) :
    (machine.negate target source).around = machine.around := by
  unfold negate
  split <;> simp

@[simp] theorem around_concat (machine : Machine) (first count : Nat) :
    (machine.concat first count).around = machine.around := by
  unfold concat
  simp only
  split
  · simp
  · split
    · simp
    · simp
    · split <;> simp

@[simp] theorem around_complainLoop (machine : Machine) (part : String) (value : Value) :
    (machine.complainLoop part value).around = machine.around :=
  machine.around_complain _

@[simp] theorem around_prepareIntLoop (machine : Machine) (base exit : Nat) (first step : Int64) :
    (machine.prepareIntLoop base exit first step).around = machine.around := by
  unfold prepareIntLoop
  simp only
  split
  · simp
  · split
    · simp
    · split <;> simp

@[simp] theorem around_prepareFloatLoop (machine : Machine) (base exit : Nat) :
    (machine.prepareFloatLoop base exit).around = machine.around := by
  unfold prepareFloatLoop
  simp only
  split
  · simp
  · simp
  · simp
  · simp only [apply_ite Step.around, Step.around_running, around_advance, around_putAll, around_go,
      around_complain, ite_self]

@[simp] theorem around_prepareLoop (machine : Machine) (base exit : Nat) :
    (machine.prepareLoop base exit).around = machine.around := by
  unfold prepareLoop
  split <;> simp

@[simp] theorem around_repeatLoop (machine : Machine) (base body : Nat) :
    (machine.repeatLoop base body).around = machine.around := by
  unfold repeatLoop
  split
  · split <;> simp
  · simp only
    split <;> simp
  · simp

@[simp] theorem around_capture (upvalues : List Upvalue) (machine : Machine) :
    (capture upvalues machine).2.around = machine.around := by
  induction upvalues generalizing machine with
  | nil => rfl
  | cons upvalue upvalues ih =>
      simp only [capture, ih]
      split <;> simp

@[simp] theorem around_makeClosure (machine : Machine) (target number : Nat) :
    (machine.makeClosure target number).around = machine.around := by
  simp [makeClosure, newObject]

@[simp] theorem around_readExtra (machine : Machine) (target : Nat) (count : Count) :
    (machine.readExtra target count).around = machine.around := by
  unfold readExtra
  simp only
  split
  · simp
  · next hclaim => simp [around_claimSlots hclaim]

@[simp] theorem around_ret (machine : Machine) (first : Nat) (count : Count) :
    (machine.ret first count).around = machine.around := by
  simp [ret]

@[simp] theorem around_branch (machine : Machine) (taken : Bool) :
    (machine.branch taken).around = machine.around := by
  unfold branch
  simp only
  split
  · split <;> simp
  · simp

theorem step_undergone (machine : Machine) : machine.around.Undergone machine.step.around := by
  unfold step
  cases machine.frame.closure.code.instruction machine.frame.pc with
  | call base arguments results => exact machine.callValue_undergone _ _ _ _ _
  | tailCall base arguments =>
      rw [← machine.around_partFrom machine.frame.base]
      exact callValue_undergone _ _ _ _ _ _
  | arith op target left right =>
      simp only
      split <;> exact .of_eq (by simp)
  | testSet target source expected =>
      simp only
      split <;> exact .of_eq (by simp)
  | _ => exact .of_eq (by simp)

/-! ### Runs -/

def Stretch.around : Stretch → Surroundings
  | .paused machine => machine.around
  | .finished machine _ => machine.around

theorem stretch_undergone (left : Nat) (machine : Machine) :
    machine.around.Undergone (stretch left machine).around := by
  induction left generalizing machine with
  | zero => exact .refl _
  | succ left ih =>
      have hstep := machine.step_undergone
      simp only [stretch]
      cases h : machine.step with
      | running next =>
          rw [h] at hstep
          exact hstep.trans (ih next)
      | finished next result =>
          rw [h] at hstep
          exact hstep

theorem afterLook_undergone (machine : Machine) (trip : Option Trip) :
    machine.around.Undergone (machine.afterLook trip).around := by
  cases trip with
  | none => exact machine.step_undergone
  | some trip => exact .of_eq (machine.around_raise _)

theorem run_throughout (bound : Nat) (machine : Machine) :
    (machine.run bound).Throughout fun next => machine.around.Undergone next.around := by
  induction bound generalizing machine with
  | zero => exact .refl _
  | succ bound ih =>
      have hstretch := stretch_undergone (watchInterval - 1 - machine.interp.instructions) machine
      simp only [run]
      cases h : stretch (watchInterval - 1 - machine.interp.instructions) machine with
      | finished next result =>
          rw [h] at hstretch
          exact hstretch
      | paused next =>
          rw [h] at hstretch
          -- A look shows the machine as it is but for its stack.
          refine ⟨hstretch, fun trip => ?_⟩
          generalize hrested : ({ next with interp.instructions := 0 } : Machine) = rested
          have hlook := rested.afterLook_undergone trip
          have haround : rested.around = next.around := by
            rw [← hrested]
            rfl
          rw [haround] at hlook
          have hresumed := hstretch.trans hlook
          cases hafter : rested.afterLook trip with
          | running later =>
              rw [hafter] at hresumed
              simp only [hafter]
              exact (ih later).mono fun last => hresumed.trans
          | finished later result =>
              rw [hafter] at hresumed
              simp only [hafter]
              exact hresumed

end Machine

/-- Whatever a script does, what is around it comes of host effects, from its call on. -/
theorem Program.call_throughout (program : Program) (arguments : List Value) (machine : Machine) :
    (program.call arguments machine).Throughout fun next =>
      machine.around.Undergone next.around := by
  simp only [call]
  generalize hready : Machine.putAll _ _ _ = ready
  have haround : ready.around = machine.around := by
    rw [← hready, Machine.around_putAll]
    rfl
  have hcalled := ready.callValue_undergone .guard ownSlots.length none false arguments.length
  rw [haround] at hcalled
  cases h : ready.callValue .guard ownSlots.length none false arguments.length with
  | running next =>
      rw [h] at hcalled
      exact (next.run_throughout maxLooks).mono fun last => hcalled.trans
  | finished next result =>
      rw [h] at hcalled
      exact hcalled

theorem Program.hook_throughout (program : Program) (arguments : List Value) (machine : Machine) :
    (program.call arguments machine).Throughout fun next =>
      next.interp.hook = machine.interp.hook :=
  (program.call_throughout arguments machine).mono fun _ undergone => undergone.hook_eq

theorem Program.hook_runFree (program : Program) (arguments : List Value) (machine : Machine) :
    (program.call arguments machine).runFree.1.interp.hook = machine.interp.hook :=
  (program.hook_throughout arguments machine).run (fun _ => none) none

end Script

end StatePool
