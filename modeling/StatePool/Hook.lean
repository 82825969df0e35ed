import StatePool.Script.Program
import StatePool.LuaState

/-!
Initialization hooks that are given as data: which calls panic or fail, and a script to run.
-/

namespace StatePool

structure HookPlan where
  panicAt : List Nat := []
  failAt : List Nat := []
  message : String := "hook failed"
  script : Option String := none
  deriving DecidableEq, Repr, Inhabited

namespace HookPlan

def equip (call : Nat) (interp : Script.Interpreter) : Script.Interpreter :=
  interp
    |>.define "HOOK_N" (.int (Int64.ofNat call))
    |>.define "host_cancel" (.builtin .hostCancel)
    |>.define "host_advance" (.builtin .hostAdvance)
    |>.define "host_fail" (.builtin .hostFail)

def runScript (text : String) (world : World) (interp : Script.Interpreter) : HookRun :=
  match Script.Program.compile interp (.named "hook") text with
  | .error e => { result := .failed e }
  | .ok script =>
      let (machine, result) := (script.call [] { interp, world }).runFree
      { result :=
          match result with
          | .ok _ => .ready machine.interp
          | .error raise => .failed raise.report
        effects := machine.effects.reverse }

def toHook (plan : HookPlan) : InitHook := fun call world interp =>
  if call ∈ plan.panicAt then { result := .panicked plan.message }
  else if call ∈ plan.failAt then { result := .failed (.runtime plan.message) }
  else if interp.isStarved then { result := .failed .outOfMemory }
  else
    let interp := equip call interp
    match plan.script with
    | none => { result := .ready interp }
    | some text => runScript text world interp

end HookPlan

end StatePool
