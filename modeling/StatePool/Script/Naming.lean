import StatePool.Script.Code

/-!
How messages call the values in registers.

The name of a value is that of the variable in whose register it stands, or of what the instruction
that put it there read.  Which instruction that was is found by reading the code without running
it; where a jump leads past it nobody can tell.
-/

namespace StatePool.Script

structure ValueName where
  kind : String
  name : String

def ValueName.text (n : ValueName) : String :=
  " (" ++ n.kind ++ " '" ++ n.name ++ "')"

namespace Code

def localName? (code : Code) (register pc : Nat) : Option String :=
  let started := code.locals.toList.takeWhile fun span => span.start ≤ pc
  ((started.filter fun span => pc < span.stop)[register]?).map LocalSpan.name

/-- The search for the instruction that last changed a register: the best one so far, and the
furthest target of the jumps before it. -/
structure Search where
  found : Option Nat := none
  target : Nat := 0

/-- Takes one instruction into account; what stands before the target of a jump may be skipped. -/
def Search.pass (register last : Nat) (search : Search) (pc : Nat) (instruction : Instruction) :
    Search :=
  match instruction with
  | .jump target =>
      if target ≤ last && search.target < target then { search with target } else search
  | instruction =>
      if instruction.changes register then
        { search with found := if pc < search.target then none else some pc }
      else search

def setter? (code : Code) (register pc : Nat) : Option Nat :=
  let last :=
    match code.instruction pc with
    | .arithOther .. => pc - 1
    | _ => pc
  let search (search : Search) (pc : Nat) := search.pass register last pc (code.instruction pc)
  ((List.range last).foldl search {}).found

def upvalueName (code : Code) (upvalue : Nat) : String :=
  ((code.upvalues[upvalue]?).map Upvalue.name).getD "?"

/-- The name of a value as far as registers tell it, and otherwise the instruction that set it.  A
chain of moves leads to lower registers only, so the register bounds its length. -/
def basicName (code : Code) : Nat → Nat → Nat → ValueName ⊕ Option Nat
  | bound, register, pc =>
      match code.localName? register pc with
      | some name => .inl ⟨"local", name⟩
      | none =>
          match code.setter? register pc with
          | none => .inr none
          | some pc =>
              match bound, code.instruction pc with
              | bound + 1, .move target source =>
                  if source < target then basicName code bound source pc else .inr (some pc)
              | _, .getUpvalue _ upvalue => .inl ⟨"upvalue", code.upvalueName upvalue⟩
              | _, .load _ (.text s) => .inl ⟨"constant", s.lossy⟩
              | _, _ => .inr (some pc)

/-- How the member of a table is called whose table has a name of its own. -/
def memberKind (table : Option ValueName) : String :=
  match table with
  | some ⟨"local", name⟩ | some ⟨"upvalue", name⟩ =>
      if name = environmentName then "global" else "field"
  | _ => "field"

/-- The name of a register, if it has one that does not depend on tables. -/
def plainName? (code : Code) (register pc : Nat) : Option ValueName :=
  match code.basicName register register pc with
  | .inl name => some name
  | .inr _ => none

def valueName? (code : Code) (register pc : Nat) : Option ValueName :=
  match code.basicName register register pc with
  | .inl name => some name
  | .inr none => none
  | .inr (some pc) =>
      match code.instruction pc with
      | .indexUpvalue _ upvalue key =>
          some ⟨memberKind (some ⟨"upvalue", code.upvalueName upvalue⟩), key.lossy⟩
      | .indexKey _ table key => some ⟨memberKind (code.plainName? table pc), key.lossy⟩
      | .index _ table key =>
          let name :=
            match code.plainName? key pc with
            | some ⟨"constant", name⟩ => name
            | _ => "?"
          some ⟨memberKind (code.plainName? table pc), name⟩
      | _ => none

def calleeName? (code : Code) (pc : Nat) : Option ValueName :=
  match code.instruction pc with
  | .call base _ _ | .tailCall base _ => code.valueName? base pc
  | _ => none

end Code

end StatePool.Script
