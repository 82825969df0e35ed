import StatePool.Script.Chunk

/-!
Values of scripts.
-/

namespace StatePool.Script

inductive Builtin where
  | raise
  | protect
  | repeatText
  | hostCancel
  | hostAdvance
  | hostFail
  | other (name : String)
  deriving DecidableEq, Repr

/-- A text as a script has it.  Long ones are objects of their own and only a number tells which;
short ones and those of the host have none. -/
structure Text where
  bytes : Bytes
  object : Nat := 0

instance : Inhabited Text := ⟨⟨.empty, 0⟩⟩

namespace Text

/-- The longest text that is no object of its own. -/
def maxShort : Nat := 40

def isLong (s : Text) : Bool := maxShort < s.bytes.size

end Text

/-- A function of a chunk together with the cells of the variables around it. -/
structure Closure where
  id : Nat
  /-- Where messages show the chunk. -/
  place : Bytes
  chunk : Chunk
  number : Nat
  cells : Array Nat

namespace Closure

def code (closure : Closure) : Code := closure.chunk.functions.getD closure.number default

end Closure

inductive Value where
  | nil
  | bool (b : Bool)
  | number (n : Number)
  | text (s : Text)
  | closure (c : Closure)
  | builtin (b : Builtin)
  | library (name : String)
  /-- An error of the host, as a script sees it; the number tells apart those of one text. -/
  | failure (id : Nat) (message : String)

instance : Inhabited Value := ⟨.nil⟩

namespace Value

def int (n : Int64) : Value := .number (.int n)

def ofString (s : String) : Value := .text { bytes := .ofString s }

def ofConstant : Constant → Value
  | .nil => .nil
  | .bool b => .bool b
  | .number n => .number n
  | .text s => .text { bytes := s }

/-- Nothing and falsehood count as false, all else as true. -/
def isTruthy : Value → Bool
  | .nil | .bool false => false
  | _ => true

def typeName : Value → String
  | .nil => "nil"
  | .bool _ => "boolean"
  | .number _ => "number"
  | .text _ => "string"
  | .closure _ | .builtin _ => "function"
  | .library _ => "table"
  | .failure _ _ => "userdata"

def hostType : Value → String
  | .number (.int _) => "integer"
  | .failure _ _ => "error"
  | value => value.typeName

def same : Value → Value → Bool
  | .nil, .nil => true
  | .bool a, .bool b => a == b
  | .number a, .number b => a.same b
  | .text a, .text b => a.bytes == b.bytes
  | .closure a, .closure b => a.id == b.id
  | .builtin a, .builtin b => a == b
  | .library a, .library b => a == b
  | .failure a _, .failure b _ => a == b
  | _, _ => false

def isText : Value → Bool
  | .text _ => true
  | _ => false

/-- The bytes of a value that is a text or a number. -/
def bytes? : Value → Option Bytes
  | .text s => some s.bytes
  | .number n => some (.ofString n.text)
  | _ => none

/-- The number that a text denotes.  It has ASCII characters only. -/
def numberOfText? (s : Bytes) : Option Number :=
  Numeral.ofText? (s.toList.map fun b => Char.ofNat b.toNat)

def number? : Value → Option Number
  | .number n => some n
  | .text s => numberOfText? s.bytes
  | _ => none

/-- The integer that a value is equal to, once it is read as a number. -/
def int? (value : Value) : Option Int64 :=
  value.number?.bind Number.toInt?

/-- What the host makes of a value that it wants an integer of: what is behind the point does not
count. -/
def truncated? (value : Value) : Option Int64 :=
  value.number?.bind Number.truncate?

def errorText : Value → Bytes
  | .bool b => .ofString (if b then "true" else "false")
  | .nil => .ofString "nil"
  | .failure _ message => .ofString message
  | value => (value.bytes?).getD (.ofString ("<" ++ value.typeName ++ ">"))

end Value

end StatePool.Script
