import StatePool.Json.Reading

/-!
Strings in JSON text: quoting and reading back.

The reader goes through a string one character at a time.  A strict reader refuses a surrogate
escape that is not half of a pair; strings that nobody looks at are read without that check.
-/

namespace StatePool.Json

/-! ### Writing -/

/-- The digit of a value below sixteen, in lower case. -/
def hexDigit (n : Nat) : Char :=
  Char.ofNat (if n < 10 then '0'.toNat + n else 'a'.toNat + (n - 10))

def escapeChar (c : Char) : List Char :=
  if c = '"' then ['\\', '"']
  else if c = '\\' then ['\\', '\\']
  else if c = '\x08' then ['\\', 'b']
  else if c = '\t' then ['\\', 't']
  else if c = '\n' then ['\\', 'n']
  else if c = '\x0c' then ['\\', 'f']
  else if c = '\r' then ['\\', 'r']
  else if c.toNat < 32 then ['\\', 'u', '0', '0', hexDigit (c.toNat / 16), hexDigit (c.toNat % 16)]
  else [c]

def quote (s : List Char) : List Char :=
  '"' :: s.flatMap escapeChar ++ ['"']

/-! ### Reading -/

def hexValue? (c : Char) : Option Nat :=
  if '0' ≤ c ∧ c ≤ '9' then some (c.toNat - '0'.toNat)
  else if 'a' ≤ c ∧ c ≤ 'f' then some (c.toNat - 'a'.toNat + 10)
  else if 'A' ≤ c ∧ c ≤ 'F' then some (c.toNat - 'A'.toNat + 10)
  else none

def isLeadSurrogate (n : Nat) : Bool := 0xD800 ≤ n && n ≤ 0xDBFF

def isTrailSurrogate (n : Nat) : Bool := 0xDC00 ≤ n && n ≤ 0xDFFF

def joinSurrogates (lead trail : Nat) : Char :=
  Char.ofNat (0x10000 + (lead - 0xD800) * 0x400 + (trail - 0xDC00))

/-- Where in a string the reader stands. -/
inductive Place where
  | plain
  /-- After a backslash. -/
  | escape
  /-- Inside a numeric escape: the leading surrogate before it, the digits read and their value. -/
  | hex (lead : Option Nat) (digits value : Nat)
  /-- After a leading surrogate, where a backslash is due. -/
  | pair (lead : Nat)
  /-- After a leading surrogate and a backslash, where a `u` is due. -/
  | pairEscape (lead : Nat)
  deriving DecidableEq, Repr

def shortEscape? (c : Char) : Option Char :=
  match c with
  | '"' => some '"'
  | '\\' => some '\\'
  | '/' => some '/'
  | 'b' => some '\x08'
  | 'f' => some '\x0c'
  | 'n' => some '\n'
  | 'r' => some '\r'
  | 't' => some '\t'
  | _ => none

/-- A numeric escape is four bytes long; of a shorter text nothing more is known. -/
def hexFault (digits : Nat) (s : List Char) : Fault :=
  if digits + s.foldl (fun size c => size + c.utf8Size) 0 < 4 then .truncated else .malformed

/-- Where a complete numeric escape leads, and the character it adds. -/
def closeHex (strict : Bool) (lead : Option Nat) (n : Nat) : Except Fault (Place × List Char) :=
  match lead with
  | none =>
      if isLeadSurrogate n && strict then .ok (.pair n, [])
      else if isTrailSurrogate n && strict then .error .malformed
      else .ok (.plain, [Char.ofNat n])
  | some lead =>
      if isTrailSurrogate n then .ok (.plain, [joinSurrogates lead n]) else .error .malformed

/-- Reads the rest of a string, up to and with its closing quote. -/
def readQuotedFrom (strict : Bool) : Place → Reader (List Char)
  | _, [] => .error .truncated
  | .plain, c :: s =>
      if c = '"' then .ok ([], s)
      else if c = '\\' then readQuotedFrom strict .escape s
      else if c.toNat < 32 then .error .malformed
      else (readQuotedFrom strict .plain s).map fun (text, rest) => (c :: text, rest)
  | .escape, c :: s =>
      if c = 'u' then readQuotedFrom strict (.hex none 0 0) s
      else
        match shortEscape? c with
        | none => .error .malformed
        | some c => (readQuotedFrom strict .plain s).map fun (text, rest) => (c :: text, rest)
  | .hex lead digits value, c :: s =>
      match hexValue? c with
      | none => .error (hexFault digits (c :: s))
      | some d =>
          if digits < 3 then
            readQuotedFrom strict (.hex lead (digits + 1) (16 * value + d)) s
          else
            match closeHex strict lead (16 * value + d) with
            | .error fault => .error fault
            | .ok (place, added) =>
                (readQuotedFrom strict place s).map fun (text, rest) => (added ++ text, rest)
  | .pair lead, c :: s =>
      if c = '\\' then readQuotedFrom strict (.pairEscape lead) s else .error .malformed
  | .pairEscape lead, c :: s =>
      if c = 'u' then readQuotedFrom strict (.hex (some lead) 0 0) s else .error .malformed

/-- Reads a string after its opening quote. -/
def readQuoted : Reader (List Char) := readQuotedFrom true .plain

/-- Passes over a string after its opening quote. -/
def skipQuoted : Reader Unit := fun s =>
  (readQuotedFrom false .plain s).map fun (_, rest) => ((), rest)

end StatePool.Json
