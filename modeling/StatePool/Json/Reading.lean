/-!
Reading JSON text from the left, one character after the other.

A reader stops at the first problem and names its kind: the text ended too early, it is not JSON,
or it is JSON of the wrong type or value.  What a reader leaves over is handed to the next one.
-/

namespace StatePool.Json

inductive Fault where
  | truncated
  /-- The text is not JSON. -/
  | malformed
  /-- The text is JSON, but not of the type or value that belongs here. -/
  | mismatched
  deriving DecidableEq, Repr

abbrev Reader (α : Type) := List Char → Except Fault (α × List Char)

def isBlank (c : Char) : Bool :=
  c == ' ' || c == '\n' || c == '\t' || c == '\r'

def skipBlank (s : List Char) : List Char :=
  s.dropWhile isBlank

/-- Reads exactly the given characters. -/
def readWord : List Char → Reader Unit
  | [], s => .ok ((), s)
  | _ :: _, [] => .error .truncated
  | w :: word, c :: s => if c = w then readWord word s else .error .malformed

/-- Reads one given character after any blanks. -/
def readMark (mark : Char) : Reader Unit := fun s =>
  match skipBlank s with
  | [] => .error .truncated
  | c :: rest => if c = mark then .ok ((), rest) else .error .malformed

/--
Looks for the next entry of an array or object that ends with `close`: `true` with the text that
starts the entry, or `false` with the text after the closing bracket.  Entries after the first are
announced by a comma, and a comma always announces one.
-/
def nextEntry (close : Char) (first : Bool) : Reader Bool := fun s =>
  match skipBlank s with
  | [] => .error .truncated
  | c :: rest =>
      if c = close then .ok (false, rest)
      else if first then .ok (true, c :: rest)
      else if c = ',' then
        match skipBlank rest with
        | [] => .error .truncated
        | c' :: rest' => if c' = close then .error .malformed else .ok (true, c' :: rest')
      else .error .malformed

/-- Reads a document: one value, with nothing but blanks after it. -/
def readWhole {α : Type} (value : Reader α) (s : List Char) : Except Fault α :=
  match value s with
  | .error fault => .error fault
  | .ok (a, rest) =>
      match skipBlank rest with
      | [] => .ok a
      | _ :: _ => .error .malformed

end StatePool.Json
