import StatePool.Json.Numeral
import StatePool.Json.Quoted

/-!
Passing over values that nobody asked for.

Such a value is checked for its grammar alone: strings may hold lone surrogate escapes, numbers may
lie beyond every range, keys may repeat, and nesting has no limit.
-/

namespace StatePool.Json

mutual

/-- Passes over one value of a nesting depth below the first argument. -/
def skipValue : Nat → Reader Unit
  | 0, _ => .error .malformed
  | depth + 1, s =>
      match skipBlank s with
      | [] => .error .truncated
      | 'n' :: rest => readWord ['u', 'l', 'l'] rest
      | 't' :: rest => readWord ['r', 'u', 'e'] rest
      | 'f' :: rest => readWord ['a', 'l', 's', 'e'] rest
      | '"' :: rest => skipQuoted rest
      | '[' :: rest => skipItems depth true rest
      | '{' :: rest => skipMembers depth true rest
      | c :: rest =>
          if c = '-' ∨ c.isDigit then
            (readNumeral .malformed (c :: rest)).map fun (_, rest) => ((), rest)
          else .error .malformed

def skipItems : Nat → Bool → Reader Unit
  | 0, _, _ => .error .malformed
  | depth + 1, first, s =>
      match nextEntry ']' first s with
      | .error fault => .error fault
      | .ok (false, rest) => .ok ((), rest)
      | .ok (true, rest) =>
          match skipValue depth rest with
          | .error fault => .error fault
          | .ok (_, rest) => skipItems depth false rest

def skipMembers : Nat → Bool → Reader Unit
  | 0, _, _ => .error .malformed
  | depth + 1, first, s =>
      match nextEntry '}' first s with
      | .error fault => .error fault
      | .ok (false, rest) => .ok ((), rest)
      | .ok (true, rest) =>
          match rest with
          | '"' :: rest =>
              match skipQuoted rest with
              | .error fault => .error fault
              | .ok (_, rest) =>
                  match readMark ':' rest with
                  | .error fault => .error fault
                  | .ok (_, rest) =>
                      match skipValue depth rest with
                      | .error fault => .error fault
                      | .ok (_, rest) => skipMembers depth false rest
          | _ => .error .malformed

end

/-- Passes over one value.  At least every other step takes a character, so twice the length of the
text bounds the depth. -/
def skip : Reader Unit := fun s =>
  skipValue (2 * s.length + 2) s

end StatePool.Json
