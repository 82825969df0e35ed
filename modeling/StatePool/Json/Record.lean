import StatePool.Json.Skipped

/-!
Reading records, names and numbers from JSON text.

A record is an object of its fields in any order, each at most once and none required, among fields
of unknown names; or an array of the first of its fields in their declared order.  A field that is
left out keeps the value it has in the blank record.
-/

namespace StatePool.Json

def misfit (s : List Char) : Fault :=
  let after {α : Type} (result : Except Fault α) : Fault :=
    match result with
    | .error fault => fault
    | .ok _ => .mismatched
  match s with
  | [] => .truncated
  | 'n' :: rest => after (readWord ['u', 'l', 'l'] rest)
  | 't' :: rest => after (readWord ['r', 'u', 'e'] rest)
  | 'f' :: rest => after (readWord ['a', 'l', 's', 'e'] rest)
  | '"' :: rest => after (readQuoted rest)
  | '[' :: _ | '{' :: _ => .mismatched
  | c :: rest =>
      if c = '-' ∨ c.isDigit then
        match readNumeral .truncated (c :: rest) with
        | .error fault => fault
        | .ok (numeral, _) => numeral.misfit
      else .malformed

/-! ### Single values -/

def readInteger (low high : Int) : Reader Int := fun s =>
  match skipBlank s with
  | [] => .error .truncated
  | c :: rest =>
      if c = '-' ∨ c.isDigit then
        match readNumeral .truncated (c :: rest) with
        | .error fault => .error fault
        | .ok (numeral, rest) =>
            match numeral.toInt? with
            | none => .error numeral.misfit
            | some n => if low ≤ n ∧ n ≤ high then .ok (n, rest) else .error .mismatched
      else .error (misfit (c :: rest))

def readInt64 : Reader Int64 := fun s =>
  (readInteger (-(Nat.pow 2 63)) (Nat.pow 2 63 - 1) s).map fun (n, rest) => (Int64.ofInt n, rest)

def readUInt64 : Reader UInt64 := fun s =>
  (readInteger 0 (Nat.pow 2 64 - 1) s).map fun (n, rest) => (UInt64.ofNat n.toNat, rest)

/-- Reads a string after any blanks. -/
def readText : Reader (List Char) := fun s =>
  match skipBlank s with
  | '"' :: rest => readQuoted rest
  | rest => .error (misfit rest)

def readNull : Reader Unit := fun s =>
  match skipBlank s with
  | 'n' :: rest => readWord ['u', 'l', 'l'] rest
  | rest => .error (misfit rest)

/-! ### Names -/

/-- A value of a closed list by its name. -/
def readKnownName {α : Type} (names : List (List Char × α)) : Reader α := fun s =>
  match readText s with
  | .error fault => .error fault
  | .ok (name, rest) =>
      match names.lookup name with
      | none => .error .mismatched
      | some a => .ok (a, rest)

/-- Reads a name where nothing but a string may stand. -/
def readKeyName {α : Type} (names : List (List Char × α)) : Reader α := fun s =>
  match skipBlank s with
  | [] => .error .truncated
  | '"' :: rest => readKnownName names ('"' :: rest)
  | _ => .error .malformed

/-- Reads a name, alone or as the one key of an object whose value is null. -/
def readName {α : Type} (names : List (List Char × α)) : Reader α := fun s =>
  match skipBlank s with
  | '{' :: rest =>
      match readKeyName names rest with
      | .error fault => .error fault
      | .ok (a, rest) =>
          match readMark ':' rest with
          | .error fault => .error fault
          | .ok (_, rest) =>
              match readNull rest with
              | .error fault => .error fault
              | .ok (_, rest) => (readMark '}' rest).map fun (_, rest) => (a, rest)
  | rest => readKeyName names rest

/-! ### Records -/

/-- How a record of type `ρ` with fields named by `φ` is read. -/
structure Shape (ρ φ : Type) where
  /-- The fields in their declared order. -/
  fields : List (List Char × φ)
  blank : ρ
  readField : φ → ρ → Reader ρ

namespace Shape

variable {ρ φ : Type} [DecidableEq φ]

/-- Reads the rest of an object; `seen` are the fields met so far. -/
def readMembers (shape : Shape ρ φ) : Nat → List φ → ρ → Bool → Reader ρ
  | 0, _, _, _, _ => .error .malformed
  | bound + 1, seen, record, first, s =>
      match nextEntry '}' first s with
      | .error fault => .error fault
      | .ok (false, rest) => .ok (record, rest)
      | .ok (true, rest) =>
          match rest with
          | '"' :: rest =>
              match readQuoted rest with
              | .error fault => .error fault
              | .ok (key, rest) =>
                  match shape.fields.lookup key with
                  | none =>
                      match readMark ':' rest with
                      | .error fault => .error fault
                      | .ok (_, rest) =>
                          match skip rest with
                          | .error fault => .error fault
                          | .ok (_, rest) => readMembers shape bound seen record false rest
                  | some field =>
                      if field ∈ seen then .error .mismatched
                      else
                        match readMark ':' rest with
                        | .error fault => .error fault
                        | .ok (_, rest) =>
                            match shape.readField field record rest with
                            | .error fault => .error fault
                            | .ok (record, rest) =>
                                readMembers shape bound (field :: seen) record false rest
          | _ => .error .malformed

def readItems (shape : Shape ρ φ) : List (List Char × φ) → ρ → Bool → Reader ρ
  | [], record, _, s => (readMark ']' s).map fun (_, rest) => (record, rest)
  | (_, field) :: fields, record, first, s =>
      match nextEntry ']' first s with
      | .error fault => .error fault
      | .ok (false, rest) => .ok (record, rest)
      | .ok (true, rest) =>
          match shape.readField field record rest with
          | .error fault => .error fault
          | .ok (record, rest) => readItems shape fields record false rest

/-- Reads a record in either of its forms; every field of an object takes a character, so the length
of the text bounds their number. -/
def read (shape : Shape ρ φ) : Reader ρ := fun s =>
  match skipBlank s with
  | '{' :: rest => shape.readMembers (rest.length + 1) [] shape.blank true rest
  | '[' :: rest => shape.readItems shape.fields shape.blank true rest
  | rest => .error (misfit rest)

end Shape

end StatePool.Json
