import StatePool.Json.Quoted

/-!
Compact JSON text: no blanks, fields in the order of the record.
-/

namespace StatePool.Json

def writeNat (n : Nat) : List Char := Nat.toDigits 10 n

def writeInt (n : Int) : List Char :=
  if n < 0 then '-' :: writeNat n.natAbs else writeNat n.natAbs

def writeMember (key value : List Char) : List Char :=
  quote key ++ ':' :: value

def writeMembers : List (List Char × List Char) → List Char
  | [] => []
  | [(key, value)] => writeMember key value
  | (key, value) :: members => writeMember key value ++ ',' :: writeMembers members

def writeObject (members : List (List Char × List Char)) : List Char :=
  '{' :: writeMembers members ++ ['}']

end StatePool.Json
