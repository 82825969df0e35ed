/-!
Byte strings, and reading them as UTF-8.

Where a byte string is not UTF-8, the longest start of a character that stands there is one fault,
and a single byte is one if no character starts with it.
-/

namespace StatePool

/-- A sequence of bytes, which need not be the encoding of a text. -/
structure Bytes where
  data : ByteArray

namespace Bytes

instance : Inhabited Bytes := ⟨⟨ByteArray.empty⟩⟩

def empty : Bytes := ⟨ByteArray.empty⟩

def ofString (s : String) : Bytes := ⟨s.toByteArray⟩

def ofList (bytes : List UInt8) : Bytes := ⟨bytes.toByteArray⟩

def size (s : Bytes) : Nat := s.data.size

def isEmpty (s : Bytes) : Bool := s.size == 0

def toList (s : Bytes) : List UInt8 := s.data.toList

def append (s t : Bytes) : Bytes := ⟨s.data ++ t.data⟩

instance : Append Bytes := ⟨append⟩

/-- Whether the first bytes of two sequences agree. -/
def agree (a b : ByteArray) : Nat → Bool
  | 0 => true
  | count + 1 => a.get! count == b.get! count && agree a b count

instance : BEq Bytes := ⟨fun s t => s.size == t.size && agree s.data t.data s.size⟩

/-- The first bytes of a sequence. -/
def take (count : Nat) (s : Bytes) : Bytes := ⟨s.data.extract 0 count⟩

/-- The last bytes of a sequence. -/
def takeLast (count : Nat) (s : Bytes) : Bytes := ⟨s.data.extract (s.size - count) s.size⟩

/-- A sequence a number of times, put together from two halves. -/
def times (piece : ByteArray) (count : Nat) : ByteArray :=
  if _ : count = 0 then ByteArray.empty
  else
    let half := times piece (count / 2)
    let even := half ++ half
    if count % 2 = 0 then even else even ++ piece
termination_by count
decreasing_by omega

/-- A sequence a number of times, with another one between each two. -/
def repeated (s separator : Bytes) : Nat → Bytes
  | 0 => empty
  | more + 1 => ⟨s.data ++ times (separator ++ s).data more⟩

/-! ### Reading -/

def isContinuation (b : UInt8) : Bool := 0x80 ≤ b && b ≤ 0xBF

/-- The bytes that may stand second in a character of more than one byte, and how many bytes the
character has. -/
def lead? (b : UInt8) : Option (Nat × UInt8 × UInt8) :=
  if 0xC2 ≤ b ∧ b ≤ 0xDF then some (2, 0x80, 0xBF)
  else if b = 0xE0 then some (3, 0xA0, 0xBF)
  else if b = 0xED then some (3, 0x80, 0x9F)
  else if 0xE1 ≤ b ∧ b ≤ 0xEF then some (3, 0x80, 0xBF)
  else if b = 0xF0 then some (4, 0x90, 0xBF)
  else if 0xF1 ≤ b ∧ b ≤ 0xF3 then some (4, 0x80, 0xBF)
  else if b = 0xF4 then some (4, 0x80, 0x8F)
  else none

inductive Start where
  | char (c : Char) (width : Nat)
  | fault (width : Nat)
  | cut (width : Nat)

/-- The payload of continuation bytes, as many as stand there, up to a number; also tells whether
the bytes ran out. -/
def tail : Nat → Nat → List UInt8 → Nat × Nat × Bool
  | 0, value, _ => (0, value, false)
  | _ + 1, value, [] => (0, value, true)
  | missing + 1, value, b :: s =>
      if isContinuation b then
        let (read, value, ran) := tail missing (value * 64 + (b.toNat - 0x80)) s
        (read + 1, value, ran)
      else (0, value, false)

/-- The first character or fault of bytes that are not all read. -/
def start (b : UInt8) (s : List UInt8) : Start :=
  if b < 0x80 then .char (Char.ofNat b.toNat) 1
  else
    match lead? b, s with
    | none, _ => .fault 1
    | some _, [] => .cut 1
    | some (width, low, high), second :: s =>
        if second < low ∨ high < second then .fault 1
        else
          let value := b.toNat % Nat.pow 2 (7 - width) * 64 + (second.toNat - 0x80)
          let (read, value, ran) := tail (width - 2) value s
          if read = width - 2 then .char (Char.ofNat value) width
          else if ran then .cut (read + 2)
          else .fault (read + 2)

/-- The characters of a byte string; each fault is shown by a replacement character. -/
def decodeLossy : Nat → List UInt8 → List Char
  | 0, _ | _, [] => []
  | bound + 1, b :: s =>
      match start b s with
      | .char c width => c :: decodeLossy bound (s.drop (width - 1))
      | .fault width | .cut width => '\uFFFD' :: decodeLossy bound (s.drop (width - 1))

/-- A byte string as text, with replacement characters for what is not UTF-8. -/
def lossy (s : Bytes) : String :=
  match String.fromUTF8? s.data with
  | some text => text
  | none => String.ofList (decodeLossy s.size s.toList)

/-- Where a byte string stops being UTF-8. -/
inductive Fault where
  | invalid (index width : Nat)
  | incomplete (index : Nat)
  deriving DecidableEq, Repr

def Fault.message : Fault → String
  | .invalid index width =>
      "invalid utf-8 sequence of " ++ toString width ++ " bytes from index " ++ toString index
  | .incomplete index => "incomplete utf-8 byte sequence from index " ++ toString index

/-- The first fault from an index on. -/
def faultFrom? : Nat → Nat → List UInt8 → Option Fault
  | 0, _, _ | _, _, [] => none
  | bound + 1, index, b :: s =>
      match start b s with
      | .char _ width => faultFrom? bound (index + width) (s.drop (width - 1))
      | .fault width => some (.invalid index width)
      | .cut _ => some (.incomplete index)

/-- A byte string as text, if it is one. -/
def text? (s : Bytes) : Except Fault String :=
  match String.fromUTF8? s.data with
  | some text => .ok text
  | none => .error ((faultFrom? s.size 0 s.toList).getD (.incomplete 0))

end Bytes

end StatePool
