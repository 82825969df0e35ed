import StatePool.Script.Numeral
import StatePool.Text.Bytes

/-!
The lexemes of scripts, each with the line it ends on.

A text is cut up from the left.  Where no lexeme can be made of what follows, a faulty one stands in
its place and ends the sequence, so that the reader of the sequence meets every problem in the order
of the text.  A line ends with either of the two line end characters or with both, in any order.
-/

namespace StatePool.Script

inductive Lexeme where
  | reserved (word : String)
  | name (x : String)
  | number (n : Number)
  | text (s : Bytes)
  | mark (symbol : String)
  | stop
  | faulty

structure Placed where
  lexeme : Lexeme
  line : Nat

namespace Lexeme

def reservedWords : List String :=
  ["and", "break", "do", "else", "elseif", "end", "false", "for", "function", "goto", "if", "in",
    "local", "nil", "not", "or", "repeat", "return", "then", "true", "until", "while"]

/-- Symbols of two and three characters; the longest that fits is taken. -/
def longMarks : List (List Char) :=
  ["...", "..", "==", "~=", "<=", ">=", "//", "::", "<<", ">>"].map String.toList

def isNameStart (c : Char) : Bool := c.isAlpha || c == '_'

def isNamePart (c : Char) : Bool := c.isAlphanum || c == '_'

def ofWord (word : List Char) : Lexeme :=
  let word := String.ofList word
  if word ∈ reservedWords then .reserved word else .name word

def isLineEnd (c : Char) : Bool := c == '\n' || c == '\r'

/-- What follows a line end that starts with `c`. -/
def afterLineEnd (c : Char) : List Char → List Char
  | [] => []
  | d :: s => if isLineEnd d && d != c then s else d :: s

/-! ### Numerals -/

def isHex : List Char → Bool
  | '0' :: 'x' :: _ | '0' :: 'X' :: _ => true
  | _ => false

/-- The characters that belong to a numeral, and the rest.  A sign belongs to it after the mark of
an exponent, and a letter that touches it spoils it. -/
def takeNumeral (mark : Char) : List Char → List Char × List Char
  | [] => ([], [])
  | c :: s =>
      if c.toLower = mark then
        match s with
        | '+' :: s' => let (taken, rest) := takeNumeral mark s'; (c :: '+' :: taken, rest)
        | '-' :: s' => let (taken, rest) := takeNumeral mark s'; (c :: '-' :: taken, rest)
        | s => let (taken, rest) := takeNumeral mark s; (c :: taken, rest)
      else if Numeral.isHexDigit c || c == '.' then
        let (taken, rest) := takeNumeral mark s
        (c :: taken, rest)
      else if isNameStart c then ([c], s)
      else ([], c :: s)

def splitNumeral (s : List Char) : List Char × List Char :=
  if isHex s then
    let (taken, rest) := takeNumeral 'p' (s.drop 2)
    (s.take 2 ++ taken, rest)
  else takeNumeral 'e' s

/-! ### Strings -/

/-- What reading a string comes to: its bytes, the line it ends on and what follows, or the line
where it breaks off. -/
abbrev TextRead := Except Nat (ByteArray × Nat × List Char)

def push (read : ByteArray) (c : Char) : ByteArray :=
  (String.utf8EncodeChar c).foldl ByteArray.push read

/-- The encoding of a number in up to six bytes, which goes on where UTF-8 ends. -/
def encodeWide (n : Nat) : List Nat :=
  if n < Nat.pow 2 7 then [n]
  else
    let rec tails : Nat → Nat → List Nat
      | 0, _ => []
      | count + 1, n => tails count (n / 64) ++ [0x80 + n % 64]
    let count :=
      if n < Nat.pow 2 11 then 1 else if n < Nat.pow 2 16 then 2 else if n < Nat.pow 2 21 then 3
      else if n < Nat.pow 2 26 then 4 else 5
    (Nat.pow 2 8 - Nat.pow 2 (7 - count) + n / Nat.pow 64 count) :: tails count n

def simpleEscape? (c : Char) : Option Char :=
  match c with
  | 'a' => some '\x07'
  | 'b' => some '\x08'
  | 'f' => some '\x0c'
  | 'n' => some '\n'
  | 'r' => some '\r'
  | 't' => some '\t'
  | 'v' => some '\x0b'
  | '\\' => some '\\'
  | '"' => some '"'
  | '\'' => some '\''
  | _ => none

/-- The bytes of an escape that are given by a number, and what follows it. -/
def numericEscape? : List Char → Option (List Nat × List Char)
  | 'x' :: a :: b :: s =>
      match Numeral.hexDigit? a, Numeral.hexDigit? b with
      | some a, some b => some ([16 * a + b], s)
      | _, _ => none
  | 'u' :: '{' :: s =>
      let digits := s.takeWhile Numeral.isHexDigit
      let n := Numeral.valueOf 16 digits
      match s.dropWhile Numeral.isHexDigit with
      | '}' :: rest =>
          if digits.isEmpty || Nat.pow 2 31 ≤ n then none else some (encodeWide n, rest)
      | _ => none
  | s =>
      let digits := (s.take 3).takeWhile Char.isDigit
      let n := Numeral.valueOf 10 digits
      if digits.isEmpty || 255 < n then none else some ([n], s.drop digits.length)

def skipBlanks : Nat → Nat → List Char → Nat × List Char
  | 0, line, s => (line, s)
  | _ + 1, line, [] => (line, [])
  | bound + 1, line, c :: s =>
      if isLineEnd c then skipBlanks bound (line + 1) (afterLineEnd c s)
      else if Numeral.isSpace c then skipBlanks bound line s
      else (line, c :: s)

/-- Goes on reading a string up to its closing quote. -/
def readQuoted (quote : Char) : Nat → ByteArray → Nat → List Char → TextRead
  | 0, _, line, _ => .error line
  | _ + 1, _, line, [] => .error line
  | bound + 1, read, line, '\\' :: c :: s =>
      if isLineEnd c then readQuoted quote bound (push read '\n') (line + 1) (afterLineEnd c s)
      else if c = 'z' then
        let (line, s) := skipBlanks s.length line s
        readQuoted quote bound read line s
      else
        match simpleEscape? c with
        | some c => readQuoted quote bound (push read c) line s
        | none =>
            match numericEscape? (c :: s) with
            | none => .error line
            | some (bytes, s) =>
                let read := bytes.foldl (fun read b => read.push b.toUInt8) read
                readQuoted quote bound read line s
  | bound + 1, read, line, c :: s =>
      if c = quote then .ok (read, line, s)
      else if isLineEnd c then .error line
      else readQuoted quote bound (push read c) line s

/-- The level of a long bracket after its first character, and what follows its second one. -/
def longLevel? (s : List Char) : Option (Nat × List Char) :=
  match s.dropWhile (· == '=') with
  | '[' :: rest => some ((s.takeWhile (· == '=')).length, rest)
  | _ => none

/-- Goes on reading up to the long bracket that ends what is read. -/
def readLong (close : List Char) : Nat → ByteArray → Nat → List Char → TextRead
  | 0, _, line, _ => .error line
  | _ + 1, _, line, [] => .error line
  | bound + 1, read, line, c :: s =>
      if close.isPrefixOf (c :: s) then .ok (read, line, (c :: s).drop close.length)
      else if isLineEnd c then
        readLong close bound (push read '\n') (line + 1) (afterLineEnd c s)
      else readLong close bound (push read c) line s

/-- Reads what a long bracket of a level opens; a line end right behind it does not count. -/
def readBracketed (level line : Nat) (s : List Char) : TextRead :=
  let close := ']' :: List.replicate level '=' ++ [']']
  match s with
  | c :: rest =>
      if isLineEnd c then
        readLong close s.length ByteArray.empty (line + 1) (afterLineEnd c rest)
      else readLong close (s.length + 1) ByteArray.empty line s
  | [] => .error line

/-! ### Cutting up a text -/

def ofTextRead : TextRead → Lexeme × Nat × List Char
  | .ok (read, line, rest) => (.text ⟨read⟩, line, rest)
  | .error line => (.faulty, line, [])

def next (line : Nat) : List Char → Lexeme × Nat × List Char
  | [] => (.stop, line, [])
  | c :: s =>
      if isNameStart c then
        (ofWord ((c :: s).takeWhile isNamePart), line, (c :: s).dropWhile isNamePart)
      else if c.isDigit || (c == '.' && (s.head?.any Char.isDigit)) then
        let (numeral, rest) := splitNumeral (c :: s)
        match Numeral.ofLexeme? numeral with
        | some n => (.number n, line, rest)
        | none => (.faulty, line, [])
      else if c = '"' ∨ c = '\'' then
        ofTextRead (readQuoted c (s.length + 1) ByteArray.empty line s)
      else
        match c, longLevel? s, s with
        | '[', some (level, rest), _ => ofTextRead (readBracketed level line rest)
        | '[', none, '=' :: _ => (.faulty, line, [])
        | _, _, _ =>
            match longMarks.find? fun symbol => symbol.isPrefixOf (c :: s) with
            | some symbol => (.mark (String.ofList symbol), line, (c :: s).drop symbol.length)
            | none => (.mark (String.singleton c), line, s)

/-- Skips a comment after its two dashes; of a long one without an end the last line is told. -/
def skipComment (line : Nat) (s : List Char) : Except Nat (Nat × List Char) :=
  let short := .ok (line, s.dropWhile fun c => !isLineEnd c)
  match s with
  | '[' :: rest =>
      match longLevel? rest with
      | some (level, rest) =>
          (readBracketed level line rest).map fun (_, line, rest) => (line, rest)
      | none => short
  | _ => short

/-- The lexemes of a text from a given line on; every round takes a character, so the length of the
text bounds their number. -/
def ofTextFrom : Nat → Nat → List Char → List Placed
  | 0, line, _ => [⟨.stop, line⟩]
  | _ + 1, line, [] => [⟨.stop, line⟩]
  | bound + 1, line, '-' :: '-' :: s =>
      match skipComment line s with
      | .ok (line, s) => ofTextFrom bound line s
      | .error line => [⟨.faulty, line⟩]
  | bound + 1, line, c :: s =>
      if isLineEnd c then ofTextFrom bound (line + 1) (afterLineEnd c s)
      else if Numeral.isSpace c then ofTextFrom bound line s
      else
        match next line (c :: s) with
        | (.faulty, line, _) => [⟨.faulty, line⟩]
        | (lexeme, line, rest) => ⟨lexeme, line⟩ :: ofTextFrom bound line rest

def ofText (text : List Char) : List Placed :=
  ofTextFrom (text.length + 1) 1 text

end Lexeme

end StatePool.Script
