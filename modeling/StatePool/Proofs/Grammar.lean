import StatePool.Proofs.Numerals

/-!
JSON text by its grammar.

The grammar says which texts are values, whatever their layout, and what the text of a string says.
All that it admits is read or passed over: white space may stand between any two parts, a character
may be escaped in any of its ways, and values are nested as deep as the text has it.
-/

namespace StatePool.Json

variable {s text rest : List Char} {short : Fault}

/-! ### White space -/

def Blanks (s : List Char) : Prop :=
  ∀ c ∈ s, isBlank c = true

/-- What stands in front of an entry: white space, with a comma in it if entries came before. -/
inductive Gap : Bool → List Char → Prop
  | first {s : List Char} (h : Blanks s) : Gap true s
  | next {before after : List Char} (hbefore : Blanks before) (hafter : Blanks after) :
      Gap false (before ++ ',' :: after)

theorem skipBlank_append (h : Blanks s) (rest : List Char) :
    skipBlank (s ++ rest) = skipBlank rest :=
  List.dropWhile_append_of_pos h

theorem Blanks.nil : Blanks [] := nofun

theorem endsNumeral_of_isBlank {c : Char} (h : isBlank c = true) : endsNumeral (c :: s) = true := by
  simp only [isBlank, Bool.or_eq_true, beq_iff_eq] at h
  rcases h with ((rfl | rfl) | rfl) | rfl <;> rfl

theorem Blanks.endsNumeral (h : Blanks s) (hrest : Json.endsNumeral rest = true) :
    Json.endsNumeral (s ++ rest) = true := by
  cases s with
  | nil => exact hrest
  | cons c s => exact endsNumeral_of_isBlank (h c List.mem_cons_self)

/-- No number goes on where another entry is announced. -/
theorem Gap.endsNumeral (h : Gap false s) (rest : List Char) :
    Json.endsNumeral (s ++ rest) = true := by
  cases h with
  | next hbefore hafter =>
      rw [List.append_assoc]
      exact hbefore.endsNumeral rfl

theorem readMark_append (mark : Char) (hmark : isBlank mark = false) (h : Blanks s)
    (rest : List Char) : readMark mark (s ++ mark :: rest) = .ok ((), rest) := by
  simp only [readMark, skipBlank_append h, skipBlank_cons hmark, ↓reduceIte]

theorem nextEntry_close (close : Char) (hclose : isBlank close = false) (first : Bool)
    (h : Blanks s) (rest : List Char) :
    nextEntry close first (s ++ close :: rest) = .ok (false, rest) := by
  simp only [nextEntry, skipBlank_append h, skipBlank_cons hclose, ↓reduceIte]

theorem nextEntry_gap (close : Char) (hcomma : close ≠ ',') {first : Bool} (h : Gap first s)
    {c : Char} (hblank : isBlank c = false) (hclose : c ≠ close) (rest : List Char) :
    nextEntry close first (s ++ c :: rest) = .ok (true, c :: rest) := by
  cases h with
  | first hblanks =>
      simp only [nextEntry, skipBlank_append hblanks, skipBlank_cons hblank, if_neg hclose,
        ↓reduceIte]
  | next hbefore hafter =>
      have hmark : isBlank ',' = false := rfl
      simp only [nextEntry, List.append_assoc, List.cons_append, skipBlank_append hbefore,
        skipBlank_cons hmark, if_neg hcomma.symm, Bool.false_eq_true, ↓reduceIte,
        skipBlank_append hafter, skipBlank_cons hblank, if_neg hclose]

/-! ### Numbers -/

def Digits (s : List Char) : Prop :=
  s ≠ [] ∧ ∀ c ∈ s, c.isDigit = true

/-- A leading zero stands alone. -/
inductive Whole : List Char → Prop
  | zero : Whole ['0']
  | nonzero {c : Char} {s : List Char} (h : Digits (c :: s)) (hzero : c ≠ '0') : Whole (c :: s)

inductive Fraction : List Char → Prop
  | none : Fraction []
  | point {s : List Char} (h : Digits s) : Fraction ('.' :: s)

inductive Exponent : List Char → Prop
  | none : Exponent []
  | power {mark : Char} {sign s : List Char} (hmark : mark = 'e' ∨ mark = 'E')
      (hsign : sign = [] ∨ sign = ['+'] ∨ sign = ['-']) (h : Digits s) :
      Exponent (mark :: (sign ++ s))

inductive Number : List Char → Prop
  | mk {sign whole fraction exponent : List Char} (hsign : sign = [] ∨ sign = ['-'])
      (hwhole : Whole whole) (hfraction : Fraction fraction) (hexponent : Exponent exponent) :
      Number (sign ++ (whole ++ (fraction ++ exponent)))

theorem Digits.reads (h : Digits s) (short : Fault) (hrest : endsDigits rest = true) :
    readDigits short (s ++ rest) = .ok (s.map digitOf, rest) :=
  readDigits_append short h.1 h.2 hrest

theorem Digits.exists_cons (h : Digits s) :
    ∃ c digits, s = c :: digits ∧ c.isDigit = true := by
  obtain ⟨c, digits, rfl⟩ := List.exists_cons_of_ne_nil h.1
  exact ⟨c, digits, rfl, h.2 c List.mem_cons_self⟩

theorem Digits.singleton {c : Char} (h : c.isDigit = true) : Digits [c] :=
  ⟨List.cons_ne_nil c [], by simpa using h⟩

theorem Whole.digits (h : Whole s) : Digits s := by
  cases h with
  | zero => exact .singleton rfl
  | nonzero h => exact h

theorem Whole.reads (h : Whole s) (short : Fault) (hrest : endsDigits rest = true) :
    ∃ digits, readWholeDigits short (s ++ rest) = .ok (digits, rest) := by
  cases h with
  | zero =>
      cases rest with
      | nil => exact ⟨_, rfl⟩
      | cons c rest =>
          simp only [endsDigits, Bool.not_eq_true'] at hrest
          exact ⟨[0], by simp [readWholeDigits, hrest]⟩
  | @nonzero c s h hzero =>
      refine ⟨(c :: s).map digitOf, ?_⟩
      unfold readWholeDigits
      split
      · next heq => exact absurd (List.cons.inj heq).1 hzero
      · exact h.reads short hrest

theorem Fraction.reads (h : Fraction s) (short : Fault) (hrest : endsDigits rest = true)
    (hpoint : ∀ tail, rest ≠ '.' :: tail) :
    ∃ fraction, readFraction short (s ++ rest) = .ok (fraction, rest) := by
  cases h with
  | none =>
      refine ⟨Option.none, ?_⟩
      unfold readFraction
      split
      · next heq => exact absurd heq (hpoint _)
      · rfl
  | @point s h =>
      have hdigits := h.reads short hrest
      refine ⟨some (s.map digitOf), ?_⟩
      simp only [List.cons_append, readFraction, hdigits, Except.map]

theorem readExponentSign_append {sign : List Char} (hsign : sign = [] ∨ sign = ['+'] ∨ sign = ['-'])
    (h : Digits s) (rest : List Char) :
    ∃ negative, readExponentSign (sign ++ (s ++ rest)) = (negative, s ++ rest) := by
  rcases hsign with rfl | rfl | rfl
  · obtain ⟨c, digits, rfl, hdigit⟩ := h.exists_cons
    refine ⟨false, ?_⟩
    unfold readExponentSign
    split
    · next heq =>
        cases heq
        cases hdigit
    · next heq =>
        cases heq
        cases hdigit
    · rfl
  · exact ⟨false, rfl⟩
  · exact ⟨true, rfl⟩

theorem Exponent.reads (h : Exponent s) (short : Fault) (hrest : endsNumeral rest = true) :
    ∃ exponent, readExponent short (s ++ rest) = .ok (exponent, rest) := by
  cases h with
  | none => exact ⟨_, readExponent_of_ends short hrest⟩
  | @power mark sign s hmark hsign h =>
      obtain ⟨negative, hread⟩ := readExponentSign_append hsign h rest
      have hdigits := h.reads short (endsDigits_of_endsNumeral hrest)
      refine ⟨some (negative, s.map digitOf), ?_⟩
      rw [List.cons_append, List.append_assoc]
      rcases hmark with rfl | rfl <;> simp only [readExponent, hread, hdigits, Except.map]

/-- What stands behind the digits in front of the point does not go on with them. -/
theorem Exponent.endsDigits (h : Exponent s) (hrest : endsNumeral rest = true) :
    Json.endsDigits (s ++ rest) = true ∧ ∀ tail, s ++ rest ≠ '.' :: tail := by
  cases h with
  | none =>
      refine ⟨endsDigits_of_endsNumeral hrest, ?_⟩
      rintro tail rfl
      cases hrest
  | power hmark => rcases hmark with rfl | rfl <;> exact ⟨rfl, by simp⟩

theorem Fraction.endsDigits (h : Fraction s) (hrest : Json.endsDigits rest = true) :
    Json.endsDigits (s ++ rest) = true := by
  cases h with
  | none => exact hrest
  | point => rfl

theorem Number.reads (h : Number s) (short : Fault) (hrest : endsNumeral rest = true) :
    ∃ numeral, readNumeral short (s ++ rest) = .ok (numeral, rest) := by
  obtain ⟨hsign, hwhole, hfraction, hexponent⟩ := h
  rename_i sign whole fraction exponent
  obtain ⟨hdigits, hpoint⟩ := hexponent.endsDigits hrest
  obtain ⟨digits, hwholeRead⟩ := hwhole.reads short (hfraction.endsDigits hdigits)
  obtain ⟨decimals, hfractionRead⟩ := hfraction.reads short hdigits hpoint
  obtain ⟨power, hexponentRead⟩ := hexponent.reads short hrest
  have hunsigned (negative : Bool) :
      readUnsignedNumeral short negative (whole ++ (fraction ++ (exponent ++ rest))) =
        .ok (⟨negative, digits, decimals, power⟩, rest) := by
    simp only [readUnsignedNumeral, hwholeRead, hfractionRead, hexponentRead]
  simp only [List.append_assoc]
  rcases hsign with rfl | rfl
  · refine ⟨⟨false, digits, decimals, power⟩, ?_⟩
    rw [List.nil_append]
    unfold readNumeral
    split
    · next heq =>
        obtain ⟨c, tail, rfl, hdigit⟩ := hwhole.digits.exists_cons
        cases (List.cons.inj heq).1
        cases hdigit
    · exact hunsigned false
  · exact ⟨⟨true, digits, decimals, power⟩, hunsigned true⟩

theorem Number.exists_cons (h : Number s) :
    ∃ c tail, s = c :: tail ∧ (c = '-' ∨ c.isDigit = true) := by
  obtain ⟨rfl | rfl, hwhole, -, -⟩ := h
  · obtain ⟨c, tail, rfl, hdigit⟩ := hwhole.digits.exists_cons
    exact ⟨c, _, rfl, .inr hdigit⟩
  · exact ⟨'-', _, rfl, .inl rfl⟩

theorem number_writeNat (n : Nat) : Number (writeNat n) := by
  have hdigits : Digits (writeNat n) := ⟨Nat.toDigits_ne_nil, fun _ => isDigit_of_mem_toDigits⟩
  have hwhole : Whole (writeNat n) := by
    obtain ⟨c, digits, heq⟩ := List.exists_cons_of_ne_nil hdigits.1
    rw [heq] at hdigits ⊢
    by_cases hzero : c = '0'
    · subst hzero
      obtain rfl := eq_zero_of_toDigits heq
      cases heq
      exact .zero
    · exact .nonzero hdigits hzero
  have h := Number.mk (.inl rfl) hwhole .none .none
  rwa [List.nil_append, List.append_nil, List.append_nil] at h

/-! ### Strings -/

/-- The four digits of a numeric escape. -/
inductive Hex : List Char → Nat → Prop
  | mk {a b c d : Char} {w x y z : Nat} (ha : hexValue? a = some w) (hb : hexValue? b = some x)
      (hc : hexValue? c = some y) (hd : hexValue? d = some z) :
      Hex [a, b, c, d] (16 * (16 * (16 * w + x) + y) + z)

/-- What stands between the quotes of a string, and the text that it says.  A strict string has
surrogates in pairs only; in any other one each numeric escape stands for itself. -/
inductive Quoted (strict : Bool) : List Char → List Char → Prop
  | nil : Quoted strict [] []
  | plain {c : Char} {text s : List Char} (hquote : c ≠ '"') (hslash : c ≠ '\\')
      (hcontrol : 32 ≤ c.toNat) (more : Quoted strict text s) : Quoted strict (c :: text) (c :: s)
  | short {e c : Char} {text s : List Char} (h : shortEscape? e = some c)
      (more : Quoted strict text s) : Quoted strict (c :: text) ('\\' :: e :: s)
  | numeric {n : Nat} {digits text s : List Char} (h : Hex digits n)
      (hlone : strict = true → isLeadSurrogate n = false ∧ isTrailSurrogate n = false)
      (more : Quoted strict text s) :
      Quoted strict (Char.ofNat n :: text) ('\\' :: 'u' :: (digits ++ s))
  | pair {lead trail : Nat} {first second text s : List Char} (hstrict : strict = true)
      (hfirst : Hex first lead) (hlead : isLeadSurrogate lead = true)
      (hsecond : Hex second trail) (htrail : isTrailSurrogate trail = true)
      (more : Quoted strict text s) :
      Quoted strict (joinSurrogates lead trail :: text)
        ('\\' :: 'u' :: (first ++ '\\' :: 'u' :: (second ++ s)))

theorem Hex.reads {digits : List Char} {n : Nat} (h : Hex digits n) {strict : Bool}
    {lead : Option Nat} {place : Place} {added : List Char}
    (hclose : closeHex strict lead n = .ok (place, added)) (s : List Char) :
    readQuotedFrom strict (.hex lead 0 0) (digits ++ s) =
      (readQuotedFrom strict place s).map fun (text, rest) => (added ++ text, rest) := by
  obtain ⟨ha, hb, hc, hd⟩ := h
  simp [readQuotedFrom, ha, hb, hc, hd, hclose]

theorem Quoted.reads {strict : Bool} (h : Quoted strict text s) (rest : List Char) :
    readQuotedFrom strict .plain (s ++ '"' :: rest) = .ok (text, rest) := by
  induction h with
  | nil => rfl
  | plain hquote hslash hcontrol more ih =>
      simp [readQuotedFrom, hquote, hslash, Nat.not_lt.2 hcontrol, ih, Except.map]
  | @short e c text s h more ih =>
      have hnumeric : e ≠ 'u' := by
        rintro rfl
        cases h
      simp [readQuotedFrom, hnumeric, h, ih, Except.map]
  | @numeric n digits text s h hlone more ih =>
      have hclose : closeHex strict none n = .ok (.plain, [Char.ofNat n]) := by
        cases strict with
        | false => simp [closeHex]
        | true => simp [closeHex, hlone rfl]
      simp [readQuotedFrom, h.reads hclose, ih, Except.map]
  | @pair lead trail first second text s hstrict hfirst hlead hsecond htrail more ih =>
      subst hstrict
      have hopen : closeHex true none lead = .ok (.pair lead, []) := by simp [closeHex, hlead]
      have hclose : closeHex true (some lead) trail =
          .ok (.plain, [joinSurrogates lead trail]) := by
        simp [closeHex, htrail]
      simp [readQuotedFrom, hfirst.reads hopen, hsecond.reads hclose, ih, Except.map]

theorem hexValue?_hexDigit {n : Nat} (h : n < 16) : hexValue? (hexDigit n) = some n := by
  revert n
  decide

theorem hex_control {n : Nat} (h : n < 32) :
    Hex ['0', '0', hexDigit (n / 16), hexDigit (n % 16)] n := by
  have hzero : hexValue? '0' = some 0 := by decide
  have hhigh : hexValue? (hexDigit (n / 16)) = some (n / 16) := hexValue?_hexDigit (by omega)
  have hlow : hexValue? (hexDigit (n % 16)) = some (n % 16) := hexValue?_hexDigit (by omega)
  have hvalue : 16 * (16 * (16 * 0 + 0) + n / 16) + n % 16 = n := by omega
  have hhex := Hex.mk hzero hzero hhigh hlow
  rwa [hvalue] at hhex

theorem Quoted.escapeChar {strict : Bool} (h : Quoted strict text s) (c : Char) :
    Quoted strict (c :: text) (Json.escapeChar c ++ s) := by
  unfold Json.escapeChar
  split
  · next heq => subst heq; exact .short rfl h
  split
  · next heq => subst heq; exact .short rfl h
  split
  · next heq => subst heq; exact .short rfl h
  split
  · next heq => subst heq; exact .short rfl h
  split
  · next heq => subst heq; exact .short rfl h
  split
  · next heq => subst heq; exact .short rfl h
  split
  · next heq => subst heq; exact .short rfl h
  split
  · next hcontrol =>
      have hlone : isLeadSurrogate c.toNat = false ∧ isTrailSurrogate c.toNat = false := by
        simp only [isLeadSurrogate, isTrailSurrogate]
        grind
      have hnumeric := Quoted.numeric (hex_control hcontrol) (fun _ => hlone) h
      rwa [Char.ofNat_toNat] at hnumeric
  · next hquote hslash _ _ _ _ _ hcontrol =>
      exact .plain hquote hslash (Nat.not_lt.1 hcontrol) h

/-- What is written for a text says that text. -/
theorem quoted_flatMap_escapeChar (strict : Bool) (text : List Char) :
    Quoted strict text (text.flatMap escapeChar) := by
  induction text with
  | nil => exact .nil
  | cons c text ih =>
      rw [List.flatMap_cons]
      exact ih.escapeChar c

/-! ### Values -/

/-- A value, or what is left of an array or an object, be it from its first entry on or behind
others. -/
inductive Part where
  | value
  | items (first : Bool)
  | members (first : Bool)

/-- The texts of each part.  Strings may hold lone surrogates, and keys may repeat. -/
inductive Phrase : Part → List Char → Prop
  | null : Phrase .value ['n', 'u', 'l', 'l']
  | yes : Phrase .value ['t', 'r', 'u', 'e']
  | no : Phrase .value ['f', 'a', 'l', 's', 'e']
  | number {s : List Char} (h : Number s) : Phrase .value s
  | string {text s : List Char} (h : Quoted false text s) : Phrase .value ('"' :: (s ++ ['"']))
  | array {s : List Char} (h : Phrase (.items true) s) : Phrase .value ('[' :: (s ++ [']']))
  | object {s : List Char} (h : Phrase (.members true) s) : Phrase .value ('{' :: (s ++ ['}']))
  | noItem {first : Bool} {s : List Char} (h : Blanks s) : Phrase (.items first) s
  | item {first : Bool} {gap s more : List Char} (hgap : Gap first gap) (h : Phrase .value s)
      (hmore : Phrase (.items false) more) : Phrase (.items first) (gap ++ (s ++ more))
  | noMember {first : Bool} {s : List Char} (h : Blanks s) : Phrase (.members first) s
  | member {first : Bool} {gap text key before after s more : List Char} (hgap : Gap first gap)
      (hkey : Quoted false text key) (hbefore : Blanks before) (hafter : Blanks after)
      (h : Phrase .value s) (hmore : Phrase (.members false) more) :
      Phrase (.members first)
        (gap ++ '"' :: (key ++ '"' :: (before ++ ':' :: (after ++ (s ++ more)))))

theorem Phrase.exists_cons (h : Phrase .value s) :
    ∃ c tail, s = c :: tail ∧ isBlank c = false ∧ c ≠ ']' ∧ c ≠ '}' := by
  cases h with
  | null => exact ⟨_, _, rfl, by decide⟩
  | yes => exact ⟨_, _, rfl, by decide⟩
  | no => exact ⟨_, _, rfl, by decide⟩
  | number h =>
      obtain ⟨c, tail, rfl, hstart⟩ := h.exists_cons
      refine ⟨c, tail, rfl, isBlank_of_numeral hstart, ?_⟩
      constructor <;> rintro rfl <;> simp at hstart
  | string => exact ⟨_, _, rfl, by decide⟩
  | array => exact ⟨_, _, rfl, by decide⟩
  | object => exact ⟨_, _, rfl, by decide⟩

/-- Whether a text is what is left of an array or an object behind an entry of it. -/
def Part.following : Part → Bool
  | .items false | .members false => true
  | _ => false

theorem Phrase.endsNumeral {part : Part} (h : Phrase part s) (hpart : part.following = true)
    (hrest : Json.endsNumeral rest = true) : Json.endsNumeral (s ++ rest) = true := by
  cases h with
  | @noItem first _ hblanks => exact hblanks.endsNumeral hrest
  | @item first _ _ _ hgap =>
      cases first with
      | true => cases hpart
      | false =>
          rw [List.append_assoc]
          exact hgap.endsNumeral _
  | noMember hblanks => exact hblanks.endsNumeral hrest
  | @member first _ _ _ _ _ _ _ hgap =>
      cases first with
      | true => cases hpart
      | false =>
          rw [List.append_assoc]
          exact hgap.endsNumeral _
  | _ => cases hpart

/-! ### Passing over values -/

/-- A reader that passes over values passes over a text of this part, if let go deep enough. -/
def Part.Passes : Part → List Char → Prop
  | .value, s => ∀ depth rest, 2 * s.length ≤ depth → endsNumeral rest = true →
      skipValue depth (s ++ rest) = .ok ((), rest)
  | .items first, s => ∀ depth rest, 2 * s.length < depth →
      skipItems depth first (s ++ ']' :: rest) = .ok ((), rest)
  | .members first, s => ∀ depth rest, 2 * s.length < depth →
      skipMembers depth first (s ++ '}' :: rest) = .ok ((), rest)

theorem skipValue_append (h : Blanks s) (depth : Nat) (rest : List Char) :
    skipValue depth (s ++ rest) = skipValue depth rest := by
  cases depth with
  | zero => rw [skipValue, skipValue]
  | succ depth => rw [skipValue, skipValue, skipBlank_append h]

theorem Number.skipValue (h : Number s) (depth : Nat) (hrest : endsNumeral rest = true) :
    skipValue (depth + 1) (s ++ rest) = .ok ((), rest) := by
  obtain ⟨numeral, hread⟩ := h.reads .malformed hrest
  obtain ⟨c, tail, rfl, hstart⟩ := h.exists_cons
  have hother : c ≠ 'n' ∧ c ≠ 't' ∧ c ≠ 'f' ∧ c ≠ '"' ∧ c ≠ '[' ∧ c ≠ '{' := by
    refine ⟨?_, ?_, ?_, ?_, ?_, ?_⟩ <;> rintro rfl <;> simp at hstart
  rw [List.cons_append] at hread ⊢
  simp [Json.skipValue, skipBlank_cons (isBlank_of_numeral hstart), hother, hstart, hread,
    Except.map]

theorem Phrase.passes {part : Part} (h : Phrase part s) : part.Passes s := by
  -- Each bracket and each entry take one level off the depth, and the text of each has two.
  induction h with
  | null =>
      rintro (_ | depth) rest hdepth -
      · cases hdepth
      · rfl
  | yes =>
      rintro (_ | depth) rest hdepth -
      · cases hdepth
      · rfl
  | no =>
      rintro (_ | depth) rest hdepth -
      · cases hdepth
      · rfl
  | number h =>
      rintro (_ | depth) rest hdepth hrest
      · obtain ⟨c, tail, rfl, -⟩ := h.exists_cons
        cases hdepth
      · exact h.skipValue depth hrest
  | @string text s h =>
      rintro (_ | depth) rest hdepth -
      · cases hdepth
      · have hread := h.reads rest
        have hskip : Json.skipValue (depth + 1) ('"' :: (s ++ ['"']) ++ rest) =
            skipQuoted (s ++ ['"'] ++ rest) := rfl
        rw [hskip, List.append_assoc, skipQuoted]
        simp only [List.cons_append, List.nil_append, hread, Except.map]
  | @array s h ih =>
      rintro (_ | depth) rest hdepth -
      · cases hdepth
      · have hskip : Json.skipValue (depth + 1) ('[' :: (s ++ [']']) ++ rest) =
            skipItems depth true (s ++ [']'] ++ rest) := rfl
        rw [hskip, List.append_assoc]
        refine ih depth rest ?_
        simp only [List.length_cons, List.length_append] at hdepth
        omega
  | @object s h ih =>
      rintro (_ | depth) rest hdepth -
      · cases hdepth
      · have hskip : Json.skipValue (depth + 1) ('{' :: (s ++ ['}']) ++ rest) =
            skipMembers depth true (s ++ ['}'] ++ rest) := rfl
        rw [hskip, List.append_assoc]
        refine ih depth rest ?_
        simp only [List.length_cons, List.length_append] at hdepth
        omega
  | noItem hblanks =>
      rintro (_ | depth) rest hdepth
      · cases hdepth
      · simp only [skipItems, nextEntry_close ']' rfl _ hblanks]
  | @item first gap s more hgap h hmore ih ihMore =>
      rintro (_ | depth) rest hdepth
      · cases hdepth
      · obtain ⟨c, tail, rfl, hblank, hclose, -⟩ := h.exists_cons
        simp only [List.length_append, List.length_cons] at hdepth
        have hentry := nextEntry_gap ']' (by decide) hgap hblank hclose
          (tail ++ (more ++ ']' :: rest))
        have hvalue := ih depth (more ++ ']' :: rest)
          (by simp only [List.length_cons]; omega) (hmore.endsNumeral rfl rfl)
        have hrest := ihMore depth rest (by omega)
        simp only [List.append_assoc, List.cons_append] at hvalue ⊢
        simp only [skipItems, hentry, hvalue]
        exact hrest
  | noMember hblanks =>
      rintro (_ | depth) rest hdepth
      · cases hdepth
      · simp only [skipMembers, nextEntry_close '}' rfl _ hblanks]
  | @member first gap text key before after s more hgap hkey hbefore hafter h hmore ih ihMore =>
      rintro (_ | depth) rest hdepth
      · cases hdepth
      · have hquote : isBlank '"' = false := rfl
        obtain ⟨c, tail, rfl, -⟩ := h.exists_cons
        simp only [List.length_append, List.length_cons] at hdepth
        have hentry := nextEntry_gap '}' (by decide) hgap hquote (by decide)
        have hquoted (rest : List Char) : skipQuoted (key ++ '"' :: rest) = .ok ((), rest) := by
          rw [skipQuoted, hkey.reads rest]
          rfl
        have hmark := readMark_append ':' rfl hbefore
        have hvalue := ih depth (more ++ '}' :: rest)
          (by simp only [List.length_cons]; omega) (hmore.endsNumeral rfl rfl)
        have hrest := ihMore depth rest (by omega)
        simp only [List.append_assoc, List.cons_append] at hvalue ⊢
        simp only [skipMembers, hentry, hquoted, hmark, skipValue_append hafter, hvalue]
        exact hrest

/-- A value of any depth is passed over, and nothing behind it. -/
theorem Phrase.skip (h : Phrase .value text) (hblanks : Blanks s)
    (hrest : Json.endsNumeral rest = true) :
    Json.skip (s ++ (text ++ rest)) = .ok ((), rest) := by
  rw [Json.skip, skipValue_append hblanks]
  refine h.passes _ rest ?_ hrest
  simp only [List.length_append]
  omega

end StatePool.Json
