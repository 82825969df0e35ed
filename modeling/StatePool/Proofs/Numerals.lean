import StatePool.Json.Record
import StatePool.Json.Written
import StatePool.Text.Integer

/-!
Decimal text of integers, and reading it back.

A reader takes digits as long as there are any, so the text of a number is read back where nothing
behind it goes on with the numeral.  The digits of a number have no leading zero, which the grammar
of JSON would refuse.
-/

namespace StatePool

/-! ### Digits -/

theorem isDigit_of_mem_toDigits {n : Nat} {c : Char} (h : c ∈ Nat.toDigits 10 n) :
    c.isDigit = true :=
  Nat.isDigit_of_mem_toDigits (by decide) (Nat.le_refl 10) h

/-- Only zero has a leading zero. -/
theorem eq_zero_of_toDigits {n : Nat} {digits : List Char} (h : Nat.toDigits 10 n = '0' :: digits) :
    n = 0 := by
  induction n using Nat.strongRecOn generalizing digits with
  | ind n ih =>
      rw [Nat.toDigits_eq_if (by decide)] at h
      split at h
      · exact Nat.digitChar_eq_zero.1 (List.cons.inj h).1
      · next hten =>
          cases hfront : Nat.toDigits 10 (n / 10) with
          | nil => exact absurd hfront Nat.toDigits_ne_nil
          | cons c front =>
              rw [hfront, List.cons_append] at h
              rw [(List.cons.inj h).1] at hfront
              have hzero := ih (n / 10) (by omega) hfront
              omega

theorem toDigits_eq_cons (n : Nat) :
    ∃ c digits, Nat.toDigits 10 n = c :: digits ∧ c.isDigit = true := by
  cases h : Nat.toDigits 10 n with
  | nil => exact absurd h Nat.toDigits_ne_nil
  | cons c digits => exact ⟨c, digits, rfl, isDigit_of_mem_toDigits (h ▸ List.mem_cons_self)⟩

namespace Json

/-! ### Numerals -/

/-- Whether a numeral ends where a text begins. -/
def endsNumeral : List Char → Bool
  | [] => true
  | c :: _ => !(c.isDigit || c == '.' || c == 'e' || c == 'E')

variable {s rest : List Char}

theorem digitsValue_writeNat (n : Nat) : digitsValue ((writeNat n).map digitOf) = n := by
  have h : digitsValue ((writeNat n).map digitOf) = Nat.ofDigitChars 10 (writeNat n) 0 := by
    rw [Nat.ofDigitChars_eq_foldl, digitsValue, List.foldl_map]
    rfl
  rw [h, writeNat, Nat.ofDigitChars_ten_toDigits]

/-- Whether a run of digits ends where a text begins. -/
def endsDigits : List Char → Bool
  | [] => true
  | c :: _ => !c.isDigit

theorem endsDigits_of_endsNumeral (hrest : endsNumeral rest = true) : endsDigits rest = true := by
  cases rest with
  | nil => rfl
  | cons c rest =>
      simp only [endsNumeral, Bool.not_eq_true', Bool.or_eq_false_iff] at hrest
      simp only [endsDigits, hrest.1.1.1, Bool.not_false]

/-- A reader of digits takes all of them and nothing else. -/
theorem takeDigits_append {digits : List Char} (hdigits : ∀ c ∈ digits, c.isDigit = true)
    (hrest : endsDigits rest = true) : takeDigits (digits ++ rest) = (digits.map digitOf, rest) := by
  have hstop : rest.takeWhile Char.isDigit = [] ∧ rest.dropWhile Char.isDigit = rest := by
    cases rest with
    | nil => exact ⟨rfl, rfl⟩
    | cons c rest =>
        simp only [endsDigits, Bool.not_eq_true'] at hrest
        simp [hrest]
  rw [takeDigits, List.takeWhile_append_of_pos hdigits, List.dropWhile_append_of_pos hdigits,
    hstop.1, hstop.2, List.append_nil]

theorem readDigits_append (short : Fault) {digits : List Char} (hne : digits ≠ [])
    (hdigits : ∀ c ∈ digits, c.isDigit = true) (hrest : endsDigits rest = true) :
    readDigits short (digits ++ rest) = .ok (digits.map digitOf, rest) := by
  obtain ⟨c, digits, rfl⟩ := List.exists_cons_of_ne_nil hne
  unfold readDigits
  rw [takeDigits_append hdigits hrest, List.map_cons]

theorem readDigits_writeNat (short : Fault) (n : Nat) (hrest : endsNumeral rest = true) :
    readDigits short (writeNat n ++ rest) = .ok ((writeNat n).map digitOf, rest) :=
  readDigits_append short Nat.toDigits_ne_nil (fun _ => isDigit_of_mem_toDigits)
    (endsDigits_of_endsNumeral hrest)

theorem readWholeDigits_writeNat (short : Fault) (n : Nat) (hrest : endsNumeral rest = true) :
    readWholeDigits short (writeNat n ++ rest) = .ok ((writeNat n).map digitOf, rest) := by
  have hread := readDigits_writeNat short n hrest
  unfold readWholeDigits
  split
  · next c tail htext =>
      -- A zero in front is the whole number, and no digit follows it.
      obtain ⟨first, digits, heq, -⟩ := toDigits_eq_cons n
      rw [writeNat, heq, List.cons_append] at htext
      rw [(List.cons.inj htext).1] at heq
      have hzero := eq_zero_of_toDigits heq
      subst hzero
      cases heq
      obtain rfl : rest = c :: tail := (List.cons.inj htext).2
      simp only [endsNumeral, Bool.not_eq_true', Bool.or_eq_false_iff] at hrest
      simp only [hrest.1.1.1, Bool.false_eq_true, ↓reduceIte]
      rfl
  · exact hread

theorem readFraction_of_ends (short : Fault) (hrest : endsNumeral rest = true) :
    readFraction short rest = .ok (none, rest) := by
  unfold readFraction
  split
  · cases hrest
  · rfl

theorem readExponent_of_ends (short : Fault) (hrest : endsNumeral rest = true) :
    readExponent short rest = .ok (none, rest) := by
  unfold readExponent
  split
  · cases hrest
  · cases hrest
  · rfl

/-- The numeral of a number without fraction and exponent. -/
def integerNumeral (negative : Bool) (n : Nat) : Numeral :=
  ⟨negative, (writeNat n).map digitOf, none, none⟩

theorem readUnsignedNumeral_writeNat (short : Fault) (negative : Bool) (n : Nat)
    (hrest : endsNumeral rest = true) :
    readUnsignedNumeral short negative (writeNat n ++ rest) =
      .ok (integerNumeral negative n, rest) := by
  simp only [readUnsignedNumeral, readWholeDigits_writeNat short n hrest,
    readFraction_of_ends short hrest, readExponent_of_ends short hrest, integerNumeral]

theorem writeInt_eq (n : Int) :
    writeInt n = (if n < 0 then ['-'] else []) ++ writeNat n.natAbs := by
  unfold writeInt
  split <;> rfl

theorem writeInt_natCast (n : Nat) : writeInt n = writeNat n := by
  have hsign : ¬ (n : Int) < 0 := by omega
  rw [writeInt_eq, if_neg hsign, Int.natAbs_natCast, List.nil_append]

/-- The text of an integer starts as a numeral does. -/
theorem writeInt_eq_cons (n : Int) :
    ∃ c digits, writeInt n = c :: digits ∧ (c = '-' ∨ c.isDigit = true) := by
  rw [writeInt_eq]
  split
  · exact ⟨'-', writeNat n.natAbs, rfl, .inl rfl⟩
  · obtain ⟨c, digits, heq, hdigit⟩ := toDigits_eq_cons n.natAbs
    exact ⟨c, digits, heq, .inr hdigit⟩

theorem readNumeral_writeInt (short : Fault) (n : Int) (hrest : endsNumeral rest = true) :
    readNumeral short (writeInt n ++ rest) =
      .ok (integerNumeral (n < 0) n.natAbs, rest) := by
  have hread (negative : Bool) :=
    readUnsignedNumeral_writeNat short negative n.natAbs hrest
  rw [writeInt_eq]
  by_cases hsign : n < 0
  · simp only [hsign, ↓reduceIte, decide_true]
    exact hread true
  · obtain ⟨c, digits, heq, hdigit⟩ := toDigits_eq_cons n.natAbs
    simp only [hsign, ↓reduceIte, List.nil_append, decide_false]
    unfold readNumeral
    split
    · next htext =>
        rw [writeNat, heq, List.cons_append] at htext
        rw [(List.cons.inj htext).1] at hdigit
        cases hdigit
    · exact hread false

theorem toInt?_integerNumeral {n : Int} (hmin : -(Nat.pow 2 63) ≤ n) (hmax : n < Nat.pow 2 64) :
    (integerNumeral (n < 0) n.natAbs).toInt? = some n := by
  have hhalf : Nat.pow 2 63 = 9223372036854775808 := rfl
  have hwhole : Nat.pow 2 64 = 18446744073709551616 := rfl
  simp only [Numeral.toInt?, integerNumeral, Option.isSome_none, Bool.or_self, Bool.false_eq_true,
    ↓reduceIte, digitsValue_writeNat, decide_eq_true_eq]
  split
  · rw [if_pos (by omega), Option.some.injEq]
    omega
  · rw [if_pos (by omega), Option.some.injEq]
    omega

/-! ### Integers -/

theorem isBlank_of_numeral {c : Char} (h : c = '-' ∨ c.isDigit = true) : isBlank c = false := by
  rcases h with rfl | h
  · rfl
  · rw [Bool.eq_false_iff]
    intro hblank
    simp only [isBlank, Bool.or_eq_true, beq_iff_eq] at hblank
    rcases hblank with ((rfl | rfl) | rfl) | rfl <;> cases h

theorem skipBlank_cons {c : Char} (h : isBlank c = false) : skipBlank (c :: s) = c :: s := by
  simp [skipBlank, h]

theorem readInteger_writeInt {low high n : Int} (hlow : low ≤ n) (hhigh : n ≤ high)
    (hmin : -(Nat.pow 2 63) ≤ n) (hmax : n < Nat.pow 2 64) (hrest : endsNumeral rest = true) :
    readInteger low high (writeInt n ++ rest) = .ok (n, rest) := by
  obtain ⟨c, digits, heq, hstart⟩ := writeInt_eq_cons n
  have hread := readNumeral_writeInt .truncated n hrest
  have hvalue := toInt?_integerNumeral hmin hmax
  rw [heq, List.cons_append] at hread ⊢
  simp only [readInteger, skipBlank_cons (isBlank_of_numeral hstart), if_pos hstart, hread, hvalue,
    if_pos (And.intro hlow hhigh)]

theorem readInt64_writeInt (n : Int64) (hrest : endsNumeral rest = true) :
    readInt64 (writeInt n.toInt ++ rest) = .ok (n, rest) := by
  have hhalf : Nat.pow 2 63 = 9223372036854775808 := rfl
  have hwhole : Nat.pow 2 64 = 18446744073709551616 := rfl
  have hlow := n.le_toInt
  have hhigh := n.toInt_lt
  rw [readInt64, readInteger_writeInt (by omega) (by omega) (by omega) (by omega) hrest]
  simp only [Except.map, Int64.ofInt_toInt]

theorem readUInt64_writeNat (n : UInt64) (hrest : endsNumeral rest = true) :
    readUInt64 (writeNat n.toNat ++ rest) = .ok (n, rest) := by
  have hhalf : Nat.pow 2 63 = 9223372036854775808 := rfl
  have hwhole : Nat.pow 2 64 = 18446744073709551616 := rfl
  have hlt := n.toNat_lt
  rw [← writeInt_natCast, readUInt64,
    readInteger_writeInt (by omega) (by omega) (by omega) (by omega) hrest]
  simp only [Except.map, Int.toNat_natCast, UInt64.ofNat_toNat]

end Json

namespace Text

variable {bound : Nat} {beyond : IntegerFault}

theorem digit?_of_isDigit {c : Char} (h : c.isDigit = true) :
    digit? c = some (c.toNat - '0'.toNat) := by
  simp only [Char.isDigit, Bool.and_eq_true, decide_eq_true_eq] at h
  exact if_pos h

theorem le_ofDigitChars (digits : List Char) (n : Nat) :
    n ≤ Nat.ofDigitChars 10 digits n := by
  induction digits generalizing n with
  | nil => exact Nat.le_refl n
  | cons c digits ih =>
      rw [Nat.ofDigitChars_cons]
      exact Nat.le_trans (by omega) (ih _)

theorem readMagnitude_of_le {digits : List Char} (hdigits : ∀ c ∈ digits, c.isDigit = true) {n : Nat}
    (hbound : Nat.ofDigitChars 10 digits n ≤ bound) :
    readMagnitude bound beyond n digits = .ok (Nat.ofDigitChars 10 digits n) := by
  induction digits generalizing n with
  | nil => rfl
  | cons c digits ih =>
      rw [List.forall_mem_cons] at hdigits
      rw [Nat.ofDigitChars_cons] at hbound ⊢
      have hle := Nat.le_trans (le_ofDigitChars digits _) hbound
      simp only [readMagnitude, digit?_of_isDigit hdigits.1, if_pos hle]
      exact ih hdigits.2 hbound

/-- A text without a sign is read as it stands. -/
theorem readInt64_of_isDigit {c : Char} {digits : List Char} (h : c.isDigit = true) :
    readInt64 (c :: digits) = readPositive (c :: digits) := by
  unfold readInt64
  split
  · next heq => cases heq
  · next heq => cases heq; cases h
  · next heq => cases heq; cases h
  · next heq => cases heq; cases h
  · next heq => cases heq; cases h
  · rfl

theorem readInt64_toDigits {n : Nat} (h : n < Nat.pow 2 63) :
    readInt64 (Nat.toDigits 10 n) = .ok (Int64.ofInt n) := by
  have hdigits : ∀ c ∈ Nat.toDigits 10 n, c.isDigit = true := fun c => isDigit_of_mem_toDigits
  have hpositive : readPositive (Nat.toDigits 10 n) = .ok (Int64.ofInt n) := by
    have hvalue : Nat.ofDigitChars 10 (Nat.toDigits 10 n) 0 = n := Nat.ofDigitChars_ten_toDigits
    rw [readPositive, readMagnitude_of_le hdigits (by omega), hvalue]
    rfl
  obtain ⟨c, digits, heq, hdigit⟩ := toDigits_eq_cons n
  rw [heq] at hpositive ⊢
  exact (readInt64_of_isDigit hdigit).trans hpositive

end Text

end StatePool
