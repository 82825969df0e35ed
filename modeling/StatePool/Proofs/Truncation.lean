import StatePool.Proofs.Layout

/-!
Documents that are cut off.

Every bracket that is open, every name and every text asks for more, and a number that is cut off is
none or another number.  What is read of a record up to any point but its last is refused as cut
off, so no field takes its default because the text of the others got lost.  Fields of unknown names
are left out here: a number in one of them that ends at its sign is not JSON to those who pass over
it.
-/

namespace StatePool

namespace Json

variable {s text p rest : List Char} {first : Bool}

/-! ### Beginnings of a text -/

theorem prefix_append_cases {a b : List Char} (h : p <+: a ++ b) :
    p <+: a ∨ ∃ q, p = a ++ q ∧ q <+: b := by
  rcases List.prefix_or_prefix_of_prefix h (List.prefix_append a b) with hfront | ⟨q, rfl⟩
  · exact .inl hfront
  · exact .inr ⟨q, rfl, (List.prefix_append_right_inj a).1 h⟩

theorem prefix_mark_cases {a b : List Char} {c : Char} (h : p <+: a ++ c :: b) :
    p <+: a ∨ ∃ q, p = a ++ c :: q ∧ q <+: b := by
  rcases prefix_append_cases h with hfront | ⟨q, rfl, hq⟩
  · exact .inl hfront
  · rcases List.prefix_cons_iff.1 hq with rfl | ⟨r, rfl, hr⟩
    · exact .inl ((List.append_nil a).symm ▸ List.prefix_rfl)
    · exact .inr ⟨r, rfl, hr⟩

/-- A reader finds no fault with the beginnings of a text but that they end, if they are not the
texts of other values. -/
def CutShort {α : Type} (reader : Reader α) (s : List Char) : Prop :=
  ∀ p, p <+: s → reader p = .error .truncated ∨ ∃ a, reader p = .ok (a, [])

theorem CutShort.map {α β : Type} {reader : Reader α} (h : CutShort reader s) (f : α → β) :
    CutShort (fun s => (reader s).map fun (a, rest) => (f a, rest)) s := by
  intro p hp
  rcases h p hp with hread | ⟨a, hread⟩
  · exact .inl (by simp only [hread, Except.map])
  · exact .inr ⟨f a, by simp only [hread, Except.map]⟩

/-! ### White space -/

theorem Blanks.cut (h : Blanks s) (hp : p <+: s) : Blanks p :=
  fun c hc => h c (hp.subset hc)

theorem Blanks.skipBlank (h : Blanks s) : Json.skipBlank s = [] := by
  have hskip := skipBlank_append h []
  rwa [List.append_nil] at hskip

theorem readMark_blanks (h : Blanks s) (mark : Char) : readMark mark s = .error .truncated := by
  simp only [readMark, h.skipBlank]

theorem nextEntry_blanks (h : Blanks s) (close : Char) (first : Bool) :
    nextEntry close first s = .error .truncated := by
  simp only [nextEntry, h.skipBlank]

/-- Another entry may follow as long as none has begun. -/
theorem Gap.cut (h : Gap first s) (close : Char) (hclose : close ≠ ',') (hp : p <+: s) :
    nextEntry close first p = .error .truncated := by
  cases h with
  | first hblanks => exact nextEntry_blanks (hblanks.cut hp) close true
  | next hbefore hafter =>
      rcases prefix_mark_cases hp with hp | ⟨q, rfl, hq⟩
      · exact nextEntry_blanks (hbefore.cut hp) close false
      · have hmark : isBlank ',' = false := rfl
        simp only [nextEntry, skipBlank_append hbefore, skipBlank_cons hmark, if_neg hclose.symm,
          Bool.false_eq_true, ↓reduceIte, (hafter.cut hq).skipBlank]

theorem endsNumeral_cut (h : endsNumeral s = true) (hp : p <+: s) : endsNumeral p = true := by
  cases s with
  | nil => rw [List.prefix_nil.1 hp, h]
  | cons c s =>
      rcases List.prefix_cons_iff.1 hp with rfl | ⟨q, rfl, -⟩
      · rfl
      · exact h

/-! ### Strings and words -/

/-- A string goes on up to its closing quote, wherever in it the reader stands. -/
theorem readQuotedFrom_cut {strict : Bool} {place : Place} {q : List Char}
    (h : readQuotedFrom strict place (p ++ q) = .ok (text, rest))
    (hlength : rest.length < q.length) :
    readQuotedFrom strict place p = .error .truncated := by
  induction p generalizing place text with
  | nil => cases place <;> rfl
  | cons c p ih =>
      rw [List.cons_append] at h
      -- What is read behind the first character is read of a shorter text, at another place.
      have hmore {place : Place} {f : List Char × List Char → List Char × List Char}
          (h : (readQuotedFrom strict place (p ++ q)).map f = .ok (text, rest))
          (hf : ∀ result, (f result).2 = result.2) :
          readQuotedFrom strict place p = .error .truncated := by
        cases hread : readQuotedFrom strict place (p ++ q) with
        | error fault =>
            rw [hread] at h
            cases h
        | ok result =>
            obtain ⟨text', rest'⟩ := result
            rw [hread] at h
            have hrest : rest' = rest :=
              (hf (text', rest')).symm.trans (congrArg Prod.snd (Except.ok.inj h))
            exact ih (hread.trans (by rw [hrest]))
      cases place with
      | plain =>
          unfold readQuotedFrom at h ⊢
          split at h
          · cases h
            simp only [List.length_append] at hlength
            omega
          split at h
          · next hquote hslash => simp only [if_neg hquote, if_pos hslash, ih h]
          split at h
          · cases h
          · next hquote hslash hcontrol =>
              simp only [if_neg hquote, if_neg hslash, if_neg hcontrol, hmore h (fun _ => rfl),
                Except.map]
      | escape =>
          unfold readQuotedFrom at h ⊢
          split at h
          · next hnumeric => simp only [if_pos hnumeric, ih h]
          · next hnumeric =>
              rw [if_neg hnumeric]
              split at h
              · cases h
              · next c heq => simp only [hmore h (fun _ => rfl), Except.map]
      | hex lead digits value =>
          unfold readQuotedFrom at h ⊢
          split at h
          · cases h
          · split at h
            · next hdigits => simp only [if_pos hdigits, ih h]
            · next hdigits =>
                rw [if_neg hdigits]
                split at h
                · cases h
                · simp only [hmore h (fun _ => rfl), Except.map]
      | pair lead =>
          unfold readQuotedFrom at h ⊢
          split at h
          · next hslash => simp only [if_pos hslash, ih h]
          · cases h
      | pairEscape lead =>
          unfold readQuotedFrom at h ⊢
          split at h
          · next hnumeric => simp only [if_pos hnumeric, ih h]
          · cases h

theorem Quoted.cut {strict : Bool} (h : Quoted strict text s) (hp : p <+: s) :
    readQuotedFrom strict .plain p = .error .truncated := by
  obtain ⟨q, rfl⟩ := hp
  have hread := h.reads []
  rw [List.append_assoc] at hread
  exact readQuotedFrom_cut hread (by simp)

theorem Quoted.cutShort (h : Quoted true text s) :
    CutShort Json.readText ('"' :: (s ++ ['"'])) := by
  intro p hp
  rcases List.prefix_cons_iff.1 hp with rfl | ⟨q, rfl, hq⟩
  · exact .inl rfl
  rcases prefix_mark_cases hq with hbody | ⟨r, rfl, hr⟩
  · exact .inl (h.cut hbody)
  · obtain rfl := List.prefix_nil.1 hr
    exact .inr ⟨text, h.readText []⟩

theorem readWord_cut {word : List Char} (hp : p <+: word) (hne : p ≠ word) :
    readWord word p = .error .truncated := by
  induction word generalizing p with
  | nil => exact absurd (List.prefix_nil.1 hp) hne
  | cons c word ih =>
      rcases List.prefix_cons_iff.1 hp with rfl | ⟨q, rfl, hq⟩
      · rfl
      · have hread := ih hq (fun heq => hne (heq ▸ rfl))
        simp only [readWord, ↓reduceIte, hread]

theorem readNull_cut (h : Blanks s) (hp : p <+: s ++ ['n', 'u', 'l']) :
    readNull p = .error .truncated := by
  rcases prefix_mark_cases hp with hp | ⟨q, rfl, hq⟩
  · simp only [readNull, (h.cut hp).skipBlank]
    rfl
  · have hword : q <+: ['u', 'l', 'l'] := hq.trans ⟨['l'], rfl⟩
    have hne : q ≠ ['u', 'l', 'l'] := by
      rintro rfl
      simpa using hq.length_le
    have hletter : isBlank 'n' = false := rfl
    simp only [readNull, skipBlank_append h, skipBlank_cons hletter, readWord_cut hword hne]

/-! ### Names -/

section

variable {α : Type} {names : List (List Char × α)} {a : α} {name : List Char}

theorem readKeyName_cut {before : List Char} (hbefore : Blanks before) (h : Quoted true name s)
    (hp : p <+: before ++ '"' :: s) : readKeyName names p = .error .truncated := by
  rcases prefix_mark_cases hp with hp | ⟨q, rfl, hq⟩
  · simp only [readKeyName, (hbefore.cut hp).skipBlank]
  · have hquote : isBlank '"' = false := rfl
    have hread : readText ('"' :: q) = .error .truncated := h.cut hq
    simp only [readKeyName, skipBlank_append hbefore, skipBlank_cons hquote, readKnownName, hread]

theorem Named.cutShort (h : Named name s) (hname : names.lookup name = some a) :
    CutShort (Json.readName names) s := by
  intro p hp
  have hwhole : Json.readName names s = .ok (a, []) := by
    have hread := h.readName hname []
    rwa [List.append_nil] at hread
  cases h with
  | @plain s h =>
      rcases List.prefix_cons_iff.1 hp with rfl | ⟨q, rfl, hq⟩
      · exact .inl rfl
      rcases prefix_mark_cases hq with hbody | ⟨r, rfl, hr⟩
      · exact .inl (readKeyName_cut Blanks.nil h (List.cons_prefix_cons.2 ⟨rfl, hbody⟩))
      · obtain rfl := List.prefix_nil.1 hr
        exact .inr ⟨a, hwhole⟩
  | @keyed before s after ahead behind hbefore h hafter hahead hbehind =>
      have hopen : isBlank '{' = false := rfl
      have hkey := readKeyName_of_quoted hname hbefore h
      have hcolon := readMark_append ':' rfl hafter
      have hnull (rest : List Char) :
          readNull (ahead ++ 'n' :: 'u' :: 'l' :: 'l' :: rest) = .ok ((), rest) := by
        simp only [readNull, skipBlank_append hahead]
        rfl
      -- Each part of the object is followed by a mark of its own.
      rcases List.prefix_cons_iff.1 hp with rfl | ⟨q, rfl, hq⟩
      · exact .inl rfl
      have hparts : q <+: (before ++ '"' :: s) ++ '"' :: (after ++ ':' ::
          ((ahead ++ ['n', 'u', 'l']) ++ 'l' :: (behind ++ ['}']))) := by
        simpa using hq
      rcases prefix_mark_cases hparts with hfront | ⟨v, rfl, hv⟩
      · have hread : readKeyName names q = .error .truncated := readKeyName_cut hbefore h hfront
        exact .inl (by simp only [Json.readName, skipBlank_cons hopen, hread])
      rcases prefix_mark_cases hv with hfront | ⟨r, rfl, hr⟩
      · have hread := readMark_blanks (hafter.cut hfront) ':'
        exact .inl (by simp [Json.readName, skipBlank_cons hopen, hkey, hread])
      rcases prefix_mark_cases hr with hfront | ⟨t, rfl, ht⟩
      · have hread := readNull_cut hahead hfront
        exact .inl (by simp [Json.readName, skipBlank_cons hopen, hkey, hcolon, hread])
      rcases prefix_mark_cases ht with hfront | ⟨u, rfl, hu⟩
      · have hread := readMark_blanks (hbehind.cut hfront) '}'
        refine .inl ?_
        simp [Json.readName, skipBlank_cons hopen, hkey, hcolon, hnull, hread, Except.map]
      · obtain rfl := List.prefix_nil.1 hu
        exact .inr ⟨a, by simpa using hwhole⟩

end

/-! ### Integers -/

/-- The beginnings of a number are smaller numbers. -/
theorem prefix_writeNat {n : Nat} (hp : p <+: writeNat n) :
    p = [] ∨ ∃ m ≤ n, (0 < n → 0 < m) ∧ p = writeNat m := by
  induction n using Nat.strongRecOn generalizing p with
  | ind n ih =>
      by_cases hten : n < 10
      · rw [writeNat, Nat.toDigits_eq_if (by decide), if_pos hten] at hp
        rcases List.prefix_cons_iff.1 hp with rfl | ⟨q, rfl, hq⟩
        · exact .inl rfl
        · obtain rfl := List.prefix_nil.1 hq
          refine .inr ⟨n, Nat.le_refl n, id, ?_⟩
          rw [writeNat, Nat.toDigits_eq_if (by decide), if_pos hten]
      · have hdigits : writeNat n = writeNat (n / 10) ++ [Nat.digitChar (n % 10)] := by
          rw [writeNat, Nat.toDigits_eq_if (by decide), if_neg hten, writeNat]
        rw [hdigits, List.prefix_concat_iff] at hp
        rcases hp with rfl | hp
        · exact .inr ⟨n, Nat.le_refl n, id, hdigits.symm⟩
        · rcases ih (n / 10) (by omega) hp with rfl | ⟨m, hle, hpos, rfl⟩
          · exact .inl rfl
          · exact .inr ⟨m, by omega, fun _ => hpos (by omega), rfl⟩

theorem prefix_writeInt {n : Int} (hp : p <+: writeInt n) :
    p = [] ∨ p = ['-'] ∨ ∃ m, (n ≤ m ∨ 0 ≤ m) ∧ (m ≤ n ∨ m ≤ 0) ∧ p = writeInt m := by
  rw [writeInt_eq] at hp
  split at hp
  · next hsign =>
      rcases List.prefix_cons_iff.1 hp with rfl | ⟨q, rfl, hq⟩
      · exact .inl rfl
      rcases prefix_writeNat hq with rfl | ⟨m, hle, hpos, rfl⟩
      · exact .inr (.inl rfl)
      · have hm : 0 < m := hpos (by omega)
        have hneg : (-m : Int) < 0 := by omega
        refine .inr (.inr ⟨-m, .inl (by omega), .inr (by omega), ?_⟩)
        rw [writeInt, if_pos hneg, Int.natAbs_neg, Int.natAbs_natCast]
  · next hsign =>
      rcases prefix_writeNat hp with rfl | ⟨m, hle, -, rfl⟩
      · exact .inl rfl
      · exact .inr (.inr ⟨m, .inr (by omega), .inl (by omega), (writeInt_natCast m).symm⟩)

theorem readInteger_cutShort {low high n : Int} (hlow : low ≤ n) (hhigh : n ≤ high)
    (hzero : low ≤ 0 ∧ 0 ≤ high) (hmin : -(Nat.pow 2 63) ≤ low) (hmax : high < Nat.pow 2 64) :
    CutShort (readInteger low high) (writeInt n) := by
  intro p hp
  rcases prefix_writeInt hp with rfl | rfl | ⟨m, hbelow, habove, rfl⟩
  · exact .inl rfl
  · exact .inl rfl
  · have hread : readInteger low high (writeInt m ++ []) = .ok (m, []) :=
      readInteger_writeInt (by omega) (by omega) (by omega) (by omega) rfl
    rw [List.append_nil] at hread
    exact .inr ⟨m, hread⟩

theorem readInt64_cutShort (n : Int64) : CutShort readInt64 (writeInt n.toInt) := by
  have hhalf : Nat.pow 2 63 = 9223372036854775808 := rfl
  have hwhole : Nat.pow 2 64 = 18446744073709551616 := rfl
  have hlow := n.le_toInt
  have hhigh := n.toInt_lt
  have hcut : CutShort (readInteger (-(Nat.pow 2 63)) (Nat.pow 2 63 - 1)) (writeInt n.toInt) := by
    apply readInteger_cutShort <;> omega
  exact hcut.map Int64.ofInt

theorem readUInt64_cutShort (n : UInt64) : CutShort readUInt64 (writeNat n.toNat) := by
  have hwhole : Nat.pow 2 64 = 18446744073709551616 := rfl
  have hlt := n.toNat_lt
  rw [← writeInt_natCast]
  have hcut : CutShort (readInteger 0 (Nat.pow 2 64 - 1)) (writeInt n.toNat) := by
    apply readInteger_cutShort <;> omega
  exact hcut.map fun n => UInt64.ofNat n.toNat

/-! ### Records -/

namespace Wording

variable {ρ φ : Type} {shape : Shape ρ φ} {wording : Wording shape}
  {record current : ρ} {listed seen : List φ}

/-- What a field holds is not read of the beginnings of its text, if these are not its texts too. -/
def Brittle (wording : Wording shape) : Prop :=
  ∀ field value s, wording.Says field value s →
    ∀ record, CutShort (shape.readField field record) s

/-- A text that ends in front of a value or in it leaves nothing over, and one that goes on leaves a
beginning of what follows. -/
theorem Brittle.cut (brittle : wording.Brittle) (lawful : wording.Lawful) {field : φ}
    {value : wording.Value field} (h : wording.Says field value s) {blanks more : List Char}
    (hblanks : Blanks blanks) (hmore : endsNumeral more = true) (record : ρ)
    (hp : p <+: blanks ++ (s ++ more)) :
    shape.readField field record p = .error .truncated ∨
      ∃ next q, q <+: more ∧ q.length ≤ p.length ∧
        shape.readField field record p = .ok (next, q) := by
  have hshort {q : List Char} (hq : q <+: s) :
      shape.readField field record q = .error .truncated ∨
        ∃ next q', q' <+: more ∧ q'.length ≤ p.length ∧
          shape.readField field record q = .ok (next, q') := by
    rcases brittle field value s h record q hq with hread | ⟨next, hread⟩
    · exact .inl hread
    · exact .inr ⟨next, [], List.nil_prefix, Nat.zero_le _, hread⟩
  have hskip (q : List Char) := lawful.blanks field record blanks q hblanks
  rcases prefix_append_cases hp with hfront | ⟨q, rfl, hq⟩
  · have hread := lawful.blanks field record p [] (hblanks.cut hfront)
    rw [List.append_nil] at hread
    rw [hread]
    exact hshort List.nil_prefix
  · rw [hskip]
    rcases prefix_append_cases hq with hfront | ⟨r, rfl, hr⟩
    · exact hshort hfront
    · obtain ⟨next, hread, -⟩ := lawful.reads field value s h record r (endsNumeral_cut hmore hr)
      refine .inr ⟨next, r, hr, ?_, hread⟩
      simp only [List.length_append]
      omega

theorem Items.cut (lawful : wording.Lawful) (brittle : wording.Brittle)
    (h : wording.Items record first listed s) {fields : List (List Char × φ)}
    (hinit : listed <+: fields.map Prod.snd) (hp : p <+: s) :
    shape.readItems fields current first p = .error .truncated := by
  induction h generalizing current p fields with
  | none hblanks =>
      cases fields with
      | nil => simp only [Shape.readItems, readMark_blanks (hblanks.cut hp), Except.map]
      | cons field fields => simp only [Shape.readItems, nextEntry_blanks (hblanks.cut hp)]
  | @item first field listed gap s more hgap h hmore ih =>
      obtain ⟨entry, fields, rfl⟩ : ∃ entry later, fields = entry :: later := by
        cases fields with
        | nil => simp at hinit
        | cons entry later => exact ⟨entry, later, rfl⟩
      rw [List.map_cons, List.cons_prefix_cons] at hinit
      obtain ⟨rfl, hinit⟩ := hinit
      obtain ⟨c, tail, rfl, hblank, hclose⟩ := lawful.starts entry.2 _ s h
      rcases prefix_mark_cases hp with hfront | ⟨q, rfl, hq⟩
      · simp only [Shape.readItems, hgap.cut ']' (by decide) hfront]
      have hentry := nextEntry_gap ']' (by decide) hgap hblank hclose
      have hvalue : c :: q <+: [] ++ ((c :: tail) ++ more) :=
        List.cons_prefix_cons.2 ⟨rfl, hq⟩
      simp only [Shape.readItems, hentry]
      have hends : Json.endsNumeral (more ++ []) = true := hmore.endsNumeral rfl
      rw [List.append_nil] at hends
      rcases brittle.cut lawful h Blanks.nil hends current hvalue with
        hread | ⟨next, r, hr, -, hread⟩
      · simp only [hread]
      · simp only [hread]
        exact ih hinit hr

variable [DecidableEq φ]

theorem Members.cut (lawful : wording.Lawful) (brittle : wording.Brittle)
    (hstrict : wording.lenient = false) (h : wording.Members record first listed s)
    (hnodup : listed.Nodup) (hseen : ∀ field ∈ listed, field ∉ seen) (hp : p <+: s)
    {bound : Nat} (hbound : p.length ≤ bound) :
    shape.readMembers (bound + 1) seen current first p = .error .truncated := by
  have hquote : isBlank '"' = false := rfl
  induction h generalizing seen current p bound with
  | none hblanks =>
      simp only [Shape.readMembers, nextEntry_blanks (hblanks.cut hp)]
  | unknown hlenient => simp [hstrict] at hlenient
  | @field first field listed gap name key before after s more hgap hname hkey hbefore hafter h
      hmore ih =>
      obtain ⟨hfresh, hnodup⟩ := List.nodup_cons.1 hnodup
      obtain ⟨hunseen, hseen⟩ := List.forall_mem_cons.1 hseen
      have hdisjoint : ∀ other ∈ listed, other ∉ field :: seen := by
        intro other hmem hcons
        rcases List.mem_cons.1 hcons with rfl | hold
        · exact hfresh hmem
        · exact hseen other hmem hold
      have hentry := nextEntry_gap '}' (by decide) hgap hquote (by decide)
      have hcolon := readMark_append ':' rfl hbefore
      -- The text ends in front of the member, in its name, in front of its value, or behind that.
      rcases prefix_mark_cases hp with hfront | ⟨q, rfl, hq⟩
      · simp only [Shape.readMembers, hgap.cut '}' (by decide) hfront]
      rcases prefix_mark_cases hq with hfront | ⟨r, rfl, hr⟩
      · simp only [Shape.readMembers, hentry, readQuoted, hkey.cut hfront]
      rcases prefix_mark_cases hr with hfront | ⟨t, rfl, ht⟩
      · simp only [Shape.readMembers, hentry, readQuoted, hkey.reads, hname, if_neg hunseen,
          readMark_blanks (hbefore.cut hfront)]
      simp only [Shape.readMembers, hentry, readQuoted, hkey.reads, hname, if_neg hunseen, hcolon]
      have hends : Json.endsNumeral (more ++ []) = true := hmore.endsNumeral rfl
      rw [List.append_nil] at hends
      rcases brittle.cut lawful h hafter hends current ht with
        hread | ⟨next, u, hu, hlength, hread⟩
      · simp only [hread]
      · simp only [List.length_append, List.length_cons] at hbound
        obtain ⟨bound, rfl⟩ : ∃ more, bound = more + 1 := ⟨bound - 1, by omega⟩
        simp only [hread]
        exact ih hnodup hdisjoint hu (by omega)

/-- A record is not read of less than its text. -/
theorem Layout.cut (lawful : wording.Lawful) (brittle : wording.Brittle)
    (hstrict : wording.lenient = false) (h : wording.Layout record s) (hp : p <+: s) (hne : p ≠ s) :
    shape.read p = .error .truncated := by
  cases h with
  | object hnodup hsilent h =>
      rcases List.prefix_cons_iff.1 hp with rfl | ⟨q, rfl, hq⟩
      · rfl
      rcases prefix_mark_cases hq with hfront | ⟨r, rfl, hr⟩
      · exact h.cut lawful brittle hstrict hnodup (fun _ _ => List.not_mem_nil) hfront
          (Nat.le_refl _)
      · exact absurd (List.prefix_nil.1 hr ▸ rfl) hne
  | array hinit hsilent h =>
      rcases List.prefix_cons_iff.1 hp with rfl | ⟨q, rfl, hq⟩
      · rfl
      rcases prefix_mark_cases hq with hfront | ⟨r, rfl, hr⟩
      · exact h.cut lawful brittle hinit hfront
      · exact absurd (List.prefix_nil.1 hr ▸ rfl) hne

theorem Layout.cutShort (lawful : wording.Lawful) (brittle : wording.Brittle)
    (hstrict : wording.lenient = false) (h : wording.Layout record s) : CutShort shape.read s := by
  intro p hp
  by_cases heq : p = s
  · subst heq
    have hread := h.reads lawful []
    rw [List.append_nil] at hread
    exact .inr ⟨record, hread⟩
  · exact .inl (h.cut lawful brittle hstrict hp heq)

end Wording

end Json

open Json

theorem StateOptions.wording_brittle (lenient : Bool) : (wording lenient).Brittle := by
  intro field value s h options
  cases field with
  | libs =>
      have hcut : CutShort LibSet.read s := Named.cutShort h (LibSet.lookup_name value)
      exact hcut.map fun libs => { options with libs }
  | memoryLimit =>
      cases h
      exact (readUInt64_cutShort value).map fun memoryLimit => { options with memoryLimit }

namespace RawConfig

theorem wording_brittle : (wording false).Brittle := by
  intro field value s h raw
  have hnumber (n : Int64) := readInt64_cutShort n
  cases field with
  | capacity => exact h ▸ (hnumber value).map (raw.put .capacity)
  | seeds => exact h ▸ (hnumber value).map (raw.put .seeds)
  | budget => exact h ▸ (hnumber value).map (raw.put .budget)
  | requestTimeout => exact h ▸ (hnumber value).map (raw.put .requestTimeout)
  | idleTimeout =>
      obtain ⟨body, hquoted, rfl⟩ := h
      exact hquoted.cutShort.map fun text => raw.put .idleTimeout (String.ofList text)
  | stateOptions =>
      have hcut := Wording.Layout.cutShort (StateOptions.wording_lawful false)
        (StateOptions.wording_brittle false) rfl h
      exact hcut.map (raw.put .stateOptions)

/-- No policy is read of the beginnings of its text. -/
theorem ofJson_cut {raw : RawConfig} {s : List Char} (h : (wording false).Layout raw s)
    {text : String} (hp : text.toList <+: s) (hne : text.toList ≠ s) :
    ofJson text = .error .truncated := by
  have hread := h.cut (wording_lawful false) wording_brittle rfl hp hne
  simp only [ofJson, readWhole, hread]

end RawConfig

namespace Config

/-- What is left of the text of a policy when its end is lost is refused as cut off. -/
theorem truncated_refused (raw : RawConfig) (text : String)
    (hinit : text.toList <+: raw.toJson.toList) (hne : text ≠ raw.toJson) :
    ofJson text =
      .error (.configuration "invalid JSON pool config" (some (.document .truncated))) := by
  have hwritten : raw.toJson.toList = raw.write := String.toList_ofList
  have hproper : text.toList ≠ raw.write := fun heq =>
    hne (String.toList_inj.1 (heq.trans hwritten.symm))
  rw [hwritten] at hinit
  simp only [ofJson, RawConfig.ofJson_cut (raw.layout_write false) hinit hproper]

def unsevered : RawConfig where
  capacity := -5
  idleTimeout := "1h\x01"

/-- The end is lost inside the escape of the control character. -/
def severed : String :=
  "\x7b\"max_num\":-5,\"start_num\":1,\"max_request\":0,\"request_terminate_timeout\":120," ++
    "\"idle_timeout\":\"1h\\u00"

theorem severed_refused :
    (severed.toList <+: unsevered.toJson.toList ∧ severed ≠ unsevered.toJson) ∧
      ofJson severed =
        .error (.configuration "invalid JSON pool config" (some (.document .truncated))) := by
  have hcut : severed = String.ofList (unsevered.write.take 98) := by decide +kernel
  have hinit : severed.toList <+: unsevered.toJson.toList := by
    rw [hcut, RawConfig.toJson, String.toList_ofList, String.toList_ofList]
    exact List.take_prefix 98 unsevered.write
  have hne : severed ≠ unsevered.toJson := by decide +kernel
  exact ⟨⟨hinit, hne⟩, truncated_refused unsevered severed hinit hne⟩

end Config

end StatePool
