import StatePool.Config
import StatePool.Proofs.Grammar

/-!
Documents of any layout.

A record is written as an object of some of its fields in any order, among fields of unknown names,
or as an array of the first of them; white space, escapes and nesting are free in both forms.  A
field that is left out holds what it holds in the blank record.  However a policy is laid out, what
is read is that policy.
-/

namespace StatePool

namespace Json

variable {s text rest : List Char}

/-! ### Names -/

/-- The texts of a name: a string, or an object that has it as its one key and null behind it. -/
inductive Named (name : List Char) : List Char → Prop
  | plain {s : List Char} (h : Quoted true name s) : Named name ('"' :: (s ++ ['"']))
  | keyed {before s after ahead behind : List Char} (hbefore : Blanks before)
      (h : Quoted true name s) (hafter : Blanks after) (hahead : Blanks ahead)
      (hbehind : Blanks behind) :
      Named name ('{' :: (before ++ '"' :: (s ++ '"' :: (after ++ ':' ::
        (ahead ++ 'n' :: 'u' :: 'l' :: 'l' :: (behind ++ ['}']))))))

theorem readText_append (h : Blanks s) (rest : List Char) :
    readText (s ++ rest) = readText rest := by
  simp only [readText, skipBlank_append h]

theorem readName_append {α : Type} {names : List (List Char × α)} (h : Blanks s)
    (rest : List Char) : readName names (s ++ rest) = readName names rest := by
  simp only [readName, skipBlank_append h]

theorem readInteger_append {low high : Int} (h : Blanks s) (rest : List Char) :
    readInteger low high (s ++ rest) = readInteger low high rest := by
  simp only [readInteger, skipBlank_append h]

theorem Quoted.readText (h : Quoted true text s) (rest : List Char) :
    Json.readText ('"' :: (s ++ '"' :: rest)) = .ok (text, rest) :=
  h.reads rest

theorem readKeyName_of_quoted {α : Type} {names : List (List Char × α)} {a : α}
    {name before : List Char} (hname : names.lookup name = some a) (hbefore : Blanks before)
    (h : Quoted true name s) (rest : List Char) :
    readKeyName names (before ++ '"' :: (s ++ '"' :: rest)) = .ok (a, rest) := by
  have hquote : isBlank '"' = false := rfl
  simp only [readKeyName, skipBlank_append hbefore, skipBlank_cons hquote, readKnownName,
    h.readText, hname]

theorem Named.readName {α : Type} {names : List (List Char × α)} {a : α} {name : List Char}
    (h : Named name s) (hname : names.lookup name = some a) (rest : List Char) :
    Json.readName names (s ++ rest) = .ok (a, rest) := by
  cases h with
  | @plain s h =>
      have hread := readKeyName_of_quoted hname Blanks.nil h rest
      rw [List.cons_append, List.append_assoc]
      exact hread
  | @keyed before s after ahead behind hbefore h hafter hahead hbehind =>
      have hopen : isBlank '{' = false := rfl
      have hcolon := readMark_append ':' rfl hafter
      have hclose := readMark_append '}' rfl hbehind rest
      have hnull (rest : List Char) :
          readNull (ahead ++ 'n' :: 'u' :: 'l' :: 'l' :: rest) = .ok ((), rest) := by
        simp only [readNull, skipBlank_append hahead]
        rfl
      simp only [List.cons_append, List.append_assoc, List.nil_append, Json.readName,
        skipBlank_cons hopen, readKeyName_of_quoted hname hbefore h, hcolon, hnull, hclose,
        Except.map]

/-! ### Records -/

/-- What the fields of a record hold, and which texts say so. -/
structure Wording {ρ φ : Type} (shape : Shape ρ φ) where
  Value : φ → Type
  get : ρ → (field : φ) → Value field
  Says : (field : φ) → Value field → List Char → Prop
  /-- Whether fields of unknown names may stand among those of the record. -/
  lenient : Bool

namespace Wording

variable {ρ φ : Type} {shape : Shape ρ φ}

/-- What is left of an object, be it from its first member on or behind others, with the fields of
the record that it lists. -/
inductive Members (wording : Wording shape) (record : ρ) : Bool → List φ → List Char → Prop
  | none {first : Bool} {s : List Char} (h : Blanks s) : Members wording record first [] s
  | field {first : Bool} {field : φ} {listed : List φ}
      {gap name key before after s more : List Char} (hgap : Gap first gap)
      (hname : shape.fields.lookup name = some field) (hkey : Quoted true name key)
      (hbefore : Blanks before) (hafter : Blanks after)
      (h : wording.Says field (wording.get record field) s)
      (hmore : Members wording record false listed more) :
      Members wording record first (field :: listed)
        (gap ++ '"' :: (key ++ '"' :: (before ++ ':' :: (after ++ (s ++ more)))))
  | unknown {first : Bool} {listed : List φ}
      {gap name key before after s more : List Char} (hlenient : wording.lenient = true)
      (hgap : Gap first gap)
      (hname : shape.fields.lookup name = Option.none) (hkey : Quoted true name key)
      (hbefore : Blanks before) (hafter : Blanks after) (h : Phrase .value s)
      (hmore : Members wording record false listed more) :
      Members wording record first listed
        (gap ++ '"' :: (key ++ '"' :: (before ++ ':' :: (after ++ (s ++ more)))))

/-- What is left of an array, with the fields of the record that its items are. -/
inductive Items (wording : Wording shape) (record : ρ) : Bool → List φ → List Char → Prop
  | none {first : Bool} {s : List Char} (h : Blanks s) : Items wording record first [] s
  | item {first : Bool} {field : φ} {listed : List φ} {gap s more : List Char}
      (hgap : Gap first gap) (h : wording.Says field (wording.get record field) s)
      (hmore : Items wording record false listed more) :
      Items wording record first (field :: listed) (gap ++ (s ++ more))

/-- The record holds in these fields what it holds when nothing is said about them. -/
def Silent (wording : Wording shape) (record : ρ) (listed : List φ) : Prop :=
  ∀ field, field ∉ listed → wording.get record field = wording.get shape.blank field

/-- The texts of a record. -/
inductive Layout (wording : Wording shape) (record : ρ) : List Char → Prop
  | object {listed : List φ} {s : List Char} (hnodup : listed.Nodup)
      (hsilent : wording.Silent record listed) (h : wording.Members record true listed s) :
      Layout wording record ('{' :: (s ++ ['}']))
  | array {listed : List φ} {s : List Char} (hinit : listed <+: shape.fields.map Prod.snd)
      (hsilent : wording.Silent record listed) (h : wording.Items record true listed s) :
      Layout wording record ('[' :: (s ++ [']']))

/-- Each field is read from the texts that say what it holds, and the others are left alone. -/
structure Lawful (wording : Wording shape) : Prop where
  ext : ∀ record other, (∀ field, wording.get record field = wording.get other field) →
    record = other
  blanks : ∀ field record s rest, Blanks s →
    shape.readField field record (s ++ rest) = shape.readField field record rest
  reads : ∀ field value s, wording.Says field value s → ∀ record rest, endsNumeral rest = true →
    ∃ next, shape.readField field record (s ++ rest) = .ok (next, rest) ∧
      wording.get next field = value ∧
      ∀ other, other ≠ field → wording.get next other = wording.get record other
  starts : ∀ field value s, wording.Says field value s →
    ∃ c tail, s = c :: tail ∧ isBlank c = false ∧ c ≠ ']'

variable {wording : Wording shape} {record current next : ρ} {listed seen : List φ} {first : Bool}

theorem Members.endsNumeral (h : wording.Members record false listed s)
    (hrest : Json.endsNumeral rest = true) : Json.endsNumeral (s ++ rest) = true := by
  cases h with
  | none hblanks => exact hblanks.endsNumeral hrest
  | field hgap =>
      rw [List.append_assoc]
      exact hgap.endsNumeral _
  | unknown _ hgap =>
      rw [List.append_assoc]
      exact hgap.endsNumeral _

theorem Items.endsNumeral (h : wording.Items record false listed s)
    (hrest : Json.endsNumeral rest = true) : Json.endsNumeral (s ++ rest) = true := by
  cases h with
  | none hblanks => exact hblanks.endsNumeral hrest
  | item hgap =>
      rw [List.append_assoc]
      exact hgap.endsNumeral _

variable [DecidableEq φ]

/-- A reader has filled in some fields of a record. -/
def Agrees (wording : Wording shape) (record : ρ) (seen : List φ) (current : ρ) : Prop :=
  ∀ field, wording.get current field =
    if field ∈ seen then wording.get record field else wording.get shape.blank field

theorem Agrees.filled (agrees : wording.Agrees record seen current) {field : φ}
    (hfield : wording.get next field = wording.get record field)
    (hother : ∀ other, other ≠ field → wording.get next other = wording.get current other) :
    wording.Agrees record (field :: seen) next := by
  intro other
  by_cases heq : other = field
  · subst heq
    simp only [List.mem_cons_self, ↓reduceIte, hfield]
  · simp only [hother other heq, agrees other, List.mem_cons, heq, false_or]

theorem Agrees.eq (lawful : wording.Lawful)
    (agrees : wording.Agrees record (listed.reverse ++ []) next)
    (hsilent : wording.Silent record listed) : next = record := by
  refine lawful.ext next record fun field => ?_
  rw [agrees field, List.append_nil]
  split
  · rfl
  · next hlisted => exact (hsilent field (fun h => hlisted (List.mem_reverse.2 h))).symm

theorem Members.reads (lawful : wording.Lawful) (h : wording.Members record first listed s)
    (hnodup : listed.Nodup) (hseen : ∀ field ∈ listed, field ∉ seen)
    (agrees : wording.Agrees record seen current) {bound : Nat} (hbound : s.length < bound)
    (rest : List Char) :
    ∃ last, shape.readMembers bound seen current first (s ++ '}' :: rest) = .ok (last, rest) ∧
      wording.Agrees record (listed.reverse ++ seen) last := by
  have hquote : isBlank '"' = false := rfl
  -- Each member has a text of its own, so the bound lasts to the end.
  induction h generalizing seen current bound with
  | none hblanks =>
      obtain ⟨bound, rfl⟩ := Nat.exists_eq_add_of_lt hbound
      refine ⟨current, ?_, agrees⟩
      simp only [Shape.readMembers, nextEntry_close '}' rfl _ hblanks]
  | @field first field listed gap name key before after s more hgap hname hkey hbefore hafter h
      hmore ih =>
      cases bound with
      | zero => cases hbound
      | succ bound =>
          obtain ⟨hfresh, hnodup⟩ := List.nodup_cons.1 hnodup
          obtain ⟨hunseen, hseen⟩ := List.forall_mem_cons.1 hseen
          have hfollowing : Json.endsNumeral (more ++ '}' :: rest) = true := hmore.endsNumeral rfl
          have hleft : more.length < bound := by
            simp only [List.length_append, List.length_cons] at hbound
            omega
          obtain ⟨next, hread, hfield, hother⟩ := lawful.reads field _ s h current _ hfollowing
          have hdisjoint : ∀ other ∈ listed, other ∉ field :: seen := by
            intro other hmem hcons
            rcases List.mem_cons.1 hcons with rfl | hold
            · exact hfresh hmem
            · exact hseen other hmem hold
          obtain ⟨last, hlast, hagrees⟩ := ih hnodup hdisjoint (agrees.filled hfield hother) hleft
          refine ⟨last, ?_, by simpa using hagrees⟩
          have hentry := nextEntry_gap '}' (by decide) hgap hquote (by decide)
          simp only [List.append_assoc, List.cons_append, Shape.readMembers, hentry, readQuoted,
            hkey.reads, hname, if_neg hunseen, readMark_append ':' rfl hbefore,
            lawful.blanks _ _ _ _ hafter, hread]
          exact hlast
  | @unknown first listed gap name key before after s more _ hgap hname hkey hbefore hafter h
      hmore ih =>
      cases bound with
      | zero => cases hbound
      | succ bound =>
          have hfollowing : Json.endsNumeral (more ++ '}' :: rest) = true := hmore.endsNumeral rfl
          have hleft : more.length < bound := by
            simp only [List.length_append, List.length_cons] at hbound
            omega
          obtain ⟨last, hlast, hagrees⟩ := ih hnodup hseen agrees hleft
          refine ⟨last, ?_, hagrees⟩
          have hentry := nextEntry_gap '}' (by decide) hgap hquote (by decide)
          simp only [List.append_assoc, List.cons_append, Shape.readMembers, hentry, readQuoted,
            hkey.reads, hname, readMark_append ':' rfl hbefore,
            h.skip hafter hfollowing]
          exact hlast

theorem Items.reads (lawful : wording.Lawful) (h : wording.Items record first listed s)
    {fields : List (List Char × φ)} (hinit : listed <+: fields.map Prod.snd)
    (agrees : wording.Agrees record seen current) (rest : List Char) :
    ∃ last, shape.readItems fields current first (s ++ ']' :: rest) = .ok (last, rest) ∧
      wording.Agrees record (listed.reverse ++ seen) last := by
  induction h generalizing seen current fields with
  | none hblanks =>
      refine ⟨current, ?_, agrees⟩
      cases fields with
      | nil =>
          simp only [Shape.readItems, readMark_append ']' rfl hblanks, Except.map]
      | cons field fields =>
          simp only [Shape.readItems, nextEntry_close ']' rfl _ hblanks]
  | @item first field listed gap s more hgap h hmore ih =>
      obtain ⟨entry, fields, rfl⟩ : ∃ entry later, fields = entry :: later := by
        cases fields with
        | nil => simp at hinit
        | cons entry later => exact ⟨entry, later, rfl⟩
      rw [List.map_cons, List.cons_prefix_cons] at hinit
      obtain ⟨rfl, hinit⟩ := hinit
      have hfollowing : Json.endsNumeral (more ++ ']' :: rest) = true := hmore.endsNumeral rfl
      obtain ⟨next, hread, hfield, hother⟩ := lawful.reads entry.2 _ s h current _ hfollowing
      obtain ⟨last, hlast, hagrees⟩ := ih hinit (agrees.filled hfield hother)
      refine ⟨last, ?_, by simpa using hagrees⟩
      obtain ⟨c, tail, rfl, hblank, hclose⟩ := lawful.starts entry.2 _ s h
      have hentry := nextEntry_gap ']' (by decide) hgap hblank hclose
      simp only [List.append_assoc, List.cons_append] at hread ⊢
      simp only [Shape.readItems, hentry, hread]
      exact hlast

/-- A record is read from each of its texts. -/
theorem Layout.reads (lawful : wording.Lawful) (h : wording.Layout record s) (rest : List Char) :
    shape.read (s ++ rest) = .ok (record, rest) := by
  have hblank : wording.Agrees record [] shape.blank := fun _ => rfl
  cases h with
  | @object listed s hnodup hsilent h =>
      have hbound : s.length < (s ++ '}' :: rest).length + 1 := by
        simp only [List.length_append]
        omega
      obtain ⟨last, hread, hagrees⟩ :=
        h.reads lawful hnodup (fun _ _ => List.not_mem_nil) hblank hbound rest
      rw [hagrees.eq lawful hsilent] at hread
      rw [List.cons_append, List.append_assoc]
      exact hread
  | @array listed s hinit hsilent h =>
      obtain ⟨last, hread, hagrees⟩ := h.reads lawful hinit hblank rest
      rw [hagrees.eq lawful hsilent] at hread
      rw [List.cons_append, List.append_assoc]
      exact hread

end Wording

theorem Shape.read_append {ρ φ : Type} [DecidableEq φ] {shape : Shape ρ φ} (h : Blanks s)
    (rest : List Char) : shape.read (s ++ rest) = shape.read rest := by
  simp only [Shape.read, skipBlank_append h]

theorem Wording.Layout.exists_cons {ρ φ : Type} {shape : Shape ρ φ} {wording : Wording shape}
    {record : ρ} (h : wording.Layout record s) :
    ∃ c tail, s = c :: tail ∧ isBlank c = false ∧ c ≠ ']' := by
  cases h with
  | object => exact ⟨'{', _, rfl, by decide⟩
  | array => exact ⟨'[', _, rfl, by decide⟩

/-! ### Records as they are written -/

/-- The text of members behind others. -/
def writeFollowing : List (List Char × List Char) → List Char
  | [] => []
  | members => ',' :: writeMembers members

/-- The text of members, first in their object or behind others. -/
def writeEntries (first : Bool) (members : List (List Char × List Char)) : List Char :=
  if first then writeMembers members else writeFollowing members

/-- Nothing but a comma stands between two members. -/
theorem writeEntries_cons (first : Bool) (name value : List Char)
    (members : List (List Char × List Char)) :
    ∃ gap, Gap first gap ∧ writeEntries first ((name, value) :: members) =
      gap ++ '"' :: (name.flatMap escapeChar ++ '"' :: ([] ++ ':' :: ([] ++
        (value ++ writeEntries false members)))) := by
  have hmembers : writeMembers ((name, value) :: members) =
      '"' :: (name.flatMap escapeChar ++ '"' :: ':' :: (value ++ writeFollowing members)) := by
    cases members <;> simp [writeMembers, writeFollowing, writeMember, quote]
  cases first with
  | true => exact ⟨[], .first Blanks.nil, hmembers⟩
  | false => exact ⟨[','], .next Blanks.nil Blanks.nil, congrArg (List.cons ',') hmembers⟩

namespace Wording

variable {ρ φ : Type} {shape : Shape ρ φ} {wording : Wording shape} {record : ρ}
  {listed : List φ} {first : Bool} {name value : List Char}
  {members : List (List Char × List Char)}

theorem Members.written {field : φ} (hname : shape.fields.lookup name = some field)
    (h : wording.Says field (wording.get record field) value)
    (hmore : wording.Members record false listed (writeEntries false members)) :
    wording.Members record first (field :: listed)
      (writeEntries first ((name, value) :: members)) := by
  obtain ⟨gap, hgap, heq⟩ := writeEntries_cons first name value members
  rw [heq]
  exact .field hgap hname (quoted_flatMap_escapeChar true name) Blanks.nil Blanks.nil h hmore

theorem Members.writtenUnknown (hlenient : wording.lenient = true)
    (hname : shape.fields.lookup name = Option.none) (h : Phrase .value value)
    (hmore : wording.Members record false listed (writeEntries false members)) :
    wording.Members record first listed (writeEntries first ((name, value) :: members)) := by
  obtain ⟨gap, hgap, heq⟩ := writeEntries_cons first name value members
  rw [heq]
  exact .unknown hlenient hgap hname (quoted_flatMap_escapeChar true name) Blanks.nil Blanks.nil h
    hmore

end Wording

end Json

open Json

theorem LibSet.lookup_name (libs : LibSet) :
    (LibSet.all.map fun libs => (libs.name.toList, libs)).lookup libs.name.toList = some libs := by
  cases libs <;> decide

namespace StateOptions

/-- The set of libraries goes by its name, and a number has one text. -/
def wording (lenient : Bool) : Wording shape where
  lenient
  Value
    | .libs => LibSet
    | .memoryLimit => UInt64
  get
    | options, .libs => options.libs
    | options, .memoryLimit => options.memoryLimit
  Says
    | .libs, libs, s => Named libs.name.toList s
    | .memoryLimit, n, s => s = writeNat n.toNat

theorem wording_lawful (lenient : Bool) : (wording lenient).Lawful where
  ext := by
    intro options other h
    obtain ⟨libs, memoryLimit⟩ := options
    obtain rfl : libs = other.libs := h .libs
    obtain rfl : memoryLimit = other.memoryLimit := h .memoryLimit
    rfl
  blanks := by
    intro field options s rest hblanks
    cases field with
    | libs => exact congrArg (Except.map _) (readName_append hblanks rest)
    | memoryLimit => simp only [shape, readUInt64, readInteger_append hblanks]
  reads := by
    intro field value s h options rest hrest
    cases field with
    | libs =>
        have hread : LibSet.read (s ++ rest) = .ok (value, rest) :=
          Named.readName h (LibSet.lookup_name value) rest
        refine ⟨{ options with libs := value }, congrArg (Except.map _) hread, rfl, ?_⟩
        rintro (_ | _) hother
        · exact absurd rfl hother
        · rfl
    | memoryLimit =>
        cases h
        refine ⟨{ options with memoryLimit := value },
          congrArg (Except.map _) (readUInt64_writeNat value hrest), rfl, ?_⟩
        rintro (_ | _) hother
        · rfl
        · exact absurd rfl hother
  starts := by
    intro field value s h
    cases field with
    | libs =>
        cases h with
        | plain => exact ⟨'"', _, rfl, by decide⟩
        | keyed => exact ⟨'{', _, rfl, by decide⟩
    | memoryLimit =>
        obtain ⟨c, digits, heq, hstart⟩ := toDigits_eq_cons value.toNat
        refine ⟨c, digits, h.trans heq, isBlank_of_numeral (.inr hstart), ?_⟩
        rintro rfl
        cases hstart

theorem layout_write (lenient : Bool) (options : StateOptions) :
    (wording lenient).Layout options options.write := by
  have hmembers : (wording lenient).Members options true [.libs, .memoryLimit] (writeEntries true
      [("libs".toList, quote options.libs.name.toList),
        ("memory_limit".toList, writeNat options.memoryLimit.toNat)]) := by
    refine .written (by decide) (Named.plain (quoted_flatMap_escapeChar true _)) ?_
    exact .written (by decide) rfl (.none Blanks.nil)
  refine .object (by decide) ?_ hmembers
  rintro (_ | _) h <;> simp at h

end StateOptions

namespace RawConfig

/-- What a field holds. -/
def Field.Value : Field → Type
  | .capacity | .seeds | .budget | .requestTimeout => Int64
  | .idleTimeout => String
  | .stateOptions => StateOptions

def get (raw : RawConfig) : (field : Field) → field.Value
  | .capacity => raw.capacity
  | .seeds => raw.seeds
  | .budget => raw.budget
  | .requestTimeout => raw.requestTimeout
  | .idleTimeout => raw.idleTimeout
  | .stateOptions => raw.stateOptions

/-- The policy with another value in one field. -/
def put (raw : RawConfig) : (field : Field) → field.Value → RawConfig
  | .capacity, n => { raw with capacity := n }
  | .seeds, n => { raw with seeds := n }
  | .budget, n => { raw with budget := n }
  | .requestTimeout, n => { raw with requestTimeout := n }
  | .idleTimeout, text => { raw with idleTimeout := text }
  | .stateOptions, options => { raw with stateOptions := options }

theorem get_put (raw : RawConfig) (field : Field) (value : field.Value) :
    (raw.put field value).get field = value := by
  cases field <;> rfl

theorem get_put_of_ne (raw : RawConfig) {field other : Field} (value : field.Value)
    (h : other ≠ field) : (raw.put field value).get other = raw.get other := by
  cases field <;> cases other <;> first | rfl | exact absurd rfl h

def wording (lenient : Bool) : Wording shape where
  Value := Field.Value
  get := get
  Says
    | .capacity, n, s | .seeds, n, s | .budget, n, s | .requestTimeout, n, s =>
        s = writeInt (Int64.toInt n)
    | .idleTimeout, text, s =>
        ∃ body, Quoted true (String.toList text) body ∧ s = '"' :: (body ++ ['"'])
    | .stateOptions, options, s => (StateOptions.wording lenient).Layout options s
  lenient

theorem readField_says {lenient : Bool} {field : Field} {value : field.Value} {s rest : List Char}
    (h : (wording lenient).Says field value s) (raw : RawConfig) (hrest : endsNumeral rest = true) :
    shape.readField field raw (s ++ rest) = .ok (raw.put field value, rest) := by
  have hnumber (n : Int64) : readInt64 (writeInt n.toInt ++ rest) = .ok (n, rest) :=
    readInt64_writeInt n hrest
  cases field with
  | capacity => exact h ▸ congrArg (Except.map _) (hnumber value)
  | seeds => exact h ▸ congrArg (Except.map _) (hnumber value)
  | budget => exact h ▸ congrArg (Except.map _) (hnumber value)
  | requestTimeout => exact h ▸ congrArg (Except.map _) (hnumber value)
  | idleTimeout =>
      obtain ⟨body, hquoted, rfl⟩ := h
      have hread := hquoted.readText rest
      have htext : String.ofList (String.toList value) = value := String.ofList_toList
      simp only [shape, List.cons_append, List.append_assoc, List.nil_append, hread, Except.map,
        htext]
      rfl
  | stateOptions =>
      have hread := Wording.Layout.reads (StateOptions.wording_lawful lenient) h rest
      exact congrArg (Except.map _) hread

theorem wording_lawful (lenient : Bool) : (wording lenient).Lawful where
  ext := by
    intro raw other h
    obtain ⟨capacity, seeds, budget, requestTimeout, idleTimeout, stateOptions⟩ := raw
    obtain rfl : capacity = other.capacity := h .capacity
    obtain rfl : seeds = other.seeds := h .seeds
    obtain rfl : budget = other.budget := h .budget
    obtain rfl : requestTimeout = other.requestTimeout := h .requestTimeout
    obtain rfl : idleTimeout = other.idleTimeout := h .idleTimeout
    obtain rfl : stateOptions = other.stateOptions := h .stateOptions
    rfl
  blanks := by
    intro field raw s rest hblanks
    cases field <;>
      simp only [shape, readInt64, readInteger_append hblanks, readText_append hblanks,
        Shape.read_append hblanks]
  reads := by
    intro field value s h raw rest hrest
    exact ⟨raw.put field value, readField_says h raw hrest, raw.get_put field value,
      fun _ => raw.get_put_of_ne value⟩
  starts := by
    intro field value s h
    cases field with
    | idleTimeout =>
        obtain ⟨body, -, rfl⟩ := h
        exact ⟨'"', _, rfl, by decide⟩
    | stateOptions => exact h.exists_cons
    | _ =>
        obtain ⟨c, digits, heq, hstart⟩ := writeInt_eq_cons (Int64.toInt value)
        refine ⟨c, digits, h.trans heq, isBlank_of_numeral hstart, ?_⟩
        rintro rfl
        simp at hstart

/-- The documents of a policy. -/
inductive Document (raw : RawConfig) : List Char → Prop
  | mk {before s after : List Char} (hbefore : Blanks before) (h : (wording true).Layout raw s)
      (hafter : Blanks after) : Document raw (before ++ (s ++ after))

theorem Document.ofJson {raw : RawConfig} {text : String} (h : raw.Document text.toList) :
    RawConfig.ofJson text = .ok raw := by
  unfold RawConfig.ofJson
  generalize text.toList = s at h
  obtain ⟨hbefore, h, hafter⟩ := h
  have hend := skipBlank_append hafter []
  rw [List.append_nil] at hend
  simp only [readWhole, Shape.read_append hbefore, h.reads (wording_lawful true), hend]
  rfl

theorem layout_write (lenient : Bool) (raw : RawConfig) :
    (wording lenient).Layout raw raw.write := by
  have hmembers : (wording lenient).Members raw true
      [.capacity, .seeds, .budget, .requestTimeout, .idleTimeout, .stateOptions] (writeEntries true
      [("max_num".toList, writeInt raw.capacity.toInt),
        ("start_num".toList, writeInt raw.seeds.toInt),
        ("max_request".toList, writeInt raw.budget.toInt),
        ("request_terminate_timeout".toList, writeInt raw.requestTimeout.toInt),
        ("idle_timeout".toList, quote raw.idleTimeout.toList),
        ("state_options".toList, raw.stateOptions.write)]) := by
    refine .written (by decide) rfl (.written (by decide) rfl ?_)
    refine .written (by decide) rfl (.written (by decide) rfl ?_)
    refine .written (by decide) ⟨_, quoted_flatMap_escapeChar true _, rfl⟩ ?_
    exact .written (by decide) (raw.stateOptions.layout_write lenient) (.none Blanks.nil)
  refine .object (by decide) ?_ hmembers
  rintro (_ | _ | _ | _ | _ | _) h <;> simp at h

/-- What is written for a policy is one of its documents. -/
theorem document_toJson (raw : RawConfig) : raw.Document raw.toJson.toList := by
  have h := Document.mk Blanks.nil (raw.layout_write true) Blanks.nil
  rwa [List.nil_append, List.append_nil, ← String.toList_ofList (l := raw.write)] at h

end RawConfig

namespace Config

/-- However a policy is laid out, its document is read as that policy. -/
theorem layout_immaterial (raw : RawConfig) :
    raw.Document raw.toJson.toList ∧
      ∀ text : String, raw.Document text.toList → ofJson text = ofRaw raw := by
  refine ⟨raw.document_toJson, fun text h => ?_⟩
  simp only [ofJson, h.ofJson]

/-- Fields of unknown names, escapes and white space; one field lies in an array. -/
def scattered : String :=
  " \x7b\"z\" :[\x7b\"max_num\":-1.5E+9\x7d,\"\\ud800\"] ,\"state_options\":\n" ++
    "[\x7b\"minimal\":null\x7d],\"idle_timeout\":\"\\u002b3m\",\"\\u006dax_num\":-5\x7d\t"

def gathered : RawConfig where
  capacity := -5
  idleTimeout := "+3m"
  stateOptions := { libs := .minimal }

set_option maxRecDepth 1500 in
theorem document_scattered : gathered.Document scattered.toList := by
  have hplain (strict : Bool) (name : String) := quoted_flatMap_escapeChar strict name.toList
  have hblank {c : Char} (h : isBlank c = true) : Blanks [c] := by simpa [Blanks] using h
  have hnumber : Number (['-'] ++ (['1'] ++ (['.', '5'] ++ ['E', '+', '9']))) :=
    .mk (.inr rfl) (.nonzero (.singleton rfl) (by decide)) (.point (.singleton rfl))
      (.power (.inr rfl) (.inr (.inl rfl)) (.singleton rfl))
  have hlone : Quoted false _ _ :=
    .numeric (.mk (a := 'd') (b := '8') (c := '0') (d := '0') rfl rfl rfl rfl) nofun .nil
  have hunknown : Phrase .value _ :=
    .array (.item (.first Blanks.nil)
      (.object (.member (.first Blanks.nil) (hplain false "max_num") Blanks.nil Blanks.nil
        (.number hnumber) (.noMember Blanks.nil)))
      (.item (.next Blanks.nil Blanks.nil) (.string hlone) (.noItem Blanks.nil)))
  have hlibs : Named LibSet.minimal.name.toList _ :=
    .keyed Blanks.nil (hplain true "minimal") Blanks.nil Blanks.nil Blanks.nil
  have hitems : (StateOptions.wording true).Items gathered.stateOptions true [.libs] _ :=
    .item (.first Blanks.nil) hlibs (.none Blanks.nil)
  have hoptions : (StateOptions.wording true).Layout gathered.stateOptions _ :=
    .array ⟨[.memoryLimit], rfl⟩ (by rintro (_ | _) h <;> first | rfl | simp at h) hitems
  have hplus : Quoted true gathered.idleTimeout.toList _ :=
    .numeric (.mk (a := '0') (b := '0') (c := '2') (d := 'b') rfl rfl rfl rfl)
      (fun _ => ⟨rfl, rfl⟩) (hplain true "3m")
  have hname : Quoted true "max_num".toList _ :=
    .numeric (.mk (a := '0') (b := '0') (c := '6') (d := 'd') rfl rfl rfl rfl)
      (fun _ => ⟨rfl, rfl⟩) (hplain true "ax_num")
  have hcapacity : (RawConfig.wording true).Members gathered false [.capacity] _ :=
    .field (.next Blanks.nil Blanks.nil) (by decide) hname Blanks.nil Blanks.nil rfl
      (.none Blanks.nil)
  have htimeout : (RawConfig.wording true).Members gathered false [.idleTimeout, .capacity] _ :=
    .field (.next Blanks.nil Blanks.nil) (by decide) (hplain true "idle_timeout") Blanks.nil
      Blanks.nil ⟨_, hplus, rfl⟩ hcapacity
  have hfield : (RawConfig.wording true).Members gathered false
      [.stateOptions, .idleTimeout, .capacity] _ :=
    .field (.next (hblank (c := ' ') rfl) Blanks.nil) (by decide) (hplain true "state_options")
      Blanks.nil (hblank (c := '\n') rfl) hoptions htimeout
  have hmembers : (RawConfig.wording true).Members gathered true
      [.stateOptions, .idleTimeout, .capacity] _ :=
    .unknown rfl (.first Blanks.nil) (by decide) (hplain true "z") (hblank (c := ' ') rfl)
      Blanks.nil hunknown hfield
  have hsilent :
      (RawConfig.wording true).Silent gathered [.stateOptions, .idleTimeout, .capacity] := by
    rintro (_ | _ | _ | _ | _ | _) h <;> first | rfl | simp at h
  have hdocument := RawConfig.Document.mk (hblank (c := ' ') rfl)
    (.object (by decide) hsilent hmembers) (hblank (c := '\t') rfl)
  have htext {s : List Char} (h : gathered.Document s) (heq : scattered = String.ofList s) :
      gathered.Document scattered.toList := by
    rw [heq, String.toList_ofList]
    exact h
  exact htext hdocument rfl

theorem scattered_immaterial :
    gathered.Document scattered.toList ∧ ofJson scattered = ofRaw gathered ∧
      ofRaw gathered = .ok {
        capacity := 0
        seeds := 1
        budget := 0
        idleTimeout := "3m"
        idleSeconds := 180
        requestTimeout := 120
        stateOptions := { libs := .minimal } } := by
  have hread : IdleTimeout.read gathered.idleTimeout = .ok ⟨3, .minutes⟩ := rfl
  refine ⟨document_scattered, (layout_immaterial gathered).2 scattered document_scattered, ?_⟩
  simp only [ofRaw, ofPolicy, hread, Except.ok.injEq]
  decide

end Config

end StatePool
