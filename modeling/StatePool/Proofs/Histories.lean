import Mathlib.Data.List.Induction
import Mathlib.Logic.Relation
import StatePool.Proofs.Annals
import StatePool.Proofs.Tables

/-!
What the contexts of a caller are after a history of steps.

The history alone tells which token was derived from which, which ones were cancelled, and what was
written to a context since it was made.  Whether others are still held is of no account: a token
hears of those above it through tokens that nobody holds any more.
-/

namespace StatePool

open Relation

theorem Context.lookup_label (context : Context) (key value other : String) :
    (context.label key value).labels.lookup other =
      if other = key then some value else context.labels.lookup other := by
  rw [label, lookup_cons_ite, lookup_filter_ne]
  split <;> rfl

namespace ContextBook

variable {book : ContextBook} {action : ContextAction} {actions since : List ContextAction}
  {name key : String} {context : Context} {token parent other : Token}
  {snapshot : List (String × String)}

theorem get?_hold (book : ContextBook) (name other : String) (context : Context) :
    (book.hold name context).get? other =
      if other = name then some context else book.get? other := by
  rw [get?, hold, lookup_cons_ite, lookup_filter_ne]
  split <;> rfl

@[simp] theorem get?_hold_self (book : ContextBook) (name : String) (context : Context) :
    (book.hold name context).get? name = some context := by
  rw [get?_hold, if_pos rfl]

theorem get?_drop (book : ContextBook) (name other : String) :
    (book.apply (.drop name)).get? other = if other = name then none else book.get? other :=
  lookup_filter_ne book.named name other

/-! ### Histories -/

/-- The book of a caller after some steps, who had no context at first. -/
def run (actions : List ContextAction) : ContextBook :=
  actions.foldl apply {}

theorem run_concat (actions : List ContextAction) (action : ContextAction) :
    run (actions ++ [action]) = (run actions).apply action := by
  rw [run, List.foldl_append]
  rfl

/-- Some step was like this, in the book as it stood in front of it. -/
def Ever (P : ContextBook → ContextAction → Prop) (actions : List ContextAction) : Prop :=
  ∃ before action after, actions = before ++ action :: after ∧ P (run before) action

theorem not_ever_nil (P : ContextBook → ContextAction → Prop) : ¬ Ever P [] := by
  rintro ⟨before, action, after, heq, -⟩
  simp at heq

theorem ever_concat {P : ContextBook → ContextAction → Prop} :
    Ever P (actions ++ [action]) ↔ Ever P actions ∨ P (run actions) action := by
  constructor
  · rintro ⟨before, step, after, heq, h⟩
    rcases List.eq_nil_or_concat after with rfl | ⟨front, last, rfl⟩
    · obtain ⟨rfl, hstep⟩ := List.append_inj' heq rfl
      cases hstep
      exact .inr h
    · have heq' : actions ++ [action] = (before ++ step :: front) ++ [last] := by
        simpa using heq
      obtain ⟨rfl, -⟩ := List.append_inj' heq' rfl
      exact .inl ⟨before, step, front, rfl, h⟩
  · rintro (⟨before, step, after, rfl, h⟩ | h)
    · exact ⟨before, step, after ++ [action], by simp, h⟩
    · exact ⟨actions, action, [], rfl, h⟩

theorem orderly_run (actions : List ContextAction) : (run actions).Orderly := by
  induction actions using List.reverseRecOn with
  | nil => exact orderly_empty
  | append_singleton actions action ih =>
      rw [run_concat]
      exact ih.apply action

theorem extends_run {early : List ContextAction} (h : early <+: actions) :
    (run early).tokens.Extends (run actions).tokens := by
  obtain ⟨later, rfl⟩ := h
  induction later using List.reverseRecOn with
  | nil =>
      rw [List.append_nil]
      exact .refl _
  | append_singleton later action ih =>
      rw [← List.append_assoc, run_concat]
      exact ih.trans (apply_tended _ action).extends

/-! ### Tokens of contexts -/

/-- The step gives the context of a name a token that nobody has had. -/
inductive Mints (book : ContextBook) : ContextAction → String → Prop
  | create {name id : String} : Mints book (.create name id) name
  | child {name source id : String} {parent : Context} (h : book.get? source = some parent) :
      Mints book (.child name source id) name
  | adoptChild {name source : String} {context parent : Context}
      (hname : book.get? name = some context) (h : book.get? source = some parent) :
      Mints book (.adoptChild name source) name
  | renew {name : String} {context : Context} (hname : book.get? name = some context) :
      Mints book (.renew name) name

/-- The step gives the context of a name the token of another context. -/
inductive Shares (book : ContextBook) : ContextAction → String → Context → Prop
  | clone {name source : String} {original : Context} (h : book.get? source = some original) :
      Shares book (.clone name source) name original
  | adopt {name source : String} {context original : Context}
      (hname : book.get? name = some context) (h : book.get? source = some original) :
      Shares book (.adopt name source) name original

theorem Mints.fresh (h : Mints book action name) :
    ∃ context, (book.apply action).get? name = some context ∧ ¬ book.tokens.Has context.token := by
  have hnew := book.tokens.not_has_size
  cases h with
  | create => exact ⟨_, get?_hold_self _ _ _, hnew⟩
  | child h =>
      simp only [apply, h]
      exact ⟨_, get?_hold_self _ _ _, hnew⟩
  | adoptChild hname h =>
      simp only [apply, hname, h]
      exact ⟨_, get?_hold_self _ _ _, hnew⟩
  | renew hname =>
      simp only [apply, hname]
      exact ⟨_, get?_hold_self _ _ _, hnew⟩

theorem Shares.token_eq {original : Context} (h : Shares book action name original) :
    ∃ context, (book.apply action).get? name = some context ∧ context.token = original.token := by
  cases h with
  | clone h =>
      simp only [apply, h]
      exact ⟨_, get?_hold_self _ _ _, rfl⟩
  | adopt hname h =>
      simp only [apply, hname, h]
      exact ⟨_, get?_hold_self _ _ _, rfl⟩

/-- The step derives a token from another. -/
inductive Sires (book : ContextBook) : ContextAction → Token → Token → Prop
  | child {name source id : String} {parent context : Context}
      (h : book.get? source = some parent)
      (hmade : (book.apply (.child name source id)).get? name = some context) :
      Sires book (.child name source id) parent.token context.token
  | adoptChild {name source : String} {former parent context : Context}
      (hname : book.get? name = some former) (h : book.get? source = some parent)
      (hmade : (book.apply (.adoptChild name source)).get? name = some context) :
      Sires book (.adoptChild name source) parent.token context.token

/-- The step cancels a token. -/
inductive Strikes (book : ContextBook) : ContextAction → Token → Prop
  | cancel {name : String} {context : Context} (h : book.get? name = some context) :
      Strikes book (.cancel name) context.token

/-- The one token was derived from the other. -/
def Derives (actions : List ContextAction) (parent token : Token) : Prop :=
  Ever (fun book action => Sires book action parent token) actions

/-- A context with this token was cancelled. -/
def Cancels (actions : List ContextAction) (token : Token) : Prop :=
  Ever (fun book action => Strikes book action token) actions

/-! ### Who is below whom -/

theorem parent?_child_iff (forest : TokenForest) (source : Token) :
    (forest.child source).2.parent? token = some parent ↔
      forest.parent? token = some parent ∨ source = parent ∧ token = (forest.child source).1 := by
  rw [TokenForest.parent?_child]
  split
  · next heq =>
      subst heq
      have hnone : forest.parent? (forest.child source).1 ≠ some parent :=
        fun h => forest.not_has_size (TokenForest.has_of_parent? h)
      simp [hnone]
  · next hne => simp [hne]

theorem parent?_apply (book : ContextBook) (action : ContextAction) :
    (book.apply action).tokens.parent? token = some parent ↔
      book.tokens.parent? token = some parent ∨ Sires book action parent token := by
  have hidle (hnone : ¬ Sires book action parent token)
      (hsame : (book.apply action).tokens.parent? token = book.tokens.parent? token) :
      (book.apply action).tokens.parent? token = some parent ↔
        book.tokens.parent? token = some parent ∨ Sires book action parent token := by
    rw [hsame]
    exact (or_iff_left hnone).symm
  have hborn {source : Token}
      (htokens : (book.apply action).tokens = (book.tokens.child source).2)
      (hsires : Sires book action parent token ↔
        source = parent ∧ token = (book.tokens.child source).1) :
      (book.apply action).tokens.parent? token = some parent ↔
        book.tokens.parent? token = some parent ∨ Sires book action parent token := by
    rw [htokens, parent?_child_iff, hsires]
  cases action with
  | create name id => exact hidle (by rintro ⟨⟩) (TokenForest.parent?_root book.tokens token)
  | child name source id =>
      cases hsource : book.get? source with
      | none =>
          refine hidle ?_ (by simp only [apply, hsource])
          rintro ⟨h⟩
          simp [hsource] at h
      | some origin =>
          have hmade : (book.apply (.child name source id)).get? name =
              some (book.derive origin id).1 := by
            simp only [apply, hsource, get?_hold_self]
          refine hborn (by simp only [apply, hsource]; rfl) ⟨?_, ?_⟩
          · rintro ⟨h, hcontext⟩
            cases hsource.symm.trans h
            cases hmade.symm.trans hcontext
            exact ⟨rfl, rfl⟩
          · rintro ⟨rfl, rfl⟩
            exact .child hsource hmade
  | clone name source =>
      refine hidle (by rintro ⟨⟩) ?_
      simp only [apply]
      split <;> rfl
  | label name key value =>
      refine hidle (by rintro ⟨⟩) ?_
      simp only [apply]
      split <;> rfl
  | adopt name source =>
      refine hidle (by rintro ⟨⟩) ?_
      simp only [apply]
      split <;> rfl
  | adoptChild name source =>
      cases hname : book.get? name with
      | none =>
          refine hidle ?_ (by simp only [apply, hname])
          rintro (_ | ⟨h⟩)
          simp [hname] at h
      | some context =>
          cases hsource : book.get? source with
          | none =>
              refine hidle ?_ (by simp only [apply, hname, hsource])
              rintro (_ | ⟨-, h⟩)
              simp [hsource] at h
          | some origin =>
              have hmade : (book.apply (.adoptChild name source)).get? name =
                  some { context with token := (book.tokens.child origin.token).1 } := by
                simp only [apply, hname, hsource, get?_hold_self]
              refine hborn (by simp only [apply, hname, hsource]; rfl) ⟨?_, ?_⟩
              · rintro (_ | ⟨-, h, hcontext⟩)
                cases hsource.symm.trans h
                cases hmade.symm.trans hcontext
                exact ⟨rfl, rfl⟩
              · rintro ⟨rfl, rfl⟩
                exact .adoptChild hname hsource hmade
  | renew name =>
      refine hidle (by rintro ⟨⟩) ?_
      simp only [apply]
      split
      · rfl
      · exact TokenForest.parent?_root book.tokens token
  | cancel name =>
      refine hidle (by rintro ⟨⟩) ?_
      simp only [apply, cancelNamed]
      split
      · rfl
      · exact TokenForest.parent?_cancel book.tokens _ token
  | drop name => exact hidle (by rintro ⟨⟩) rfl

/-- The history tells of each token which one it was derived from. -/
theorem parent?_run (actions : List ContextAction) :
    (run actions).tokens.parent? token = some parent ↔ Derives actions parent token := by
  induction actions using List.reverseRecOn with
  | nil =>
      refine iff_of_false ?_ (not_ever_nil _)
      simp [run, TokenForest.parent?]
  | append_singleton actions action ih =>
      rw [run_concat, parent?_apply, ih]
      exact ever_concat.symm

theorem above_run (actions : List ContextAction) :
    (run actions).tokens.Above other token ↔ ReflTransGen (Derives actions) other token := by
  constructor
  · intro h
    induction h with
    | refl => exact .refl
    | step _ hparent ih => exact ih.tail ((parent?_run actions).1 hparent)
  · intro h
    induction h with
    | refl => exact .refl
    | tail _ hderives ih => exact .step ih ((parent?_run actions).2 hderives)

theorem mem_cuts_iff (orderly : book.Orderly) :
    token ∈ book.cuts action ↔ Strikes book action token := by
  cases action with
  | cancel name =>
      cases hname : book.get? name with
      | none =>
          simp only [cuts, hname, List.not_mem_nil, false_iff]
          rintro ⟨h⟩
          simp [hname] at h
      | some context =>
          have hhas := orderly.has _ (carries_of_get? hname)
          simp only [cuts, hname, TokenForest.hits_of_has hhas, List.mem_singleton]
          constructor
          · rintro rfl
            exact .cancel hname
          · rintro ⟨h⟩
            cases hname.symm.trans h
            rfl
  | _ => exact iff_of_false List.not_mem_nil (by rintro ⟨⟩)

theorem felled_run (actions : List ContextAction) :
    (run actions).tokens.Felled (Cancels actions) := by
  induction actions using List.reverseRecOn with
  | nil =>
      refine (orderly_empty.tidy.felled).congr fun token => ?_
      exact iff_of_false (not_ever_nil _) (by simp [TokenForest.isCancelled])
  | append_singleton actions action ih =>
      have orderly := orderly_run actions
      rw [run_concat]
      refine ((apply_tended _ action).felled ih orderly.has).congr fun token => ?_
      rw [mem_cuts_iff orderly]
      exact ever_concat

/-- A context is cancelled if its token was, or one that this was derived from. -/
theorem isCancelled_run (hname : (run actions).get? name = some context) :
    (run actions).isCancelled context = true ↔
      ∃ above, ReflTransGen (Derives actions) above context.token ∧ Cancels actions above := by
  have hhas := (orderly_run actions).has _ (carries_of_get? hname)
  rw [isCancelled, (felled_run actions).cancelled_iff _ hhas]
  simp only [above_run, and_comm]

/-! ### Others are spared -/

/-- A token is newer than those it was derived from. -/
theorem not_below_ancestor (h : TransGen (Derives actions) parent token) :
    ¬ ReflTransGen (Derives actions) token parent := by
  have tidy := (orderly_run actions).tidy
  intro hback
  have hle := tidy.index_le ((above_run actions).2 hback)
  have hlt : parent.index < token.index := by
    obtain ⟨mid, habove, hderives⟩ := TransGen.tail'_iff.1 h
    have hmid := tidy.index_le ((above_run actions).2 habove)
    have hlast := tidy.older _ _ ((parent?_run actions).2 hderives)
    omega
  omega

/-- Of two tokens derived from one, none is below the other. -/
theorem not_below_sibling (h : Derives actions parent token) (hother : Derives actions parent other)
    (hne : other ≠ token) : ¬ ReflTransGen (Derives actions) token other := by
  intro hbelow
  rcases ReflTransGen.cases_tail hbelow with heq | ⟨mid, habove, hderives⟩
  · exact hne heq
  · have hparent := (parent?_run actions).2 hother
    cases hparent.symm.trans ((parent?_run actions).2 hderives)
    exact not_below_ancestor (.single h) habove

/-- Cancelling the context of a name leaves all those alone that are not at or below it. -/
theorem isCancelled_cancel (hname : (run actions).get? name = some context) {bystander : Context}
    (hother : (run actions).Carries bystander.token)
    (hapart : ¬ ReflTransGen (Derives actions) context.token bystander.token) :
    (run (actions ++ [.cancel name])).isCancelled bystander =
      (run actions).isCancelled bystander := by
  have hhas := (orderly_run actions).has _ hother
  have hstep : run (actions ++ [.cancel name]) = (run actions).cancelToken context.token := by
    simp only [run_concat, apply, cancelNamed, hname]
  rw [hstep, Bool.eq_iff_iff]
  have htidy := (orderly_run actions).tidy.isCancelled_cancel context.token hhas
  rw [above_run] at htidy
  exact htidy.trans (or_iff_left hapart)

/-! ### The context of a name -/

/-- The step neither drops the context of a name nor writes to it. -/
def Spares (name : String) : ContextAction → Prop
  | .drop other | .label other _ _ => other ≠ name
  | _ => True

/-- What can become of the context of a name in one step. -/
inductive Became (book : ContextBook) (name : String) : ContextAction → Context → Prop
  | created {id : String} : Became book name (.create name id) (book.fresh id).1
  | child {source id : String} {parent : Context} (h : book.get? source = some parent) :
      Became book name (.child name source id) (book.derive parent id).1
  | clone {source : String} {original : Context} (h : book.get? source = some original) :
      Became book name (.clone name source) original
  | label {key value : String} {former : Context} (hname : book.get? name = some former) :
      Became book name (.label name key value) (former.label key value)
  | adopt {source : String} {former original : Context} (hname : book.get? name = some former)
      (h : book.get? source = some original) :
      Became book name (.adopt name source) { former with token := original.token }
  | adoptChild {source : String} {former parent : Context} (hname : book.get? name = some former)
      (h : book.get? source = some parent) :
      Became book name (.adoptChild name source)
        { former with token := (book.tokens.child parent.token).1 }
  | renew {former : Context} (hname : book.get? name = some former) :
      Became book name (.renew name) { former with token := book.tokens.root.1 }
  | same {action : ContextAction} {context : Context} (hname : book.get? name = some context)
      (hspares : Spares name action) : Became book name action context

theorem get?_hold_cases {target : String} {held : Context}
    (h : (book.hold target held).get? name = some context) :
    name = target ∧ held = context ∨ name ≠ target ∧ book.get? name = some context := by
  rw [get?_hold] at h
  split at h
  · next heq => exact .inl ⟨heq, Option.some.inj h⟩
  · next hne => exact .inr ⟨hne, h⟩

theorem became (h : (book.apply action).get? name = some context) :
    Became book name action context := by
  cases action with
  | create target id =>
      rcases get?_hold_cases h with ⟨rfl, rfl⟩ | ⟨-, h⟩
      · exact .created
      · exact .same h trivial
  | child target source id =>
      simp only [apply] at h
      split at h
      · exact .same h trivial
      · next hsource =>
          rcases get?_hold_cases h with ⟨rfl, rfl⟩ | ⟨-, h⟩
          · exact .child hsource
          · exact .same h trivial
  | clone target source =>
      simp only [apply] at h
      split at h
      · exact .same h trivial
      · next hsource =>
          rcases get?_hold_cases h with ⟨rfl, rfl⟩ | ⟨-, h⟩
          · exact .clone hsource
          · exact .same h trivial
  | label target key value =>
      simp only [apply] at h
      split at h
      · next hnone =>
          refine .same h ?_
          rintro rfl
          cases hnone.symm.trans h
      · next htarget =>
          rcases get?_hold_cases h with ⟨rfl, rfl⟩ | ⟨hne, h⟩
          · exact .label htarget
          · exact .same h (Ne.symm hne)
  | adopt target source =>
      simp only [apply] at h
      split at h
      · next htarget hsource =>
          rcases get?_hold_cases h with ⟨rfl, rfl⟩ | ⟨-, h⟩
          · exact .adopt htarget hsource
          · exact .same h trivial
      · exact .same h trivial
  | adoptChild target source =>
      simp only [apply] at h
      split at h
      · next htarget hsource =>
          rcases get?_hold_cases h with ⟨rfl, rfl⟩ | ⟨-, h⟩
          · exact .adoptChild htarget hsource
          · exact .same h trivial
      · exact .same h trivial
  | renew target =>
      simp only [apply] at h
      split at h
      · exact .same h trivial
      · next htarget =>
          rcases get?_hold_cases h with ⟨rfl, rfl⟩ | ⟨-, h⟩
          · exact .renew htarget
          · exact .same h trivial
  | cancel target =>
      simp only [apply, cancelNamed] at h
      split at h <;> exact .same h trivial
  | drop target =>
      rw [get?_drop] at h
      split at h
      · cases h
      · next hne => exact .same h (Ne.symm hne)

/-- A context is there until it is dropped. -/
theorem isSome_apply (h : (book.get? name).isSome = true) (hdrop : action ≠ .drop name) :
    ((book.apply action).get? name).isSome = true := by
  have hhold (book : ContextBook) (target : String) (held : Context)
      (h : (book.get? name).isSome = true) : ((book.hold target held).get? name).isSome = true := by
    rw [get?_hold]
    split
    · rfl
    · exact h
  cases action with
  | create target id => exact hhold _ _ _ h
  | drop target =>
      rw [get?_drop, if_neg]
      · exact h
      · rintro rfl
        exact hdrop rfl
  | cancel target =>
      simp only [apply, cancelNamed]
      split <;> exact h
  | _ =>
      simp only [apply]
      split <;> first | exact h | exact hhold _ _ _ h

/-- A context keeps its token, but for steps that give it another. -/
theorem Became.token_eq (h : Became book name action context) (hmint : ¬ Mints book action name)
    (hshare : ∀ original, ¬ Shares book action name original) :
    ∃ former, book.get? name = some former ∧ former.token = context.token := by
  cases h with
  | created => exact absurd .create hmint
  | child h => exact absurd (.child h) hmint
  | clone h => exact absurd (.clone h) (hshare _)
  | label hname => exact ⟨_, hname, rfl⟩
  | adopt hname h => exact absurd (.adopt hname h) (hshare _)
  | adoptChild hname h => exact absurd (.adoptChild hname h) hmint
  | renew hname => exact absurd (.renew hname) hmint
  | same hname => exact ⟨_, hname, rfl⟩

/-! ### Labels -/

/-- The step makes a context of this name, which has these labels at first. -/
inductive Makes (book : ContextBook) :
    ContextAction → String → List (String × String) → Prop
  | create {name id : String} : Makes book (.create name id) name []
  | child {name source id : String} {parent : Context} (h : book.get? source = some parent) :
      Makes book (.child name source id) name parent.labels
  | clone {name source : String} {original : Context} (h : book.get? source = some original) :
      Makes book (.clone name source) name original.labels

/-- The context of a name was made with these labels, and the steps since then neither made another
of this name nor dropped it. -/
inductive Born (name : String) (snapshot : List (String × String)) :
    List ContextAction → List ContextAction → Prop
  | made {before : List ContextAction} {action : ContextAction}
      (h : Makes (run before) action name snapshot) : Born name snapshot (before ++ [action]) []
  | later {actions since : List ContextAction} {action : ContextAction}
      (h : Born name snapshot actions since) (hdrop : action ≠ .drop name)
      (hmake : ∀ labels, ¬ Makes (run actions) action name labels) :
      Born name snapshot (actions ++ [action]) (since ++ [action])

/-- What the step writes to a key of the context of a name. -/
def write? (name key : String) : ContextAction → Option String
  | .label target other value => if target = name ∧ other = key then some value else none
  | _ => none

def lastWrite (name key : String) (actions : List ContextAction) : Option String :=
  actions.reverse.findSome? (write? name key)

theorem lastWrite_concat (name key : String) (actions : List ContextAction)
    (action : ContextAction) : lastWrite name key (actions ++ [action]) =
      (write? name key action).or (lastWrite name key actions) := by
  rw [lastWrite, List.reverse_concat, List.findSome?_cons]
  cases write? name key action <;> rfl

theorem Makes.labels_eq (h : Makes book action name snapshot) :
    ∃ context, (book.apply action).get? name = some context ∧ context.labels = snapshot := by
  cases h with
  | create => exact ⟨_, get?_hold_self _ _ _, rfl⟩
  | child h =>
      simp only [apply, h]
      exact ⟨_, get?_hold_self _ _ _, rfl⟩
  | clone h =>
      simp only [apply, h]
      exact ⟨_, get?_hold_self _ _ _, rfl⟩

/-- A step that does not make a context changes at most the label that it writes. -/
theorem Became.lookup_eq (h : Became book name action context)
    (hmake : ∀ labels, ¬ Makes book action name labels) :
    action ≠ .drop name ∧ ∃ former, book.get? name = some former ∧ ∀ key,
      context.labels.lookup key = (write? name key action).or (former.labels.lookup key) := by
  cases h with
  | created => exact absurd .create (hmake _)
  | child h => exact absurd (.child h) (hmake _)
  | clone h => exact absurd (.clone h) (hmake _)
  | @label key value former hname =>
      refine ⟨by rintro ⟨⟩, former, hname, fun other => ?_⟩
      rw [Context.lookup_label, write?]
      by_cases hkey : other = key
      · simp [hkey]
      · simp [hkey, Ne.symm hkey]
  | adopt hname h => exact ⟨by rintro ⟨⟩, _, hname, fun _ => rfl⟩
  | adoptChild hname h => exact ⟨by rintro ⟨⟩, _, hname, fun _ => rfl⟩
  | renew hname => exact ⟨by rintro ⟨⟩, _, hname, fun _ => rfl⟩
  | same hname hspares =>
      refine ⟨?_, context, hname, fun key => ?_⟩
      · rintro rfl
        exact hspares rfl
      · have hnone : write? name key action = none := by
          cases action with
          | label target other value => exact if_neg fun h => hspares h.1
          | _ => rfl
        rw [hnone, Option.none_or]

theorem Born.lookup_eq (h : Born name snapshot actions since) :
    ∃ context, (run actions).get? name = some context ∧ ∀ key,
      context.labels.lookup key = (lastWrite name key since).or (snapshot.lookup key) := by
  induction h with
  | made h =>
      obtain ⟨context, hname, rfl⟩ := h.labels_eq
      exact ⟨context, by rwa [run_concat], fun _ => rfl⟩
  | @later actions since action h hdrop hmake ih =>
      obtain ⟨former, hformer, hlabels⟩ := ih
      have hsome : ((run actions).get? name).isSome = true := by
        rw [hformer]
        rfl
      obtain ⟨context, hname⟩ := Option.isSome_iff_exists.1 (isSome_apply hsome hdrop)
      obtain ⟨-, other, hother, hlookup⟩ := (became hname).lookup_eq hmake
      cases hformer.symm.trans hother
      refine ⟨context, by rwa [run_concat], fun key => ?_⟩
      rw [hlookup, hlabels, lastWrite_concat, Option.or_assoc]

/-- Each context that is held was made at some time. -/
theorem exists_born (hname : (run actions).get? name = some context) :
    ∃ snapshot since, Born name snapshot actions since := by
  induction actions using List.reverseRecOn generalizing context with
  | nil => cases hname
  | append_singleton actions action ih =>
      rw [run_concat] at hname
      by_cases hmake : ∃ labels, Makes (run actions) action name labels
      · obtain ⟨snapshot, hmake⟩ := hmake
        exact ⟨snapshot, [], .made hmake⟩
      · rw [not_exists] at hmake
        obtain ⟨hdrop, former, hformer, -⟩ := (became hname).lookup_eq hmake
        obtain ⟨snapshot, since, hborn⟩ := ih hformer
        exact ⟨snapshot, since ++ [action], hborn.later hdrop hmake⟩

/-- No key stands in the labels of a context twice. -/
theorem nodup_run (hname : (run actions).get? name = some context) :
    (context.labels.map Prod.fst).Nodup := by
  induction actions using List.reverseRecOn generalizing name context with
  | nil => cases hname
  | append_singleton actions action ih =>
      rw [run_concat] at hname
      have hold (former : Context) {other : String}
          (h : (run actions).get? other = some former) : (former.labels.map Prod.fst).Nodup :=
        ih h
      cases became hname with
      | created => exact List.nodup_nil
      | @child _ _ parent h => exact hold parent h
      | clone h => exact hold _ h
      | label h => exact nodup_cons_filter (hold _ h) _ _
      | @adopt _ former _ h => exact hold former h
      | @adoptChild _ former _ h => exact hold former h
      | @renew former h => exact hold former h
      | same h => exact hold _ h

/-! ### Whole histories -/

/-- What a history of steps says of the contexts that are held after it. -/
structure FollowsHistory (actions : List ContextAction) : Prop where
  minted : ∀ action name, Mints (run actions) action name →
    ∃ context, (run (actions ++ [action])).get? name = some context ∧
      ∀ early, early <+: actions → ∀ other former, (run early).get? other = some former →
        former.token ≠ context.token
  shared : ∀ action name original, Shares (run actions) action name original →
    ∃ context, (run (actions ++ [action])).get? name = some context ∧
      context.token = original.token
  kept : ∀ action name context, (run (actions ++ [action])).get? name = some context →
    ¬ Mints (run actions) action name →
    (∀ original, ¬ Shares (run actions) action name original) →
    ∃ former, (run actions).get? name = some former ∧ former.token = context.token
  cancelled_iff : ∀ name context, (run actions).get? name = some context →
    ((run actions).isCancelled context = true ↔
      ∃ above, ReflTransGen (Derives actions) above context.token ∧ Cancels actions above)
  spared : ∀ name context, (run actions).get? name = some context →
    ∀ other bystander, (run actions).get? other = some bystander →
    (TransGen (Derives actions) bystander.token context.token ∨
      ∃ parent, Derives actions parent context.token ∧ Derives actions parent bystander.token ∧
        bystander.token ≠ context.token) →
    (run (actions ++ [.cancel name])).isCancelled bystander = (run actions).isCancelled bystander
  made : ∀ name context, (run actions).get? name = some context →
    ∃ snapshot since, Born name snapshot actions since
  labels : ∀ name snapshot since, Born name snapshot actions since →
    ∃ context, (run actions).get? name = some context ∧
      (context.labels.map Prod.fst).Nodup ∧ ∀ key,
        context.labels.lookup key = (lastWrite name key since).or (snapshot.lookup key)

/-- Whatever a caller does with contexts, cancellations reach those below and no others, and labels
are what they were at first but for those written since. -/
theorem follows_history (actions : List ContextAction) : FollowsHistory actions where
  minted action name h := by
    obtain ⟨context, hname, hnew⟩ := h.fresh
    refine ⟨context, by rwa [run_concat], ?_⟩
    rintro early hearly other former hformer heq
    have hhas := (orderly_run early).has _ (carries_of_get? hformer)
    rw [heq] at hhas
    exact hnew ((extends_run hearly).has hhas)
  shared action name original h := by
    rw [run_concat]
    exact h.token_eq
  kept action name context hname hmint hshare := by
    rw [run_concat] at hname
    exact (became hname).token_eq hmint hshare
  cancelled_iff name context hname := isCancelled_run hname
  spared name context hname other bystander hother h := by
    refine isCancelled_cancel hname (carries_of_get? hother) ?_
    rcases h with habove | ⟨parent, hcontext, hbystander, hne⟩
    · exact not_below_ancestor habove
    · exact not_below_sibling hcontext hbystander hne
  made name context hname := exists_born hname
  labels name snapshot since h := by
    obtain ⟨context, hname, hlookup⟩ := h.lookup_eq
    exact ⟨context, hname, nodup_run hname, hlookup⟩

/-- A context in between is dropped, another is made after the cancellation, and a third one has
left for a token of its own. -/
example :
    let book := run [.create "a" "1", .child "b" "a" "2", .child "c" "b" "3", .clone "e" "c",
      .renew "e", .drop "b", .cancel "a", .child "d" "c" "4"]
    book.named.map (fun entry => (entry.1, book.isCancelled entry.2)) =
      [("d", true), ("e", false), ("c", true), ("a", true)] := by
  decide

end ContextBook

end StatePool
