import StatePool.World

/-!
What cancelling does to a forest of tokens.

In a forest whose parents are older than their children, and whose children hear of their parents,
cancelling a token reaches just the tokens at and below it.  New tokens and cancellations leave
every token where it stands.
-/

namespace StatePool

namespace TokenForest

variable {forest next : TokenForest} {token above parent other : Token}

/-- The token that one was derived from. -/
def parent? (forest : TokenForest) (token : Token) : Option Token :=
  forest.nodes[token.index]?.bind fun node => node.parent.map Token.mk

/-- `above` is the token itself, or one that it was derived from in some steps. -/
inductive Above (forest : TokenForest) (above : Token) : Token → Prop
  | refl : Above forest above above
  | step {parent token : Token} (h : Above forest above parent)
      (hparent : forest.parent? token = some parent) : Above forest above token

def Has (forest : TokenForest) (token : Token) : Prop :=
  token.index < forest.nodes.size

structure Tidy (forest : TokenForest) : Prop where
  older : ∀ token parent, forest.parent? token = some parent → parent.index < token.index
  heard : ∀ token parent, forest.parent? token = some parent →
    forest.isCancelled parent = true → forest.isCancelled token = true

theorem has_of_parent? (h : forest.parent? token = some parent) : forest.Has token := by
  unfold parent? at h
  cases hnode : forest.nodes[token.index]? with
  | none => simp [hnode] at h
  | some node => exact (Array.getElem?_eq_some_iff.1 hnode).1

theorem has_of_isCancelled (h : forest.isCancelled token = true) : forest.Has token := by
  unfold isCancelled at h
  cases hnode : forest.nodes[token.index]? with
  | none => simp [hnode] at h
  | some node => exact (Array.getElem?_eq_some_iff.1 hnode).1

theorem above_iff : forest.Above above token ↔
    above = token ∨ ∃ parent, forest.parent? token = some parent ∧ forest.Above above parent := by
  constructor
  · intro h
    cases h with
    | refl => exact .inl rfl
    | step h hparent => exact .inr ⟨_, hparent, h⟩
  · rintro (rfl | ⟨parent, hparent, h⟩)
    · exact .refl
    · exact .step h hparent

theorem Tidy.index_le (tidy : forest.Tidy) (h : forest.Above above token) :
    above.index ≤ token.index := by
  induction h with
  | refl => exact Nat.le_refl _
  | step _ hparent ih =>
      have := tidy.older _ _ hparent
      omega

theorem Tidy.isCancelled_of_above (tidy : forest.Tidy) (h : forest.Above above token)
    (hcancelled : forest.isCancelled above = true) : forest.isCancelled token = true := by
  induction h with
  | refl => exact hcancelled
  | step _ hparent ih => exact tidy.heard _ _ hparent ih

/-- A token without children is above itself only. -/
theorem Above.eq_of_childless (h : forest.Above above token)
    (childless : ∀ child, forest.parent? child ≠ some above) : above = token := by
  induction h with
  | refl => rfl
  | step _ hparent ih =>
      subst ih
      exact absurd hparent (childless _)

/-! ### Cancelling -/

/-- Where a token stands is not touched when others settle. -/
theorem parent_settled (target : Nat) (nodes : List TokenNode) (settled : Array TokenNode) :
    (nodes.foldl (settle target) settled).toList.map (·.parent) =
      settled.toList.map (·.parent) ++ nodes.map (·.parent) := by
  induction nodes generalizing settled with
  | nil => simp
  | cons node nodes ih => simp [ih, settle]

theorem parent?_cancel (forest : TokenForest) (token other : Token) :
    (forest.cancel token).parent? other = forest.parent? other := by
  have hview (forest : TokenForest) : forest.parent? other =
      (forest.nodes.toList.map (·.parent))[other.index]?.bind (Option.map Token.mk) := by
    simp only [parent?, List.getElem?_map, Array.getElem?_toList]
    cases forest.nodes[other.index]? <;> rfl
  unfold cancel
  split
  · rfl
  · rw [hview, hview, ← Array.foldl_toList, parent_settled]
    rfl

/-- A mark stays when others settle. -/
theorem cancelled_settled (target : Nat) (nodes : List TokenNode) (settled : Array TokenNode)
    {index : Nat} (h : (settled.toList ++ nodes)[index]?.any (·.cancelled) = true) :
    (nodes.foldl (settle target) settled)[index]?.any (·.cancelled) = true := by
  induction nodes generalizing settled with
  | nil => simpa using h
  | cons node nodes ih =>
      apply ih
      rw [List.getElem?_append] at h
      simp only [settle, Array.toList_push, List.append_assoc, List.getElem?_append]
      split
      · next hlt => rwa [if_pos hlt] at h
      · next hge =>
          rw [if_neg hge] at h
          cases hindex : index - settled.toList.length with
          | zero =>
              rw [hindex] at h
              simp only [List.getElem?_cons_zero, Option.any_some] at h
              simp [h]
          | succ index =>
              rw [hindex] at h
              simpa using h

theorem isCancelled_cancel_of_isCancelled (token : Token) (h : forest.isCancelled other = true) :
    (forest.cancel token).isCancelled other = true := by
  have hview (forest : TokenForest) :
      forest.isCancelled other = forest.nodes[other.index]?.any (·.cancelled) := by
    unfold isCancelled
    cases forest.nodes[other.index]? <;> rfl
  unfold cancel
  split
  · exact h
  · rw [hview] at h ⊢
    rw [← Array.foldl_toList]
    exact cancelled_settled token.index _ #[] (by simpa using h)

/-- Those already settled are cancelled as they should be. -/
def Settled (forest : TokenForest) (token : Token) (settled : Array TokenNode) : Prop :=
  ∀ index node, settled[index]? = some node →
    (node.cancelled = true ↔ forest.isCancelled ⟨index⟩ = true ∨ forest.Above token ⟨index⟩)

/-- A node hears of its parent, which is older and so already settled. -/
theorem Tidy.inherits_iff (tidy : forest.Tidy) {settled : Array TokenNode}
    (h : forest.Settled token settled) {node : TokenNode}
    (hnode : forest.nodes[settled.size]? = some node) :
    inherits settled node = true ↔
      ∃ parent, forest.parent? ⟨settled.size⟩ = some parent ∧
        (forest.isCancelled parent = true ∨ forest.Above token parent) := by
  have hparent : forest.parent? ⟨settled.size⟩ = node.parent.map Token.mk := by
    simp [parent?, hnode]
  rw [hparent]
  unfold inherits
  cases hnone : node.parent with
  | none => simp
  | some index =>
      have hlt : index < settled.size := by
        rw [hnone] at hparent
        exact tidy.older _ _ hparent
      have hsettled : settled[index]? = some settled[index] := by simp [hlt]
      simp only [hsettled]
      simpa using h index _ hsettled

theorem Tidy.settle (tidy : forest.Tidy) {settled : Array TokenNode}
    (h : forest.Settled token settled) {node : TokenNode}
    (hnode : forest.nodes[settled.size]? = some node) :
    forest.Settled token (settle token.index settled node) := by
  intro index other hother
  rw [TokenForest.settle, Array.getElem?_push] at hother
  split at hother
  · next hlast =>
      subst hlast
      cases hother
      have hself : forest.isCancelled ⟨settled.size⟩ = node.cancelled := by
        simp [isCancelled, hnode]
      have htoken : settled.size = token.index ↔ token = ⟨settled.size⟩ := by
        constructor
        · intro heq
          rw [heq]
        · intro heq
          rw [heq]
      simp only [Bool.or_eq_true, beq_iff_eq, htoken, tidy.inherits_iff h hnode, hself]
      rw [above_iff]
      constructor
      · rintro ((hmark | heq) | ⟨parent, hparent, hheard | habove⟩)
        · exact .inl hmark
        · exact .inr (.inl heq)
        · exact .inl (hself ▸ tidy.heard _ _ hparent hheard)
        · exact .inr (.inr ⟨parent, hparent, habove⟩)
      · rintro (hmark | heq | ⟨parent, hparent, habove⟩)
        · exact .inl (.inl hmark)
        · exact .inl (.inr heq)
        · exact .inr ⟨parent, hparent, .inr habove⟩
  · exact h index other hother

theorem Tidy.settled_foldl (tidy : forest.Tidy) (token : Token) {nodes : List TokenNode}
    {settled : Array TokenNode} (h : forest.Settled token settled)
    (hrest : forest.nodes.toList.drop settled.size = nodes) :
    forest.Settled token (nodes.foldl (TokenForest.settle token.index) settled) := by
  induction nodes generalizing settled with
  | nil => exact h
  | cons node nodes ih =>
      have hnode : forest.nodes[settled.size]? = some node := by
        have hhead := congrArg (·[0]?) hrest
        simpa using hhead
      apply ih (tidy.settle h hnode)
      rw [size_settle, ← List.drop_drop, hrest]
      rfl

/-- Cancelling a token cancels what is at or below it, and nothing else. -/
theorem Tidy.isCancelled_cancel (tidy : forest.Tidy) (token : Token) (hother : forest.Has other) :
    (forest.cancel token).isCancelled other = true ↔
      forest.isCancelled other = true ∨ forest.Above token other := by
  unfold cancel
  split
  · next hcancelled =>
      constructor
      · exact .inl
      · rintro (h | h)
        · exact h
        · exact tidy.isCancelled_of_above h hcancelled
  · have settled :
        forest.Settled token (forest.nodes.foldl (TokenForest.settle token.index) #[]) := by
      rw [← Array.foldl_toList]
      exact tidy.settled_foldl token (fun index node h => by simp at h) rfl
    have hsize : (forest.nodes.foldl (TokenForest.settle token.index) #[]).size =
        forest.nodes.size := by
      have hparents := congrArg List.length (parent_settled token.index forest.nodes.toList #[])
      rw [Array.foldl_toList] at hparents
      simpa using hparents
    generalize forest.nodes.foldl (TokenForest.settle token.index) #[] = nodes at settled hsize
    have hlt : other.index < nodes.size := by
      rw [hsize]
      exact hother
    simpa [isCancelled, hlt] using settled other.index nodes[other.index] (by simp [hlt])

/-! ### Growing -/

/-- What tokens there were stand where they stood. -/
structure Extends (forest next : TokenForest) : Prop where
  size_le : forest.nodes.size ≤ next.nodes.size
  parent_eq : ∀ token, forest.Has token → next.parent? token = forest.parent? token

theorem Extends.refl (forest : TokenForest) : forest.Extends forest :=
  ⟨Nat.le_refl _, fun _ _ => rfl⟩

theorem Extends.has (extends' : forest.Extends next) (h : forest.Has token) : next.Has token :=
  Nat.lt_of_lt_of_le h extends'.size_le

theorem Extends.trans {last : TokenForest} (h : forest.Extends next) (later : next.Extends last) :
    forest.Extends last where
  size_le := Nat.le_trans h.size_le later.size_le
  parent_eq token htoken :=
    (later.parent_eq token (h.has htoken)).trans (h.parent_eq token htoken)

theorem Extends.parent?_of_some (h : forest.Extends next)
    (hparent : forest.parent? token = some parent) :
    next.parent? token = some parent :=
  (h.parent_eq token (has_of_parent? hparent)).trans hparent

theorem Tidy.above_iff_of_extends (tidy : forest.Tidy) (h : forest.Extends next)
    (htoken : forest.Has token) : next.Above above token ↔ forest.Above above token := by
  constructor
  · intro habove
    induction habove with
    | refl => exact .refl
    | @step parent token _ hparent ih =>
        rw [h.parent_eq token htoken] at hparent
        have hparent' : forest.Has parent := Nat.lt_trans (tidy.older _ _ hparent) htoken
        exact .step (ih hparent') hparent
  · intro habove
    induction habove with
    | refl => exact .refl
    | @step parent token _ hparent ih =>
        have hparent' : forest.Has parent := Nat.lt_trans (tidy.older _ _ hparent) htoken
        exact .step (ih hparent') (h.parent?_of_some hparent)

theorem extends_cancel (forest : TokenForest) (token : Token) :
    forest.Extends (forest.cancel token) :=
  ⟨Nat.le_of_eq (size_cancel forest token).symm, fun other _ => parent?_cancel forest token other⟩

theorem parent?_root (forest : TokenForest) (token : Token) :
    forest.root.2.parent? token = forest.parent? token := by
  simp only [parent?, root, Array.getElem?_push]
  split
  · next h => simp [h]
  · rfl

theorem parent?_child (forest : TokenForest) (parent token : Token) :
    (forest.child parent).2.parent? token =
      if token = (forest.child parent).1 then some parent else forest.parent? token := by
  by_cases htoken : token = (forest.child parent).1
  · rw [if_pos htoken, htoken]
    simp [parent?, child]
  · rw [if_neg htoken]
    have hindex : token.index ≠ forest.nodes.size := by
      intro heq
      apply htoken
      rw [child, ← heq]
    simp only [parent?, child, Array.getElem?_push, if_neg hindex]

theorem extends_root (forest : TokenForest) : forest.Extends forest.root.2 :=
  ⟨by simp, fun token _ => parent?_root forest token⟩

theorem extends_child (forest : TokenForest) (parent : Token) :
    forest.Extends (forest.child parent).2 := by
  constructor
  · simp
  · intro token htoken
    rw [parent?_child, if_neg]
    rintro rfl
    exact Nat.lt_irrefl _ htoken

theorem isCancelled_root_of_has (h : forest.Has token) :
    forest.root.2.isCancelled token = forest.isCancelled token := by
  simp only [isCancelled, root, Array.getElem?_push, if_neg (Nat.ne_of_lt h)]

theorem isCancelled_child_of_has (h : forest.Has token) :
    (forest.child parent).2.isCancelled token = forest.isCancelled token := by
  simp only [isCancelled, child, Array.getElem?_push, if_neg (Nat.ne_of_lt h)]

theorem Tidy.cancel (tidy : forest.Tidy) (token : Token) : (forest.cancel token).Tidy := by
  constructor
  · intro other parent hparent
    rw [parent?_cancel] at hparent
    exact tidy.older other parent hparent
  · intro other parent hparent hcancelled
    rw [parent?_cancel] at hparent
    have hother := has_of_parent? hparent
    have hhas : forest.Has parent := Nat.lt_trans (tidy.older _ _ hparent) hother
    rw [tidy.isCancelled_cancel token hhas] at hcancelled
    rw [tidy.isCancelled_cancel token hother]
    rcases hcancelled with h | h
    · exact .inl (tidy.heard _ _ hparent h)
    · exact .inr (.step h hparent)

theorem Tidy.root (tidy : forest.Tidy) : forest.root.2.Tidy := by
  constructor
  · intro token parent hparent
    rw [parent?_root] at hparent
    exact tidy.older token parent hparent
  · intro token parent hparent hcancelled
    rw [parent?_root] at hparent
    have htoken := has_of_parent? hparent
    have hhas : forest.Has parent := Nat.lt_trans (tidy.older _ _ hparent) htoken
    rw [isCancelled_root_of_has hhas] at hcancelled
    rw [isCancelled_root_of_has htoken]
    exact tidy.heard token parent hparent hcancelled

/-- A child is born as its parent is. -/
theorem Tidy.child (tidy : forest.Tidy) (hparent : forest.Has parent) :
    (forest.child parent).2.Tidy := by
  constructor
  · intro token other hother
    rw [parent?_child] at hother
    split at hother
    · next heq =>
        cases hother
        rw [heq]
        exact hparent
    · exact tidy.older token other hother
  · intro token other hother hcancelled
    rw [parent?_child] at hother
    split at hother
    · next heq =>
        cases hother
        rw [isCancelled_child_of_has hparent] at hcancelled
        rw [heq, isCancelled_child]
        exact hcancelled
    · have htoken := has_of_parent? hother
      have hhas : forest.Has other := Nat.lt_trans (tidy.older _ _ hother) htoken
      rw [isCancelled_child_of_has hhas] at hcancelled
      rw [isCancelled_child_of_has htoken]
      exact tidy.heard token other hother hcancelled

end TokenForest

end StatePool
