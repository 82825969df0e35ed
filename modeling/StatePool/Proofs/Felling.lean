import StatePool.Proofs.Forest

/-!
The cancellations that a forest has been through.

A forest grows and is cut at some of its tokens.  If all cuts are kept in mind, a token turns out to
be cancelled just if there was one at it or above it.
-/

namespace StatePool

namespace TokenForest

variable {forest mid next : TokenForest} {token above parent other : Token}
  {allowed : Token → Prop} {cuts later : List Token}

/-- A token that does not exist cannot be hit. -/
def hits (forest : TokenForest) (token : Token) : List Token :=
  if token.index < forest.nodes.size then [token] else []

theorem mem_hits : other ∈ forest.hits token ↔ other = token ∧ forest.Has token := by
  unfold hits
  split
  · next h =>
      rw [List.mem_singleton]
      exact (and_iff_left h).symm
  · next h =>
      constructor
      · nofun
      · rintro ⟨-, hhas⟩
        exact absurd hhas h

theorem hits_of_has (h : forest.Has token) : forest.hits token = [token] :=
  if_pos h

/-- What a forest can become, with the cuts on the way.  Its tokens have children only below those
that are allowed to. -/
inductive Tended (allowed : Token → Prop) (forest : TokenForest) :
    List Token → TokenForest → Prop
  | refl : Tended allowed forest [] forest
  | root {cuts : List Token} {mid : TokenForest} (h : Tended allowed forest cuts mid) :
      Tended allowed forest cuts mid.root.2
  | child {cuts : List Token} {mid : TokenForest} {parent : Token}
      (h : Tended allowed forest cuts mid) (hparent : allowed parent) :
      Tended allowed forest cuts (mid.child parent).2
  | cancel {cuts : List Token} {mid : TokenForest} {token : Token}
      (h : Tended allowed forest cuts mid) :
      Tended allowed forest (cuts ++ mid.hits token) (mid.cancel token)

theorem Tended.single (forest : TokenForest) (token : Token) :
    Tended allowed forest (forest.hits token) (forest.cancel token) :=
  Tended.cancel .refl

theorem Tended.trans (h : Tended allowed forest cuts mid) (hlater : Tended allowed mid later next) :
    Tended allowed forest (cuts ++ later) next := by
  induction hlater with
  | refl => rwa [List.append_nil]
  | root _ ih => exact .root ih
  | child _ hparent ih => exact .child ih hparent
  | cancel _ ih =>
      rw [← List.append_assoc]
      exact .cancel ih

theorem Tended.mono {others : Token → Prop} (h : Tended allowed forest cuts next)
    (hallowed : ∀ token, allowed token → others token) : Tended others forest cuts next := by
  induction h with
  | refl => exact .refl
  | root _ ih => exact .root ih
  | child _ hparent ih => exact .child ih (hallowed _ hparent)
  | cancel _ ih => exact .cancel ih

theorem Tended.extends (h : Tended allowed forest cuts next) : forest.Extends next := by
  induction h with
  | refl => exact .refl _
  | root _ ih => exact ih.trans (extends_root _)
  | child _ _ ih => exact ih.trans (extends_child _ _)
  | cancel _ ih => exact ih.trans (extends_cancel _ _)

theorem Tended.childless (h : Tended allowed forest cuts next) (hnone : ¬ allowed token)
    (hchildless : ∀ child, forest.parent? child ≠ some token) :
    ∀ child, next.parent? child ≠ some token := by
  induction h with
  | refl => exact hchildless
  | root _ ih =>
      intro child
      rw [parent?_root]
      exact ih child
  | child _ hparent ih =>
      intro child
      rw [parent?_child]
      split
      · intro heq
        cases heq
        exact hnone hparent
      · exact ih child
  | cancel _ ih =>
      intro child
      rw [parent?_cancel]
      exact ih child

/-- The cuts that are kept in mind explain which tokens are cancelled. -/
structure Felled (forest : TokenForest) (cut : Token → Prop) : Prop where
  tidy : forest.Tidy
  has : ∀ token, cut token → forest.Has token
  cancelled_iff : ∀ token, forest.Has token → (forest.isCancelled token = true ↔
    ∃ above, cut above ∧ forest.Above above token)

variable {cut : Token → Prop}

theorem Tidy.has_of_above (tidy : forest.Tidy) (h : forest.Above above token)
    (htoken : forest.Has token) : forest.Has above :=
  Nat.lt_of_le_of_lt (tidy.index_le h) htoken

theorem Felled.congr {others : Token → Prop} (felled : forest.Felled cut)
    (h : ∀ token, others token ↔ cut token) : forest.Felled others := by
  have heq : others = cut := funext fun token => propext (h token)
  rw [heq]
  exact felled

/-- In a tidy forest everything that is cancelled can be taken for a cut. -/
theorem Tidy.felled (tidy : forest.Tidy) :
    forest.Felled fun token => forest.isCancelled token = true where
  tidy := tidy
  has _ h := has_of_isCancelled h
  cancelled_iff token _ := by
    constructor
    · intro h
      exact ⟨token, h, .refl⟩
    · rintro ⟨above, hcancelled, habove⟩
      exact tidy.isCancelled_of_above habove hcancelled

theorem has_push (h : token.index < forest.nodes.size + 1) :
    forest.Has token ∨ token = ⟨forest.nodes.size⟩ := by
  rcases Nat.lt_or_eq_of_le (Nat.le_of_lt_succ h) with hlt | heq
  · exact .inl hlt
  · exact .inr (by rw [← heq])

theorem not_has_size (forest : TokenForest) : ¬ forest.Has ⟨forest.nodes.size⟩ :=
  Nat.lt_irrefl _

/-- Tokens that were there keep their explanation. -/
theorem Felled.of_extends (felled : forest.Felled cut) (hextends : forest.Extends next)
    (htoken : forest.Has token) (hsame : next.isCancelled token = forest.isCancelled token) :
    next.isCancelled token = true ↔ ∃ above, cut above ∧ next.Above above token := by
  rw [hsame, felled.cancelled_iff token htoken]
  simp only [felled.tidy.above_iff_of_extends hextends htoken]

theorem Felled.root (felled : forest.Felled cut) : forest.root.2.Felled cut := by
  have hextends := extends_root forest
  refine ⟨felled.tidy.root, fun token h => hextends.has (felled.has token h), ?_⟩
  intro token htoken
  rw [Has, size_root] at htoken
  rcases has_push htoken with hold | rfl
  · exact felled.of_extends hextends hold (isCancelled_root_of_has hold)
  · constructor
    · intro h
      exact absurd (h.symm.trans forest.isCancelled_root) nofun
    · rintro ⟨above, hcut, habove⟩
      rcases above_iff.1 habove with rfl | ⟨parent, hparent, -⟩
      · exact absurd (felled.has _ hcut) forest.not_has_size
      · rw [parent?_root] at hparent
        exact absurd (has_of_parent? hparent) forest.not_has_size

theorem Felled.child (felled : forest.Felled cut) (hparent : forest.Has parent) :
    (forest.child parent).2.Felled cut := by
  have hextends := extends_child forest parent
  refine ⟨felled.tidy.child hparent, fun token h => hextends.has (felled.has token h), ?_⟩
  intro token htoken
  rw [Has, size_child] at htoken
  rcases has_push htoken with hold | rfl
  · exact felled.of_extends hextends hold (isCancelled_child_of_has hold)
  · have hself : (forest.child parent).2.parent? ⟨forest.nodes.size⟩ = some parent := by
      rw [parent?_child]
      exact if_pos rfl
    have hcancelled : (forest.child parent).2.isCancelled ⟨forest.nodes.size⟩ =
        forest.isCancelled parent :=
      forest.isCancelled_child parent
    -- Nobody cut the new token itself, so what explains its parent explains it.
    rw [hcancelled, felled.cancelled_iff parent hparent]
    constructor
    · rintro ⟨above, hcut, habove⟩
      have hstill := (felled.tidy.above_iff_of_extends hextends hparent).2 habove
      exact ⟨above, hcut, .step hstill hself⟩
    · rintro ⟨above, hcut, habove⟩
      rcases above_iff.1 habove with rfl | ⟨other, hother, habove⟩
      · exact absurd (felled.has _ hcut) forest.not_has_size
      · cases hself.symm.trans hother
        exact ⟨above, hcut, (felled.tidy.above_iff_of_extends hextends hparent).1 habove⟩

theorem Felled.cancel (felled : forest.Felled cut) (token : Token) :
    (forest.cancel token).Felled fun other => cut other ∨ other ∈ forest.hits token := by
  have hextends := extends_cancel forest token
  refine ⟨felled.tidy.cancel token, ?_, ?_⟩
  · rintro other (h | h)
    · exact hextends.has (felled.has other h)
    · obtain ⟨rfl, hhas⟩ := mem_hits.1 h
      exact hextends.has hhas
  · intro other hother
    rw [Has, size_cancel] at hother
    rw [felled.tidy.isCancelled_cancel token hother, felled.cancelled_iff other hother]
    simp only [felled.tidy.above_iff_of_extends hextends hother]
    constructor
    · rintro (⟨above, hcut, habove⟩ | habove)
      · exact ⟨above, .inl hcut, habove⟩
      · exact ⟨token, .inr (mem_hits.2 ⟨rfl, felled.tidy.has_of_above habove hother⟩), habove⟩
    · rintro ⟨above, hcut | hhit, habove⟩
      · exact .inl ⟨above, hcut, habove⟩
      · obtain ⟨rfl, -⟩ := mem_hits.1 hhit
        exact .inr habove

theorem Tended.felled (h : Tended allowed forest cuts next) (felled : forest.Felled cut)
    (hallowed : ∀ token, allowed token → forest.Has token) :
    next.Felled fun token => cut token ∨ token ∈ cuts := by
  induction h with
  | refl => exact felled.congr fun token => by simp
  | root _ ih => exact ih.root
  | child h hparent ih => exact ih.child (h.extends.has (hallowed _ hparent))
  | cancel _ ih =>
      refine (ih.cancel _).congr ?_
      intro token
      rw [List.mem_append, or_assoc]

end TokenForest

end StatePool
