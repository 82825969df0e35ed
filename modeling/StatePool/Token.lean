/-!
Cancellation tokens.

Tokens form a forest.  Cancelling one cancels everything below it at once, and a child of a
cancelled token is born cancelled; nothing ever undoes a cancellation.  A token stays in the forest
when nobody holds it any more, so what was derived from it still hears of its parents.
-/

namespace StatePool

structure Token where
  index : Nat
  deriving DecidableEq, Repr, Inhabited

/-- A token's parent, which is older than itself, and whether it is cancelled. -/
structure TokenNode where
  parent : Option Nat
  cancelled : Bool
  deriving DecidableEq, Repr, Inhabited

/-- All tokens ever made, oldest first. -/
structure TokenForest where
  nodes : Array TokenNode := #[]
  deriving DecidableEq, Repr, Inhabited

namespace TokenForest

def isCancelled (forest : TokenForest) (token : Token) : Bool :=
  match forest.nodes[token.index]? with
  | none => false
  | some node => node.cancelled

/-- A token without a parent. -/
def root (forest : TokenForest) : Token × TokenForest :=
  (⟨forest.nodes.size⟩, ⟨forest.nodes.push ⟨none, false⟩⟩)

def child (forest : TokenForest) (token : Token) : Token × TokenForest :=
  (⟨forest.nodes.size⟩, ⟨forest.nodes.push ⟨some token.index, forest.isCancelled token⟩⟩)

/-- Whether a node, put behind those already settled, is cancelled through its parent. -/
def inherits (settled : Array TokenNode) (node : TokenNode) : Bool :=
  match node.parent with
  | none => false
  | some parent =>
      match settled[parent]? with
      | none => false
      | some parent => parent.cancelled

/-- Settles one more node: it is the target, or its parent is cancelled, or it keeps its mark. -/
def settle (target : Nat) (settled : Array TokenNode) (node : TokenNode) : Array TokenNode :=
  settled.push
    { node with
      cancelled := node.cancelled || settled.size == target || inherits settled node }

/-- Cancels a token and all below it.  Parents come before their children, so one pass over the
forest reaches every descendant. -/
def cancel (forest : TokenForest) (token : Token) : TokenForest :=
  if forest.isCancelled token then forest
  else ⟨forest.nodes.foldl (settle token.index) #[]⟩

/-! ### What the operations do -/

@[simp] theorem size_root (forest : TokenForest) :
    forest.root.2.nodes.size = forest.nodes.size + 1 := by
  simp [root]

@[simp] theorem size_child (forest : TokenForest) (token : Token) :
    (forest.child token).2.nodes.size = forest.nodes.size + 1 := by
  simp [child]

theorem isCancelled_root (forest : TokenForest) :
    forest.root.2.isCancelled forest.root.1 = false := by
  simp [root, isCancelled]

/-- A child is born as its parent is. -/
theorem isCancelled_child (forest : TokenForest) (token : Token) :
    (forest.child token).2.isCancelled (forest.child token).1 = forest.isCancelled token := by
  simp [child, isCancelled]

@[simp] theorem size_settle (target : Nat) (settled : Array TokenNode) (node : TokenNode) :
    (settle target settled node).size = settled.size + 1 := by
  simp [settle]

@[simp] theorem size_cancel (forest : TokenForest) (token : Token) :
    (forest.cancel token).nodes.size = forest.nodes.size := by
  have step (nodes : List TokenNode) (settled : Array TokenNode) :
      (nodes.foldl (settle token.index) settled).size = settled.size + nodes.length := by
    induction nodes generalizing settled with
    | nil => simp
    | cons node nodes ih => simp [ih]; omega
  unfold cancel
  split
  · rfl
  · simp [← Array.foldl_toList, step]

end TokenForest

end StatePool
