import StatePool.Token

/-!
Request contexts, and the book of contexts that a caller holds by name.

A context carries a token and a table of labels.  Deriving a context takes the labels as they are;
what happens to either one afterwards leaves the other alone.
-/

namespace StatePool

structure Context where
  id : String
  token : Token
  /-- Each key at most once. -/
  labels : List (String × String) := []
  deriving DecidableEq, Repr, Inhabited

/-- The value of a key after a new write to it is the new one. -/
def Context.label (context : Context) (key value : String) : Context :=
  { context with labels := (key, value) :: context.labels.filter fun entry => entry.1 != key }

def backgroundId : String := "background"

structure ContextBook where
  tokens : TokenForest := {}
  named : List (String × Context) := []
  deriving DecidableEq, Repr, Inhabited

/-- One step of a caller that makes, derives and cancels contexts.  Where `name` is held already,
the new context takes the place of the old one. -/
inductive ContextAction where
  | create (name id : String)
  | child (name parent id : String)
  | clone (name source : String)
  | label (name key value : String)
  | adopt (name source : String)
  | adoptChild (name source : String)
  | renew (name : String)
  | cancel (name : String)
  | drop (name : String)
  deriving DecidableEq, Repr

namespace ContextBook

def get? (book : ContextBook) (name : String) : Option Context :=
  book.named.lookup name

def hold (book : ContextBook) (name : String) (context : Context) : ContextBook :=
  { book with named := (name, context) :: book.named.filter fun entry => entry.1 != name }

def isCancelled (book : ContextBook) (context : Context) : Bool :=
  book.tokens.isCancelled context.token

/-- A context with a token of its own, held by nobody yet. -/
def fresh (book : ContextBook) (id : String) : Context × ContextBook :=
  let (token, tokens) := book.tokens.root
  ({ id, token }, { book with tokens })

/-- A context below another one, with the labels of that one. -/
def derive (book : ContextBook) (parent : Context) (id : String) : Context × ContextBook :=
  let (token, tokens) := book.tokens.child parent.token
  ({ parent with id, token }, { book with tokens })

def cancelToken (book : ContextBook) (token : Token) : ContextBook :=
  { book with tokens := book.tokens.cancel token }

/-- Cancels the context of a name, if there is one. -/
def cancelNamed (book : ContextBook) (name : String) : ContextBook :=
  match book.get? name with
  | none => book
  | some context => book.cancelToken context.token

/-- Carries out a step; one that names a context nobody holds changes nothing. -/
def apply (book : ContextBook) : ContextAction → ContextBook
  | .create name id =>
      let (context, book) := book.fresh id
      book.hold name context
  | .child name parent id =>
      match book.get? parent with
      | none => book
      | some parent =>
          let (context, book) := book.derive parent id
          book.hold name context
  | .clone name source =>
      match book.get? source with
      | none => book
      | some source => book.hold name source
  | .label name key value =>
      match book.get? name with
      | none => book
      | some context => book.hold name (context.label key value)
  | .adopt name source =>
      match book.get? name, book.get? source with
      | some context, some source => book.hold name { context with token := source.token }
      | _, _ => book
  | .adoptChild name source =>
      match book.get? name, book.get? source with
      | some context, some source =>
          let (token, tokens) := book.tokens.child source.token
          { book with tokens }.hold name { context with token }
      | _, _ => book
  | .renew name =>
      match book.get? name with
      | none => book
      | some context =>
          let (token, tokens) := book.tokens.root
          { book with tokens }.hold name { context with token }
  | .cancel name => book.cancelNamed name
  | .drop name => { book with named := book.named.filter fun entry => entry.1 != name }

end ContextBook

end StatePool
