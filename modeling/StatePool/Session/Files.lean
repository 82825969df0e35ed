/-!
The files that scripts are read from: a directory of texts and further directories.

A path is followed step by step from that directory.  It may climb out of it: there are directories
above, and nothing in them is known by name.
-/

namespace StatePool

/-- Why a file could not be read. -/
inductive FileFault where
  | missing
  | isDirectory
  | notDirectory
  | nameTooLong
  | nulInName
  deriving DecidableEq, Repr

def FileFault.message : FileFault → String
  | .missing => "No such file or directory (os error 2)"
  | .isDirectory => "Is a directory (os error 21)"
  | .notDirectory => "Not a directory (os error 20)"
  | .nameTooLong => "File name too long (os error 36)"
  | .nulInName => "file name contained an unexpected NUL byte"

structure Files where
  files : List (String × String) := []
  directories : List String := []
  deriving DecidableEq, Repr, Inhabited

namespace Files

/-- A path of this many bytes is too long. -/
def pathLimit : Nat := 4096

/-- The longest name of a file, in bytes. -/
def nameLimit : Nat := 255

/-! ### Paths -/

/-- The parts of a path between its slashes. -/
def parts : List Char → List (List Char)
  | [] => [[]]
  | '/' :: s => [] :: parts s
  | c :: s =>
      match parts s with
      | [] => [[c]]
      | part :: rest => (c :: part) :: rest

/-- The parts of a path that are not empty. -/
def steps (path : List Char) : List (List Char) :=
  (parts path).filter (!·.isEmpty)

/-- Where the name of a known file or directory leads. -/
def place (name : String) : List (List Char) :=
  (steps name.toList).filter (· != ['.'])

/-! ### Walks -/

/-- Where a walk along a path stands. -/
inductive Spot where
  | file (text : String)
  /-- In the directory with the files or below it. -/
  | directory (place : List (List Char))
  | above
  deriving DecidableEq, Repr

def spot? (files : Files) (target : List (List Char)) : Option Spot :=
  match files.files.find? fun file => place file.1 == target with
  | some file => some (.file file.2)
  | none =>
      let leadsTo (name : String) : Bool := target.isPrefixOf (place name)
      if target.isEmpty || files.directories.any leadsTo || files.files.any (leadsTo ·.1) then
        some (.directory target)
      else none

def enter (files : Files) (part : List Char) : Spot → Except FileFault Spot
  | .file _ => .error .notDirectory
  | .directory here =>
      if part = ['.'] then .ok (.directory here)
      else if part = ['.', '.'] then
        .ok (if here.isEmpty then .above else .directory here.dropLast)
      else if nameLimit < (String.ofList part).utf8ByteSize then .error .nameTooLong
      else
        match files.spot? (here ++ [part]) with
        | none => .error .missing
        | some spot => .ok spot
  | .above =>
      if part = ['.'] || part = ['.', '.'] then .ok .above
      else if nameLimit < (String.ofList part).utf8ByteSize then .error .nameTooLong
      else .error .missing

/-- Where a path leads; one that ends with a slash leads into a directory. -/
def follow (files : Files) (path : List Char) : Except FileFault Spot :=
  let start : Spot := if path.head? = some '/' then .above else .directory []
  let last := if path.getLast? = some '/' then [['.']] else []
  (steps path ++ last).foldlM (fun spot part => files.enter part spot) start

def read (files : Files) (path : String) : Except FileFault String :=
  if '\x00' ∈ path.toList then .error .nulInName
  else if path.isEmpty then .error .missing
  else if pathLimit ≤ path.utf8ByteSize then .error .nameTooLong
  else
    match files.follow path.toList with
    | .error fault => .error fault
    | .ok (.file text) => .ok text
    | .ok (.directory _) => .error .isDirectory
    | .ok .above => .error .isDirectory

end Files

end StatePool
