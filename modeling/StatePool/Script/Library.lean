import StatePool.Config.Raw
import StatePool.Script.Value

/-!
What scripts find in an interpreter that no script has run on.
-/

namespace StatePool.Script.Library

def base : List String :=
  ["assert", "collectgarbage", "dofile", "error", "getmetatable", "ipairs", "load", "loadfile",
    "next", "pairs", "pcall", "print", "rawequal", "rawget", "rawlen", "rawset", "select",
    "setmetatable", "tonumber", "tostring", "type", "warn", "xpcall"]

def functions : String → List String
  | "coroutine" =>
      ["close", "create", "isyieldable", "resume", "running", "status", "wrap", "yield"]
  | "io" =>
      ["close", "flush", "input", "lines", "open", "output", "popen", "read", "tmpfile", "type",
        "write"]
  | "math" =>
      ["abs", "acos", "asin", "atan", "ceil", "cos", "deg", "exp", "floor", "fmod", "log", "max",
        "min", "modf", "rad", "random", "randomseed", "sin", "sqrt", "tan", "tointeger", "type",
        "ult"]
  | "os" =>
      ["clock", "date", "difftime", "execute", "exit", "getenv", "remove", "rename", "setlocale",
        "time", "tmpname"]
  | "package" => ["loadlib", "searchpath"]
  | "string" =>
      ["byte", "char", "dump", "find", "format", "gmatch", "gsub", "len", "lower", "match", "pack",
        "packsize", "rep", "reverse", "sub", "unpack", "upper"]
  | "table" => ["concat", "insert", "move", "pack", "remove", "sort", "unpack"]
  | "utf8" => ["char", "codepoint", "codes", "len", "offset"]
  | _ => []

def number? : String → Option Number
  | "math.pi" => some (.float 3.141592653589793)
  | "math.huge" => some (.float (1.0 / 0.0))
  | "math.maxinteger" => some (.int Int64.maxValue)
  | "math.mininteger" => some (.int Int64.minValue)
  | _ => none

def qualified (library key : String) : String := library ++ "." ++ key

def member (library key : String) : Value :=
  if library = "string" ∧ key = "rep" then .builtin .repeatText
  else if key ∈ functions library then .builtin (.other (qualified library key))
  else
    match number? (qualified library key) with
    | some n => .number n
    | none => .nil

/-- What a name means before any script has set it. -/
def lookup (libs : LibSet) (name : String) : Value :=
  if name = "error" then .builtin .raise
  else if name = "pcall" then .builtin .protect
  else if name ∈ base then .builtin (.other name)
  else if name = "_VERSION" then .ofString "Lua 5.4"
  else if name = "_G" ∨ name ∈ libs.libraries then .library name
  else if name = "require" ∧ "package" ∈ libs.libraries then .builtin (.other name)
  else .nil

/-- The name under which a function can be found; those of the host have none. -/
def nameOf? : Builtin → Option String
  | .raise => some "error"
  | .protect => some "pcall"
  | .repeatText => some (qualified "string" "rep")
  | .other name => some name
  | .hostCancel | .hostAdvance | .hostFail => none

def globals : String := "_G"

end StatePool.Script.Library
