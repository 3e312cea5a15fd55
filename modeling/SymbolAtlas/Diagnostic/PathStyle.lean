import SymbolAtlas.Path

set_option autoImplicit false

/-! # How reports show paths -/

namespace SymbolAtlas

/-- How reports show the path of a file. -/
inductive PathStyle where
  /-- As it is, but a long absolute path by its last part only. -/
  | short
  /-- From the root. -/
  | absolute
  /-- From the base directory, if the file is below it. -/
  | relative
  /-- By the last part only. -/
  | lastPart
  deriving DecidableEq, Repr

/-- The style of a number; any other number asks for the short style. -/
def PathStyle.ofNumber : Nat → PathStyle
  | 1 => .absolute
  | 2 => .relative
  | 3 => .lastPart
  | _ => .short

/-- What the display of paths depends on. -/
structure PathView where
  style : PathStyle := .short
  /-- The directory that relative paths are shown from; empty for none. -/
  baseDir : String := ""
  /-- The directory that relative paths are taken from. -/
  workingDir : String := "/"

namespace PathView

/-- The number of bytes from which an absolute path counts as long. -/
def longPath : Nat := 40

def render (v : PathView) (path : String) : String :=
  match v.style with
  | .absolute => Path.absolute v.workingDir path
  | .relative =>
    if v.baseDir == "" then path
    else
      match Path.relative? v.baseDir path with
      | some way => if way.startsWith ".." then path else way
      | none => path
  | .lastPart => Path.base path
  | .short =>
    if Path.isAbsolute path && longPath < path.utf8ByteSize then Path.base path else path

end PathView

end SymbolAtlas
