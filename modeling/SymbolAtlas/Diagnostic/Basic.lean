import SymbolAtlas.Diagnostic.Code
import SymbolAtlas.Source.Span

set_option autoImplicit false

/-! # Diagnostics

A diagnostic is a finding at a place in a file, with notes that point at other places. -/

namespace SymbolAtlas

/-- How bad a finding is; the higher, the worse. -/
structure Severity where
  level : UInt8
  deriving DecidableEq, Repr, Inhabited

namespace Severity

def info : Severity := ⟨0⟩
def warning : Severity := ⟨1⟩
def error : Severity := ⟨2⟩

def name (s : Severity) : String :=
  if s = info then "INFO"
  else if s = warning then "WARNING"
  else if s = error then "ERROR"
  else "UNKNOWN"

def isError (s : Severity) : Bool :=
  error.level ≤ s.level

end Severity

/-- A remark on another place. -/
structure Note where
  span : Span
  message : String
  deriving DecidableEq, Repr

/-- A finding. -/
structure Diagnostic where
  severity : Severity := .info
  code : Code := .unknown
  message : String := ""
  span : Span := {}
  /-- The key of the symbol that the finding is about, if there is one. -/
  subject : String := ""
  notes : List Note := []
  deriving DecidableEq, Repr

namespace Diagnostic

def error (code : Code) (span : Span) (subject message : String) : Diagnostic :=
  { severity := .error, code, message, span, subject }

def warning (code : Code) (span : Span) (subject message : String) : Diagnostic :=
  { severity := .warning, code, message, span, subject }

end Diagnostic

end SymbolAtlas
