set_option autoImplicit false

/-! # Errors of file operations -/

namespace SymbolAtlas

/-- Why a file operation was refused. -/
inductive FileCause where
  | notFound
  | notDirectory
  | isDirectory
  | notPermitted
  | closed
  /-- A name or a path of too many bytes. -/
  | nameTooLong
  /-- A path that no file can have. -/
  | invalidPath
  /-- Any other reason, in the words of the system. -/
  | other (reason : String)
  deriving DecidableEq, Repr

def FileCause.message : FileCause → String
  | .notFound => "no such file or directory"
  | .notDirectory => "not a directory"
  | .isDirectory => "is a directory"
  | .notPermitted => "permission denied"
  | .closed => "file already closed"
  | .nameTooLong => "file name too long"
  | .invalidPath => "invalid argument"
  | .other reason => reason

/-- A refused file operation. -/
structure FileError where
  operation : String
  path : String
  cause : FileCause
  deriving DecidableEq, Repr

def FileError.message (e : FileError) : String :=
  e.operation ++ " " ++ e.path ++ ": " ++ e.cause.message

end SymbolAtlas
