import SymbolAtlas.Path
import SymbolAtlas.Source.File

set_option autoImplicit false

/-! # File sets

Every file read in a run is kept under a number, counted from one, so that spans can be traced back
to lines and columns. A path that is added again gets a new number.

Numbers and offsets have 32 bits. A content of 2^32 bytes, or as many files, is more than the
program takes: it stops there, while `add` goes on with numbers that wrap. What is said about
offsets and numbers therefore asks for less. -/

namespace SymbolAtlas

/-- The files of a run; file number `n` stands at place `n - 1`. -/
structure FileSet where
  files : Array File := #[]

namespace FileSet

def add (fs : FileSet) (path : String) (content : List UInt8) (flags : FileFlags) :
    UInt32 × FileSet :=
  let id := UInt32.ofNat (fs.files.size + 1)
  (id, ⟨fs.files.push (.ofContent id (Path.clean path) content flags)⟩)

def addVirtual (fs : FileSet) (path : String) (content : List UInt8) : UInt32 × FileSet :=
  fs.add path content .inMemory

/-- Keeps a file that was read: a byte order mark and the carriage returns of line ends are
dropped. -/
def addRead (fs : FileSet) (path : String) (bytes : List UInt8) : UInt32 × FileSet :=
  let hadMark := Text.Bytes.byteOrderMark.isPrefixOf bytes
  let body := if hadMark then bytes.drop 3 else bytes
  fs.add path (Text.Bytes.dropReturns body) (.ofReading hadMark (Text.Bytes.hasReturns body))

def get? (fs : FileSet) (id : UInt32) : Option File :=
  if id = 0 then none else fs.files[id.toNat - 1]?

/-- The number of the file last added under a path. -/
def latest? (fs : FileSet) (path : String) : Option UInt32 :=
  let path := Path.clean path
  (fs.files.toList.reverse.find? (·.path == path)).map File.id

/-- The positions of a span's ends; both are zero for a span without a file. -/
def resolve (fs : FileSet) (span : Span) : Position × Position :=
  match fs.get? span.file with
  | none => ({}, {})
  | some f => (f.position span.start, f.position span.stop)

/-- The line of a file that holds the first occurrence of `needle` at or after `start`. -/
def findLine? (fs : FileSet) (id : UInt32) (needle : List UInt8) (start : UInt32) : Option Span :=
  (fs.get? id).bind (·.findLine? needle start)

end FileSet

end SymbolAtlas
