set_option autoImplicit false

/-! # Paths

Paths are texts with parts divided by `/`. `clean` gives the shortest path that names the same
place by text alone: empty parts and `.` are dropped and `..` takes back the part before it. -/

namespace SymbolAtlas.Path

def split (p : String) : List String :=
  (p.toList.splitOn '/').map String.ofList

def isAbsolute (p : String) : Bool :=
  p.toList.head? == some '/'

/-- A path as its clean parts, outermost first. -/
structure Clean where
  rooted : Bool
  parts : List String
  deriving DecidableEq, Repr

namespace Clean

/-- Walks one part further. Above the root there is only the root. -/
def step (p : Clean) (part : String) : Clean :=
  if part == "" || part == "." then p
  else if part == ".." then
    match p.parts.getLast? with
    | none => if p.rooted then p else ⟨p.rooted, [".."]⟩
    | some ".." => ⟨p.rooted, p.parts ++ [".."]⟩
    | some _ => ⟨p.rooted, p.parts.dropLast⟩
  else ⟨p.rooted, p.parts ++ [part]⟩

def ofText (p : String) : Clean :=
  (split p).foldl step ⟨isAbsolute p, []⟩

/-- The path's text; the empty relative path is the current place. -/
def toText (p : Clean) : String :=
  let body := "/".intercalate p.parts
  if p.rooted then "/" ++ body else if p.parts.isEmpty then "." else body

end Clean

def clean (p : String) : String :=
  (Clean.ofText p).toText

/-- Joins parts into one clean path; leading empty parts do not count. -/
def join (parts : List String) : String :=
  match parts.dropWhile (· == "") with
  | [] => ""
  | rest => clean ("/".intercalate rest)

def absolute (cwd p : String) : String :=
  if isAbsolute p then clean p else join [cwd, p]

def directory (p : String) : String :=
  clean (String.ofList ((p.toList.reverse.dropWhile (· != '/')).reverse))

/-- The last part of a path, without slashes behind it. -/
def base (p : String) : String :=
  if p == "" then "."
  else
    let trimmed := p.toList.reverse.dropWhile (· == '/')
    if trimmed.isEmpty then "/" else String.ofList (trimmed.takeWhile (· != '/')).reverse

/-- Drops the parts that two paths share at their start. -/
def dropShared : List String → List String → List String × List String
  | a :: as, b :: bs => if a == b then dropShared as bs else (a :: as, b :: bs)
  | as, bs => (as, bs)

/-- The way from the directory `base` to `target`, by text alone. There is none between a rooted
and an unrooted path, nor out of a `..` that leads somewhere unknown. -/
def relative? (base target : String) : Option String :=
  let b := Clean.ofText base
  let t := Clean.ofText target
  if b = t then some "."
  else if b.rooted != t.rooted then none
  else
    match dropShared b.parts t.parts with
    | (".." :: _, _ :: _) => none
    | (up, down) => some ("/".intercalate (up.map (fun _ => "..") ++ down))

end SymbolAtlas.Path
