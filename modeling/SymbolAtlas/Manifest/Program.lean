import SymbolAtlas.Diagnostic.Basic
import SymbolAtlas.Files.Load
import SymbolAtlas.Manifest.Entry

set_option autoImplicit false

/-! # Programs

A program is a manifest whose entries have been checked. Entries without a key, of an unknown kind,
or with a key that is taken are dropped. A link to a containing type that leads nowhere, to
something that is no type, or back to itself is dropped and the entry kept. Everything dropped is
reported. -/

namespace SymbolAtlas.Manifest

/-- A checked manifest. -/
structure Program where
  path : String
  file : UInt32
  digest : List UInt8
  entries : Array Entry

namespace Program

def find? (p : Program) (key : String) : Option Nat :=
  p.entries.toList.findIdx? (·.key == key)

def get? (p : Program) (key : String) : Option Entry :=
  p.entries.toList.find? (·.key == key)

/-- The key of the entry that another one is declared in. -/
def ownerKey? (p : Program) (e : Entry) : Option String :=
  e.owner.bind fun i => p.entries[i]?.map Entry.key

def outline (p : Program) : Outline where
  items := p.entries.map fun e => { declaration := e.declaration, owner := e.owner }

end Program

/-! ## Locating entries -/

/-- The line that an entry stands on, and where the search for the next entry starts. Entries are
found by their headers, one after the other; the line of the key is the first one after the header
that holds the key in quotes. -/
def locate (f : File) (key : String) (cursor : UInt32) : Span × UInt32 :=
  match f.findLine? (Text.Utf8.encode "[[symbol]]") cursor with
  | none => (⟨f.id, cursor, cursor⟩, cursor)
  | some header =>
    let line :=
      if key == "" then none
      else f.findLine? (Text.Utf8.encode ("\"" ++ key ++ "\"")) header.stop
    (line.getD header, header.stop)

/-! ## Admitting entries -/

/-- The entries kept so far, what was reported, and where the search for the next entry starts. -/
structure Admission where
  kept : List Entry := []
  reports : List Diagnostic := []
  cursor : UInt32 := 0

namespace Admission

def refuse (a : Admission) (d : Diagnostic) : Admission :=
  { a with reports := a.reports ++ [d] }

def consider (f : File) (a : Admission) (d : Draft) : Admission :=
  let (span, cursor) := locate f d.key a.cursor
  let a := { a with cursor }
  if d.key = "" then
    a.refuse (.error .manifestEmptyKey span "" "symbol entry has no key")
  else
    match Kind.parse? d.kindName with
    | none => a.refuse (.error .manifestUnknownKind span d.key (Kind.unknownMessage d.kindName))
    | some kind =>
      match a.kept.find? (·.key == d.key) with
      | some previous =>
        a.refuse { Diagnostic.error .manifestDuplicateKey span d.key
                    ("duplicate symbol " ++ Text.quote d.key) with
          notes := [⟨previous.span, "previous declaration here"⟩] }
      | none => { a with kept := a.kept ++ [{ draft := d, kind, span }] }

end Admission

/-! ## Containing types -/

/-- The place of the containing type of an entry, or why there is none. An entry that names no
containing type has none and needs no reason. -/
def ownerOf (kept : List Entry) (e : Entry) : Option Nat × List Diagnostic :=
  let containing := e.draft.containing
  if containing = "" then (none, [])
  else
    match kept.findIdx? (·.key == containing), kept.find? (·.key == containing) with
    | some place, some owner =>
      if owner.kind = .type then (some place, [])
      else
        (none, [{ Diagnostic.error .badContainingType e.span e.key
                    (Text.quote owner.key ++ " is a " ++ owner.kind.name
                      ++ " and cannot contain " ++
                      Text.quote e.key) with
          notes := [⟨owner.span, "declared here"⟩] }])
    | _, _ =>
      (none, [.error .manifestMissingContaining e.span e.key
        ("containing type " ++ Text.quote containing ++ " of " ++ Text.quote e.key ++
          " is not declared")])

/-- Whether the links from `place` on lead to a place that was seen. A walk that sees no place twice
has at most as many steps as there are places. -/
def loops (links : Array (Option Nat)) : (fuel : Nat) → (seen : List Nat) → (place : Nat) → Bool
  | 0, _, _ => false
  | fuel + 1, seen, place =>
    match links[place]?.join with
    | none => false
    | some next => seen.contains next || loops links fuel (next :: seen) next

/-- Cuts the link of each entry, in order, whose links lead round in a circle. The result also lists
the places of the cut links. -/
def cutLoops (links : Array (Option Nat)) : (places : List Nat) → Array (Option Nat) × List Nat
  | [] => (links, [])
  | i :: places =>
    if loops links (links.size + 1) [i] i then
      let (rest, cut) := cutLoops (links.setIfInBounds i none) places
      (rest, i :: cut)
    else cutLoops links places

/-- What is said of an entry whose link lies on a circle. -/
def circleReport (e : Entry) : Diagnostic :=
  .error .badContainingType e.span e.key
    ("containing chain of " ++ Text.quote e.key ++ " loops back on itself")

/-- The entries without the links that lead round in a circle, and a report for each of those. -/
def cutCircles (entries : List Entry) : List Entry × List Diagnostic :=
  let (links, cut) := cutLoops (entries.map Entry.owner).toArray (List.range entries.length)
  (entries.mapIdx fun i e => { e with owner := links[i]?.join },
    cut.filterMap fun i => entries[i]?.map circleReport)

/-- The entries with their links, and what was reported about the links. -/
def linkEntries (kept : List Entry) : Array Entry × List Diagnostic :=
  let linked := kept.map fun e => { e with owner := (ownerOf kept e).1 }
  let (entries, circular) := cutCircles linked
  (entries.toArray, kept.flatMap (fun e => (ownerOf kept e).2) ++ circular)

/-- The program of some drafts in a file, and what was reported. -/
def ofDrafts (f : File) (drafts : List Draft) : Program × List Diagnostic :=
  let admission := drafts.foldl (Admission.consider f) {}
  let (entries, reports) := linkEntries admission.kept
  ({ path := f.path, file := f.id, digest := f.digest, entries }, admission.reports ++ reports)

/-! ## Reading -/

/-- Why there is no program. -/
inductive Error where
  | unreadable (e : FileError)
  | unknownFile (id : UInt32)
  | malformed (path : String) (e : Toml.ReadError)

def Error.message : Error → String
  | .unreadable e => "manifest: " ++ e.message
  | .unknownFile id => "manifest: unknown file " ++ toString id.toNat
  | .malformed path e => "manifest " ++ path ++ ": " ++ e.message

/-- The place of an error in a file. A mismatch, and a place before the start of the file, has
none. -/
def errorSpan (id : UInt32) : Toml.ReadError → Span
  | .mismatch _ => { file := id }
  | .malformed e =>
    if e.place.start < 0 then { file := id }
    else
      let start := UInt32.ofNat e.place.start.toNat
      ⟨id, start, start + UInt32.ofNat e.place.length⟩

/-- Reads the manifest in a file, and reports what is wrong with it. -/
def decode (f : File) : Except Error Program × List Diagnostic :=
  match Toml.Document.read Draft.manifestFields f.content with
  | .error e =>
    (.error (.malformed f.path e),
      [.error .manifestParse (errorSpan f.id e) "" ("malformed manifest: " ++ e.message)])
  | .ok (fields, unknown) =>
    let warnings := unknown.map fun k =>
      Diagnostic.warning .manifestParse { file := f.id } ""
        ("unknown manifest field " ++ Text.quote (Toml.Key.toText k) ++ " ignored")
    let (program, reports) := ofDrafts f ((fields.tables "symbol").map Draft.ofFields)
    (.ok program, warnings ++ reports)

def decodeFile (fs : FileSet) (id : UInt32) : Except Error Program × List Diagnostic :=
  match fs.get? id with
  | none => (.error (.unknownFile id), [])
  | some f => decode f

def load {m : Type → Type} [Monad m] [Host m] (fs : FileSet) (path : String) :
    m (FileSet × Except Error Program × List Diagnostic) := do
  match ← fs.load path with
  | (.error e, fs) =>
    return (fs, .error (.unreadable e),
      [.error .loadFailed {} "" ("cannot read manifest " ++ path ++ ": " ++ e.message)])
  | (.ok id, fs) => return (fs, decodeFile fs id)

end SymbolAtlas.Manifest
