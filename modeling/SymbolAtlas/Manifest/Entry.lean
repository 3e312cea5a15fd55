import SymbolAtlas.Manifest.Key
import SymbolAtlas.Symbol.Declaration
import SymbolAtlas.Toml.Shape

set_option autoImplicit false

/-! # Entries of a manifest

An entry describes one program entity: what it is, where it is declared, and which other entities it
names. It is read from a table of the manifest as a draft, whose kind is still a word. -/

namespace SymbolAtlas.Manifest

/-- An annotation as it is written. -/
structure Annotation where
  name : String
  args : List String := []
  deriving DecidableEq, Repr

/-- An entry whose kind has not been read yet. -/
structure Draft where
  key : String
  kindName : String
  name : String := ""
  /-- The key of the type that the entity is declared in; empty for none. -/
  containing : String := ""
  flags : Flags := {}
  base : String := ""
  implements : List String := []
  type : String := ""
  returns : String := ""
  params : List String := []
  references : List String := []
  overrides : String := ""
  template : String := ""
  annotations : List Annotation := []
  deriving DecidableEq, Repr

namespace Draft

def annotationShape : Toml.Shape :=
  .record "manifest.Attribute" [("name", .text), ("args", .list .text)]

def fields : List (String × Toml.Shape) :=
  [("key", .text), ("kind", .text), ("name", .text), ("containing", .text),
    ("static", .boolean), ("extern", .boolean), ("interface", .boolean), ("abstract", .boolean),
    ("virtual", .boolean), ("base", .text), ("implements", .list .text), ("type", .text),
    ("returns", .text), ("params", .list .text), ("references", .list .text), ("overrides", .text),
    ("original", .text), ("attribute", .list annotationShape)]

def shape : Toml.Shape :=
  .record "manifest.Entry" fields

def manifestFields : List (String × Toml.Shape) :=
  [("symbol", .list shape)]

def flagsOf (t : Toml.Fields) : Flags :=
  let flag (name : String) (f : Flags) : Flags := if (t.boolean? name).getD false then f else {}
  [flag "static" .static, flag "extern" .external, flag "interface" .interface,
    flag "abstract" .abstract, flag "virtual" .virtual].foldl Flags.union {}

/-- The entry of a table that fits the shape. Keys are normalised, and the names of annotations are
put in lower case too. -/
def ofFields (t : Toml.Fields) : Draft where
  key := normalizeKey (t.text "key")
  kindName := t.text "kind"
  name := normalizeKey (t.text "name")
  containing := normalizeKey (t.text "containing")
  flags := flagsOf t
  base := normalizeKey (t.text "base")
  implements := normalizeKeys (t.texts "implements")
  type := normalizeKey (t.text "type")
  returns := normalizeKey (t.text "returns")
  params := normalizeKeys (t.texts "params")
  references := normalizeKeys (t.texts "references")
  overrides := normalizeKey (t.text "overrides")
  template := normalizeKey (t.text "original")
  annotations := (t.tables "attribute").map fun a =>
    ⟨Text.lower (normalizeKey (a.text "name")), a.texts "args"⟩

end Draft

/-- An entry of a program. -/
structure Entry where
  draft : Draft
  kind : Kind
  /-- The line of the key. -/
  span : Span
  /-- The place of the entry that this one is declared in. -/
  owner : Option Nat := none
  deriving DecidableEq, Repr

namespace Entry

def key (e : Entry) : String :=
  e.draft.key

/-- The name that is shown: the given one, else the last part of the key. -/
def displayName (e : Entry) : String :=
  if e.draft.name != "" then e.draft.name
  else String.ofList (e.key.toList.reverse.takeWhile (· != '.')).reverse

def declaration (e : Entry) : Declaration where
  key := e.key
  name := e.displayName
  kind := e.kind
  flags := e.draft.flags
  span := some e.span

end Entry

end SymbolAtlas.Manifest
