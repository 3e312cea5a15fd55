import SymbolAtlas.Diagnostic.Basic
import SymbolAtlas.Manifest.Entry
import SymbolAtlas.Symbol.Attribute
import SymbolAtlas.Text.Numeral

set_option autoImplicit false

/-! # Reading annotations

An annotation with a meaning of its own takes its first argument, or has a default. One with a
malformed argument is reported and kept by its name, so that nothing of the manifest is lost. -/

namespace SymbolAtlas.Binding

open Manifest

/-- The attribute of an annotation, or what is wrong with its arguments. -/
def readAnnotation (a : Annotation) : Except String Attribute :=
  let arg (default : String) : String := a.args.headD default
  match a.name with
  | "synced" => .ok (.synced (arg "none"))
  | "recursive" => .ok .recursive
  | "execution_order" =>
    match Text.Numeral.decimal (arg "0") with
    | .ok order => .ok (.executionOrder order)
    | .error refusal =>
      .error ("order must be an integer: " ++ refusal.message "Atoi" (arg "0"))
  | "field_callback" =>
    if arg "" = "" then .error "missing target property" else .ok (.fieldCallback (arg ""))
  | "behaviour_sync" => .ok (.behaviourSync (arg "any"))
  | name => .ok (.named name a.args)

def keptAttribute (a : Annotation) : Attribute :=
  match readAnnotation a with
  | .ok attr => attr
  | .error _ => .named a.name a.args

def attributes (e : Entry) : List Attribute :=
  e.draft.annotations.map keptAttribute

def attributeReports (e : Entry) : List Diagnostic :=
  e.draft.annotations.filterMap fun a =>
    match readAnnotation a with
    | .ok _ => none
    | .error reason =>
      some (.warning .manifestParse e.span e.key
        ("attribute " ++ Text.quote a.name ++ " on " ++ Text.quote e.key ++ ": " ++ reason))

end SymbolAtlas.Binding
