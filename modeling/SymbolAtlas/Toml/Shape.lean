import SymbolAtlas.Toml.Document

set_option autoImplicit false

/-! # Shapes of documents

A program says what it reads from a document by a shape. A document fits a shape if every field the
shape knows has a value of its kind; fields that the shape does not know are listed, in order. The
name of a field is matched exactly or, failing that, whatever its case. -/

namespace SymbolAtlas.Toml

/-- What a value is read as. -/
inductive Shape where
  | text
  | boolean
  | integer
  | list (item : Shape)
  /-- A table with given fields; messages call it by its name. -/
  | record (name : String) (fields : List (String × Shape))

/-- A value that does not fit its shape. -/
structure Mismatch where
  /-- The line on which the key of the value was last given, if it was. -/
  line : Option Int
  /-- The key of the value. -/
  key : Key
  reason : String

def Mismatch.message (m : Mismatch) : String :=
  if m.key.isEmpty then "toml: " ++ m.reason
  else
    let line := match m.line with
      | some n => "line " ++ toString n ++ " "
      | none => ""
    "toml: " ++ line ++ "(last key " ++ Text.quote (Key.toText m.key) ++ "): " ++ m.reason

namespace Shape

def destination : Shape → String
  | .text => "string"
  | .boolean => "boolean"
  | .integer => "integer"
  | .list _ => "slice"
  | .record name _ => name

/-- A character without its case, as far as letters of ASCII are concerned: the long s and the
kelvin sign are such letters in another guise. -/
def foldChar (c : Char) : Char :=
  if c.toNat == 0x17F then 's'
  else if c.toNat == 0x212A then 'k'
  else c.toLower

/-- A name without its case. -/
def fold (name : String) : List Char :=
  name.toList.map foldChar

def field? {α : Type} (fields : List (String × α)) (name : String) : Option (String × α) :=
  (fields.find? (·.1 == name)).or (fields.find? fun f => fold f.1 == fold name)

def mismatch (info : List (String × KeyInfo)) (key : Key) (reason : String) : Mismatch where
  line := (info.lookup (Key.toText key)).map (·.place.line) |>.filter (0 < ·)
  key := key
  reason := reason

def wrongKind (info : List (String × KeyInfo)) (key : Key) (s : Shape) (v : Value) : Mismatch :=
  mismatch info key <| match s with
    | .record name _ =>
      "type mismatch for " ++ name ++ ": expected table but found " ++ v.typeName
    | _ =>
      "incompatible types: TOML value has type " ++ v.typeName ++ "; destination has type " ++
        s.destination

mutual

/-- Checks a value; the result lists the keys that the shape knows. -/
def check (info : List (String × KeyInfo)) (key : Key) : (s : Shape) → Value →
    Except Mismatch (List Key)
  | .text, .text _ => .ok []
  | .boolean, .boolean _ => .ok []
  | .integer, .integer _ => .ok []
  | .list item, .array items => checkItems info key item items
  | .list item, .tables items => checkTables info key item items
  | .record _ fields, .table given => checkFields info key fields given
  | s, v => .error (wrongKind info key s v)
termination_by _ v => sizeOf v

def checkItems (info : List (String × KeyInfo)) (key : Key) (item : Shape) :
    List Value → Except Mismatch (List Key)
  | [] => .ok []
  | v :: items => do
    let first ← check info key item v
    return first ++ (← checkItems info key item items)
termination_by items => sizeOf items

def checkTables (info : List (String × KeyInfo)) (key : Key) (item : Shape) :
    List Fields → Except Mismatch (List Key)
  | [] => .ok []
  | given :: items => do
    let first ← match item with
      | .record _ fields => checkFields info key fields given
      | s => .error (wrongKind info key s (.table given))
    return first ++ (← checkTables info key item items)
termination_by items => sizeOf items

def checkFields (info : List (String × KeyInfo)) (key : Key) (fields : List (String × Shape)) :
    Fields → Except Mismatch (List Key)
  | [] => .ok []
  | (name, v) :: given => do
    let first ← match field? fields name with
      | none => pure []
      | some (_, s) => do
        let inner ← check info (key ++ [name]) s v
        pure ((key ++ [name]) :: inner)
    return first ++ (← checkFields info key fields given)
termination_by given => sizeOf given

end

/-- The keys of a document that a shape does not know. -/
def unknownKeys (d : Document) (known : List Key) : List Key :=
  let texts := known.map Key.toText
  d.keys.filter fun k => !texts.contains (Key.toText k)

end Shape

/-- Why a document was not read. -/
inductive ReadError where
  | malformed (e : ParseError)
  | mismatch (e : Mismatch)

def ReadError.message : ReadError → String
  | .malformed e => e.message
  | .mismatch e => e.message

/-- Reads a document of a shape. The result also lists the keys that the shape does not know. -/
def Document.read (fields : List (String × Shape)) (bytes : List UInt8) :
    Except ReadError (Fields × List Key) :=
  match Document.parse bytes with
  | .error e => .error (.malformed e)
  | .ok d =>
    match Shape.checkFields d.info [] fields d.fields with
    | .error e => .error (.mismatch e)
    | .ok known => .ok (d.fields, Shape.unknownKeys d known)

namespace Fields

/-- The value of a field, whatever the case of its name unless the case fits. -/
def get? (fields : Fields) (name : String) : Option Value :=
  (Shape.field? fields name).map Prod.snd

def text (fields : Fields) (name : String) : String :=
  match get? fields name with
  | some (.text s) => s
  | _ => ""

def boolean? (fields : Fields) (name : String) : Option Bool :=
  match get? fields name with
  | some (.boolean b) => some b
  | _ => none

def integer (fields : Fields) (name : String) : Int :=
  match get? fields name with
  | some (.integer n) => n
  | _ => 0

def texts (fields : Fields) (name : String) : List String :=
  match get? fields name with
  | some (.array items) => items.filterMap fun
    | .text s => some s
    | _ => none
  | _ => []

/-- The tables of a field, however they were written; none if it is not given. -/
def tables (fields : Fields) (name : String) : List Fields :=
  match get? fields name with
  | some (.tables items) => items
  | some (.array items) => items.filterMap fun
    | .table given => some given
    | _ => none
  | _ => []

def table (fields : Fields) (name : String) : Fields :=
  match get? fields name with
  | some (.table given) => given
  | _ => []

end Fields

end SymbolAtlas.Toml
