import SymbolAtlas.Text.Bytes
import SymbolAtlas.Toml.Literal
import SymbolAtlas.Toml.Scanner

set_option autoImplicit false

/-! # Documents

A document is built from its tokens. A header opens a table, the pairs after it become its fields.
Tables may come into being before they are opened, as the way to another table: such a table may
still be opened once. A key that is given twice is an error, except that an array always replaces
what stood there.

Beside the values a document remembers its keys in order, and where each key was last given. -/

namespace SymbolAtlas.Toml

/-- A malformed document. -/
structure ParseError where
  place : Place
  /-- The key that was read last; empty if there was none. -/
  lastKey : String
  reason : String
  deriving DecidableEq, Repr

def ParseError.message (e : ParseError) : String :=
  let key := if e.lastKey == "" then "" else " (last key " ++ Text.quote e.lastKey ++ ")"
  "toml: line " ++ toString e.place.line ++ key ++ ": " ++ e.reason

/-- What is known of a key. -/
structure KeyInfo where
  /-- Whether it was last given an array of values. -/
  isArray : Bool
  place : Place

/-- A document. -/
structure Document where
  fields : Fields := []
  /-- The keys of headers and pairs, in order. -/
  keys : List Key := []
  /-- What is known of keys, by their text. -/
  info : List (String × KeyInfo) := []

/-- A document under construction. -/
structure Builder extends Document where
  /-- The number of tokens of the document. -/
  size : Nat
  /-- The tokens still to be read. -/
  tokens : List Token
  /-- The failure that stands after the tokens. -/
  failure : Option Failure
  /-- The table that pairs go to. -/
  context : Key := []
  /-- The last part of the key whose value is being read. -/
  currentKey : String := ""
  /-- The tables that were only passed through, by the text of their keys. -/
  implicits : List String := []
  /-- The place of the key that was read last. -/
  place : Place := {}

abbrev BuildM (α : Type) : Type :=
  ExceptT ParseError (StateM Builder) α

namespace BuildM

/-- The key that is being read. -/
def current : BuildM String := do
  let b ← get
  if b.currentKey == "" then return Key.toText b.context
  else if b.context.isEmpty then return b.currentKey
  else return Key.toText b.context ++ "." ++ b.currentKey

def failAt {α : Type} (place : Place) (reason : String) : BuildM α := do
  throw ⟨place, ← current, reason⟩

def fail {α : Type} (reason : String) : BuildM α := do
  failAt (← get).place reason

/-- Takes a token; `none` at the end of the document. -/
def next? : BuildM (Option Token) := do
  let b ← get
  match b.tokens with
  | t :: tokens =>
    set { b with tokens }
    return some t
  | [] =>
    match b.failure with
    | some f => failAt f.place f.message
    | none => return none

/-! ## Keys and tables -/

def addImplicit (key : Key) : BuildM Unit :=
  modify fun b => { b with implicits := Key.toText key :: b.implicits }

def removeImplicit (key : Key) : BuildM Unit :=
  modify fun b => { b with implicits := b.implicits.filter (· != Key.toText key) }

def addKey (key : Key) : BuildM Unit :=
  modify fun b => { b with keys := b.keys ++ [key] }

/-- Remembers where a key was given; without a name it is the key of the open table. -/
def setInfo (name : String) (isArray : Bool) (place : Place) : BuildM Unit :=
  modify fun b =>
    let key := if name == "" then b.context else b.context ++ [name]
    let text := Key.toText (if key.isEmpty then [""] else key)
    { b with info := (text, ⟨isArray, place⟩) :: b.info.filter (·.1 != text) }

/-- The fields of a table on the way to another: of repeated tables the last one counts. -/
def Step.fields? : Value → Option Fields
  | .table fields => some fields
  | .tables items => items.getLast?
  | _ => none

/-- Puts fields back where `Step.fields?` found them. -/
def Step.withFields (fields : Fields) : Value → Value
  | .tables items => .tables (items.dropLast ++ [fields])
  | _ => .table fields

/-- The ways in which a document refuses a key. -/
inductive Conflict where
  | notTable (key : Key)
  | notArray (key : Key)
  | defined (key : Key)

def Conflict.message : Conflict → String
  | .notTable key => "Key '" ++ Key.toText key ++ "' was already created as a hash."
  | .notArray key =>
    "Key '" ++ Key.toText key ++ "' was already created and cannot be used as an array."
  | .defined key => "Key '" ++ Key.toText key ++ "' has already been defined."

def updateAt (change : Fields → Except Conflict Fields) :
    (way passed : Key) → Fields → Except Conflict Fields
  | [], _, fields => change fields
  | name :: way, passed, fields =>
    let passed := passed ++ [name]
    match fields.lookup name with
    | none => .error (.defined passed)
    | some v =>
      match Step.fields? v with
      | none => .error (.defined passed)
      | some inner => do
        let inner ← updateAt change way passed inner
        return Fields.set fields name (Step.withFields inner v)

def fieldsAt? : (way : Key) → Fields → Option Fields
  | [], fields => some fields
  | name :: way, fields => do
    let v ← fields.lookup name
    let inner ← Step.fields? v
    fieldsAt? way inner

/-- Makes the tables that are missing on a way; the result also lists their keys. -/
def openWay : (way passed : Key) → Fields → Except Conflict (List Key × Fields)
  | [], _, fields => .ok ([], fields)
  | name :: way, passed, fields =>
    let passed := passed ++ [name]
    match fields.lookup name with
    | none => do
      let (made, inner) ← openWay way passed []
      return (passed :: made, Fields.set fields name (.table inner))
    | some v =>
      match Step.fields? v with
      | none => .error (.notTable passed)
      | some inner => do
        let (made, inner) ← openWay way passed inner
        return (made, Fields.set fields name (Step.withFields inner v))

def settle {α : Type} (result : Except Conflict α) : BuildM α :=
  match result with
  | .ok a => return a
  | .error conflict => fail conflict.message

/-- Gives a field of the open table a value. A table that was only passed through is opened by this
and keeps its fields. -/
def setValue (name : String) (value : Value) : BuildM Unit := do
  let b ← get
  let key := b.context ++ [name]
  let isArray := (b.info.lookup (Key.toText key)).any (·.isArray)
  let isImplicit := b.implicits.contains (Key.toText key)
  let change (fields : Fields) : Except Conflict Fields :=
    if fields.any (·.1 == name) then
      if isArray then .ok (Fields.set fields name value)
      else if isImplicit then .ok fields
      else .error (.defined key)
    else .ok (Fields.set fields name value)
  let known := (fieldsAt? b.context b.fields).any (·.any (·.1 == name))
  let fields ← settle (updateAt change b.context [] b.fields)
  modify fun b => { b with fields }
  if known then removeImplicit key

def addTable (key : Key) (name : String) (fields : Fields) : Except Conflict Fields :=
  match fields.lookup name with
  | none => .ok (Fields.set fields name (.tables [[]]))
  | some (.tables items) => .ok (Fields.set fields name (.tables (items ++ [[]])))
  | some _ => .error (.notArray key)

def openTable (key : Key) (isItem : Bool) : BuildM Unit := do
  let way := key.dropLast
  let name := key.getLast?.getD ""
  let (made, fields) ← settle (openWay way [] (← get).fields)
  modify fun b => { b with fields }
  for k in made do addImplicit k
  modify fun b => { b with context := way }
  if isItem then
    let fields ← settle (updateAt (addTable key name) way [] (← get).fields)
    modify fun b => { b with fields }
  else setValue name (.table [])
  modify fun b => { b with context := way ++ [name] }

/-- Reads the parts of a key up to the token that ends it. -/
def keyParts (stop : TokenKind) : (fuel : Nat) → BuildM Key
  | 0 => return []
  | fuel + 1 => do
    match ← next? with
    | none => return []
    | some t =>
      if t.kind = stop then return []
      else
        match Literal.string t.kind t.text with
        | .error reason => failAt t.place reason
        | .ok part => return part :: (← keyParts stop fuel)

/-- Reads a key; its first part is the place of later failures. -/
def readKey (stop : TokenKind) : BuildM Key := do
  let b ← get
  match b.tokens with
  | t :: _ => set { b with place := t.place }
  | [] => pure ()
  keyParts stop (b.size + 1)

/-- Passes through the tables of a dotted key and remembers the key. -/
def enterKey (key : Key) : BuildM Unit := do
  modify fun b => { b with currentKey := key.getLast?.getD "" }
  for part in key.dropLast do
    let way := (← get).context ++ [part]
    addImplicit way
    openTable way false
  let b ← get
  addKey (b.context ++ [b.currentKey])

/-! ## Values -/

def literal (t : Token) : BuildM Value := do
  let result : Except String Value := match t.kind with
    | .integer => Literal.integer t.text
    | .float => Literal.float t.text
    | .boolean => .ok (.boolean (t.text == "true"))
    | .datetime => Literal.datetime t.text
    | kind => (Literal.string kind t.text).map .text
  match result with
  | .ok v => return v
  | .error reason => failAt t.place reason

/-- The token of a value. A document that ends here has failed before. -/
def valueToken : BuildM Token := do
  match ← next? with
  | some t => return t
  | none => return ⟨.raw, "", {}⟩

mutual

def value : (fuel : Nat) → (inArray : Bool) → Token → BuildM Value
  | 0, _, t => literal t
  | fuel + 1, inArray, t => do
    if t.kind = .arrayStart then
      setInfo (← get).currentKey true t.place
      return .array (← items fuel)
    else if t.kind = .inlineStart then inline fuel inArray
    else literal t

def items : (fuel : Nat) → BuildM (List Value)
  | 0 => return []
  | fuel + 1 => do
    let t ← valueToken
    if t.kind = .arrayEnd then return []
    else
      let first ← value fuel true t
      return first :: (← items fuel)

/-- Reads an inline table. Its pairs are set in the document at once. -/
def inline : (fuel : Nat) → (inArray : Bool) → BuildM Value
  | 0, _ => return .table []
  | fuel + 1, inArray => do
    let outer ← get
    let context := outer.context ++ [outer.currentKey]
    modify fun b => { b with context, currentKey := "" }
    addImplicit context
    openTable context inArray
    let fields ← pairs fuel (← get).context []
    modify fun b => { b with context := outer.context, currentKey := outer.currentKey }
    return .table fields

def pairs : (fuel : Nat) → (context : Key) → Fields → BuildM Fields
  | 0, _, fields => return fields
  | fuel + 1, context, fields => do
    let t ← valueToken
    if t.kind = .inlineEnd then return fields
    else
      enterKey (← readKey .keyEnd)
      let v ← value fuel false (← valueToken)
      let name := (← get).currentKey
      setValue name v
      setInfo name (v matches .array _) t.place
      modify fun b => { b with context }
      pairs fuel context (Fields.set fields name v)

end

/-! ## Headers and pairs -/

def item (t : Token) : BuildM Unit := do
  match t.kind with
  | .tableStart =>
    let key ← readKey .tableEnd
    openTable key false
    setInfo "" false t.place
    addKey key
  | .tableItemStart =>
    let key ← readKey .tableItemEnd
    openTable key true
    setInfo "" false t.place
    addKey key
  | _ =>
    let outer := (← get).context
    enterKey (← readKey .keyEnd)
    let first ← valueToken
    let v ← value (4 * (← get).size + 4) false first
    let name := (← get).currentKey
    setValue name v
    setInfo name (v matches .array _) first.place
    modify fun b => { b with context := outer, currentKey := "" }

def all : (fuel : Nat) → BuildM Unit
  | 0 => return
  | fuel + 1 => do
    match ← next? with
    | none => return
    | some t =>
      item t
      all fuel

end BuildM

namespace Document

def dropMark (bytes : List UInt8) : List UInt8 :=
  if [0xFF, 0xFE].isPrefixOf bytes || [0xFE, 0xFF].isPrefixOf bytes then bytes.drop 2
  else if Text.Bytes.byteOrderMark.isPrefixOf bytes then bytes.drop 3
  else bytes

/-- Reads a document. A zero among the first bytes shows that the text is not UTF-8. -/
def parse (bytes : List UInt8) : Except ParseError Document :=
  let bytes := dropMark bytes
  match (bytes.take 6).idxOf? 0 with
  | some i =>
    .error ⟨⟨1, i, 1⟩, "", "files cannot contain NULL bytes; probably using UTF-16; " ++
      "TOML files must be UTF-8"⟩
  | none =>
    let (tokens, failure) := scan (Text.Utf8.decode bytes)
    let (result, b) := (BuildM.all (tokens.length + 1)).run.run
      { size := tokens.length, tokens, failure }
    match result with
    | .ok _ => .ok b.toDocument
    | .error e => .error e

end Document

end SymbolAtlas.Toml
