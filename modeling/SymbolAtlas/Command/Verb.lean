import SymbolAtlas.Command.Flags
import SymbolAtlas.Text.Lowercase

set_option autoImplicit false

/-! # Commands

The commands of the program, the flags they know and the arguments they take. The command that is
meant is found before flags are read, so a flag that is not known yet is taken to have a value. -/

namespace SymbolAtlas.Command

/-- A command. -/
inductive Verb where
  | root
  | deps
  | order
  | required
  | impls
  | check
  | cache
  | cacheClean
  | version
  | help
  | completion
  deriving DecidableEq, Repr

namespace Verb

def name : Verb → String
  | .root => "symgraph"
  | .deps => "deps"
  | .order => "order"
  | .required => "required"
  | .impls => "impls"
  | .check => "check"
  | .cache => "cache"
  | .cacheClean => "clean"
  | .version => "version"
  | .help => "help"
  | .completion => "completion"

def path : Verb → String
  | .root => "symgraph"
  | .cacheClean => "symgraph cache clean"
  | c => "symgraph " ++ c.name

def children : Verb → List Verb
  | .root => [.deps, .order, .required, .impls, .check, .cache, .version, .help, .completion]
  | .cache => [.cacheClean]
  | _ => []

/-- The flags that every command knows. -/
def sharedFlags : List Flag := [
  ⟨"manifest", .text, none⟩, ⟨"color", .text, none⟩, ⟨"quiet", .switch, none⟩,
  ⟨"timings", .switch, none⟩, ⟨"jobs", .integer, none⟩, ⟨"no-cache", .switch, none⟩,
  ⟨"max-diagnostics", .integer, none⟩, ⟨"trace", .text, none⟩, ⟨"trace-level", .text, none⟩,
  ⟨"trace-format", .text, none⟩, ⟨"cpuprofile", .text, none⟩, ⟨"memprofile", .text, none⟩,
  ⟨"runtime-trace", .text, none⟩]

/-- The flags that a command has of its own. -/
def ownFlags : Verb → List Flag
  | .deps => [⟨"kind", .text, none⟩, ⟨"direct", .switch, none⟩]
  | .order => [⟨"batches", .switch, none⟩]
  | .check => [⟨"format", .text, none⟩, ⟨"warnings-as-errors", .switch, none⟩]
  | .version => [⟨"format", .text, none⟩]
  | _ => []

/-- The flags that a command knows while it is looked for. -/
def searchFlags (c : Verb) : List Flag :=
  c.ownFlags ++ sharedFlags

def flags (c : Verb) : List Flag :=
  ⟨"help", .switch, some 'h'⟩ ::
    (if c = .root then [⟨"version", .switch, some 'v'⟩] else []) ++ c.searchFlags

/-! ## Finding the command -/

/-- Whether an argument is a flag whose value is the argument after it. -/
def takesNext (c : Verb) (arg : String) : Bool :=
  match arg.toList with
  | '-' :: '-' :: cs =>
    !cs.contains '=' && !(c.searchFlags.any fun f => f.name.toList == cs && f.kind = .switch)
  | ['-', letter] => letter != '=' && letter.toNat < 0x80
  | _ => false

/-- The arguments that are neither flags nor their values. -/
def words (c : Verb) : (fuel : Nat) → List String → List String
  | 0, _ => []
  | _, [] => []
  | fuel + 1, arg :: rest =>
    if arg == "--" then []
    else if c.takesNext arg then
      if rest.length ≤ 1 then [] else c.words fuel (rest.drop 1)
    else if arg != "" && !arg.startsWith "-" then arg :: c.words fuel rest
    else c.words fuel rest

/-- The arguments without the first word that is `word`. -/
def withoutWord (c : Verb) (word : String) : (fuel : Nat) → List String → List String
  | 0, args => args
  | _, [] => []
  | fuel + 1, arg :: rest =>
    if arg == "--" then arg :: rest
    else if c.takesNext arg then arg :: rest.take 1 ++ c.withoutWord word fuel (rest.drop 1)
    else if !arg.startsWith "-" && arg == word then rest
    else arg :: c.withoutWord word fuel rest

/-- The command that a command line names, and its arguments. -/
def find : (depth : Nat) → Verb → List String → Verb × List String
  | 0, c, args => (c, args)
  | depth + 1, c, args =>
    let fuel := args.length + 1
    match c.words fuel args with
    | [] => (c, args)
    | word :: _ =>
      match c.children.find? (·.name == word) with
      | some child => find depth child (c.withoutWord word fuel args)
      | none => (c, args)

/-! ## Suggestions -/

/-- The next row of the table of edit distances; `diagonal` is the entry above and to the left. -/
def nextRow (b : UInt8) : List UInt8 → (row : List Nat) → (diagonal left : Nat) → List Nat
  | a :: as, above :: row, diagonal, left =>
    let cost := if a == b then diagonal else 1 + Nat.min diagonal (Nat.min above left)
    cost :: nextRow b as row above cost
  | _, _, _, _ => []

/-- The number of bytes to insert, drop or replace to get from one text to the other. -/
def editDistance (s t : List UInt8) : Nat :=
  let first := (List.range s.length).map (· + 1)
  let (row, _) := t.foldl
    (fun (row, j) b => (nextRow b s row j (j + 1), j + 1)) (first, 0)
  row.getLast?.getD t.length

/-- Whether a word is close to the name of a command, or starts it. -/
def isNear (word : String) (c : Verb) : Bool :=
  let typed := Text.lower word
  editDistance (Text.Utf8.encode typed) (Text.Utf8.encode c.name) ≤ 2 || c.name.startsWith typed

def suggestions (word : String) : List Verb :=
  (children .root).filter fun c => c ≠ .help && isNear word c

end Verb

end SymbolAtlas.Command
