import SymbolAtlas.Command.Session
import SymbolAtlas.Version

set_option autoImplicit false

/-! # What the commands do

Each command reads the manifest, answers a question about its symbols and prints the answer.
Findings go to the error output, except those of `check`, which are its answer. -/

namespace SymbolAtlas.Command

variable {m : Type → Type} [Monad m] [Host m]

def symbolHeader : List String := ["SYMBOL", "KIND", "FLAGS"]

def symbolRows (a : Atlas) (refs : List SymbolRef) : List (List String) :=
  let symbols := (refs.filterMap a.symbol?).mergeSort fun s t => s.key ≤ t.key
  symbols.map fun s => [s.key, s.kind.name, s.flags.toText]

def printCells (header : List String) (rows : List (List Text.Columns.Cell)) (color : Bool) :
    CommandM m Unit := do
  let text ← CommandM.orFail .fault
    (Text.Columns.renderCells (header.map .ofString) rows color)
  CommandM.host (Host.print text)

def printTable (header : List String) (rows : List (List String)) (color : Bool) :
    CommandM m Unit :=
  printCells header (rows.map (·.map .ofString)) color

/-- Ends an answer: the closures are kept and the timings printed. -/
def conclude (s : Session) : CommandM m Unit := do
  CommandM.host s.storeCache
  CommandM.host s.printTimings

/-- The rows that a cached run has for a key. -/
def cachedRows (payload : Cache.StoredPayload) (key : String) :
    Except CommandError (List (List Text.Columns.Cell)) :=
  match (payload.closures.getD []).lookup (Text.Utf8.encode (Manifest.normalizeKey key)) with
  | none => .error (.unknownSymbol key)
  | some keys =>
    let entry (map : Option (List (List UInt8 × List UInt8))) (k : List UInt8) : List UInt8 :=
      ((map.getD []).lookup k).getD []
    .ok ((keys.getD []).map fun k =>
      [k, entry payload.kinds k, entry payload.flags k].map Text.Columns.Cell.ofBytes)

/-- The dependencies that a command line asks for, and a remark. -/
def dependencies (s : Session) (p : Parsed) (r : SymbolRef) :
    CommandM m (List SymbolRef × Session) := do
  let kindText := p.text "kind" ""
  if kindText != "" then
    match Kind.parse? kindText with
    | none => throw (.unknownKind kindText)
    | some kind =>
      if p.switch "direct" then s.query (AtlasM.directDependenciesOf r kind)
      else s.query (AtlasM.allDependenciesOf r kind)
  else if p.switch "direct" then
    let (deps, s) ← s.query (AtlasM.directDependencies r)
    let symbol := s.run.atlas.symbol? r
    if (symbol.bind (·.dependencies)).isNone && !s.settings.quiet then
      let kind := (symbol.map (·.kind.name)).getD ""
      CommandM.host (Host.printError
        ("note: " ++ s.run.atlas.text (some r) ++ " records no dependencies (" ++ kind ++ ")\n"))
    return (deps.filterMap id, s)
  else s.query (AtlasM.allDependencies r)

/-- Lists what a symbol depends on. All of it may be answered from the cache. -/
def deps (p : Parsed) (tracing : Tracing) (key : String) : CommandM m Unit := do
  let color ← CommandM.orFail id (colorEnabled p)
  let cached ←
    if p.text "kind" "" == "" && !p.switch "direct" then CommandM.host (cachedClosures p)
    else pure none
  match cached with
  | some payload =>
    printCells symbolHeader (← CommandM.orFail id (cachedRows payload key)) color
  | none =>
    let s ← openSession p tracing
    s.printFindings
    let r ← CommandM.orFail id (s.lookup key)
    let (found, s) ← dependencies s p r
    printTable symbolHeader (symbolRows s.run.atlas found) s.settings.color
    conclude s

/-- The keys of some numbers, with blanks between them. -/
def keyLine (a : Atlas) (ids : List Nat) : String :=
  " ".intercalate ((Topo.symbols a Binding.table ids).map Symbol.key)

def batchText (a : Atlas) (topo : Topo) : String :=
  String.join (topo.batches.mapIdx fun i batch =>
    toString (i + 1) ++ ": " ++ keyLine a batch ++ "\n") ++
    (if topo.cyclic then "cyclic: " ++ keyLine a topo.cycles ++ "\n" else "")

def orderRows (a : Atlas) (topo : Topo) : List (List String) :=
  let cyclic := (Topo.symbols a Binding.table topo.cycles).map Symbol.key
  (Topo.symbols a Binding.table topo.order).mapIdx fun i s =>
    [toString (i + 1), s.key, s.kind.name, if cyclic.contains s.key then "cycle" else ""]

/-- Prints an emission order with dependencies first. -/
def order (p : Parsed) (tracing : Tracing) : CommandM m Unit := do
  let s ← openSession p tracing
  let (topo, s) ← s.order
  s.printFindings
  if p.switch "batches" then CommandM.host (Host.print (batchText s.run.atlas topo))
  else printTable ["#", "SYMBOL", "KIND", "NOTE"] (orderRows s.run.atlas topo) s.settings.color
  conclude s

/-- Lists everything that must be emitted for some entry points. -/
def required (p : Parsed) (tracing : Tracing) : CommandM m Unit := do
  let s ← openSession p tracing
  s.printFindings
  let keys := if p.args.isEmpty then s.settings.entry else p.args
  if keys.isEmpty then throw .noEntryPoints
  let roots ← keys.mapM fun k => CommandM.orFail id (s.lookup k)
  let (found, s) ← s.query (AtlasM.required (roots.map some))
  printTable symbolHeader (symbolRows s.run.atlas found) s.settings.color
  conclude s

/-- Lists the overrides of a member or the implementers of a type. -/
def impls (p : Parsed) (tracing : Tracing) (key : String) : CommandM m Unit := do
  let s ← openSession p tracing
  s.printFindings
  let r ← CommandM.orFail id (s.lookup key)
  let a := s.run.atlas
  let symbol := a.symbol? r
  match symbol.bind (·.overridden) with
  | some base =>
    if !s.settings.quiet then
      CommandM.host (Host.print
        (a.text (some r) ++ " overrides " ++ a.text (some base) ++ "\n"))
  | none => pure ()
  let found := (symbol.map (·.implementations)).getD []
  printTable symbolHeader (symbolRows a found) s.settings.color
  CommandM.host s.printTimings

/-- Reports every finding; errors make the command fail, and warnings too if they are to. -/
def check (p : Parsed) (tracing : Tracing) : CommandM m Unit := do
  let format := Text.lower (p.text "format" "pretty")
  if format != "pretty" && format != "json" then throw (.outputFormat format)
  let s ← openSession p tracing
  let (_, s) ← s.order
  let s := { s with bag := s.bag.sort.dedup }
  let bytes ← CommandM.orFail .fault <|
    if format == "json" then
      .ok (Text.Utf8.encode (Document.render s.files
        { positions := true, notes := true, paths := pathView s.settings s.workingDir } s.bag))
    else s.diagnostics
  CommandM.host (Host.printBytes bytes)
  let errors := s.bag.count .error
  let warnings := s.bag.count .warning
  conclude s
  if 0 < errors || (p.switch "warnings-as-errors" && 0 < warnings) then
    throw (.findings errors warnings)
  if format == "pretty" && !s.settings.quiet then
    let closures := (s.run.atlas.stats Binding.table).1
    CommandM.host (Host.print ("ok: " ++ toString (s.run.atlas.members Binding.table).length ++
      " symbols, " ++ toString closures ++ " closures, " ++ toString warnings ++ " warning(s)\n"))

def cacheClean (p : Parsed) : CommandM m Unit := do
  let store ← CommandM.orFail .cache (← CommandM.host (Cache.Store.openFor "symgraph"))
  CommandM.orFail .file (← CommandM.host store.dropAll)
  if !p.switch "quiet" then
    CommandM.host (Host.print ("removed cache at " ++ store.directory ++ "\n"))

def version (p : Parsed) : CommandM m Unit := do
  let format := p.text "format" "pretty"
  let v := Version.current.trimmed
  match Text.lower format with
  | "json" => CommandM.host (Host.print v.document)
  | "pretty" =>
    let color ← CommandM.orFail id (colorEnabled p)
    CommandM.host (Host.print (v.pretty color))
  | _ => throw (.outputFormat format)

end SymbolAtlas.Command
