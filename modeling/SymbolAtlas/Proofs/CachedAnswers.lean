import SymbolAtlas.Command.Queries
import SymbolAtlas.Proofs.EntryFiles
import SymbolAtlas.Proofs.LinePositions
import SymbolAtlas.Proofs.PackedRecords
import SymbolAtlas.Proofs.RunFindings

set_option autoImplicit false

/-! # Cached answers

A run that succeeds leaves a closed table: every symbol has a key of its own and the closure it will
answer with. A snapshot of such a table holds what the table holds, and a cached run that is read
back is the snapshot that was kept. So a key is answered from the cache as it is answered from the
table (`cached_answer`). -/

namespace SymbolAtlas

open Text Command Cache

namespace Atlas

/-- The symbols of a table, in the order of declaration. -/
def symbolsOf (a : Atlas) (table : Nat) : List Symbol :=
  (a.members table).filterMap a.symbol?

/-- What is read off names that all have symbols is read off the symbols. -/
theorem map_elim_symbol {a : Atlas} {α : Type} (f : Symbol → α) (x : α) {refs : List SymbolRef}
    (h : ∀ r ∈ refs, (a.symbol? r).isSome) :
    refs.map (fun r => (a.symbol? r).elim x f) = (refs.filterMap a.symbol?).map f := by
  induction refs with
  | nil => rfl
  | cons r refs ih =>
      obtain ⟨s, hs⟩ := Option.isSome_iff_exists.mp (h r List.mem_cons_self)
      rw [List.map_cons, List.filterMap_cons_some hs, List.map_cons, hs,
        ih fun q hq => h q (List.mem_cons_of_mem r hq)]
      rfl

/-- **The table answers every question by itself**: it has all the symbols, each under its key, and
their closures are kept. -/
structure Answering (a : Atlas) (table : Nat) : Prop where
  table_eq : ∀ {r s}, a.symbol? r = some s → r.table = table
  find : ∀ {r s}, a.symbol? r = some s → a.find? table s.key = some r
  kept : ∀ {r s}, a.symbol? r = some s → s.closure.isSome

namespace Answering

variable {a : Atlas} {table : Nat}

theorem mem_symbolsOf (h : a.Answering table) {s : Symbol} :
    s ∈ a.symbolsOf table ↔ ∃ r, a.symbol? r = some s := by
  unfold symbolsOf
  rw [List.mem_filterMap]
  constructor
  · rintro ⟨r, -, hs⟩
    exact ⟨r, hs⟩
  · rintro ⟨r, hs⟩
    exact ⟨r, mem_members.mpr ⟨h.table_eq hs, by simp [hs]⟩, hs⟩

theorem nodup_keys (h : a.Answering table) : ((a.symbolsOf table).map Symbol.key).Nodup := by
  unfold symbolsOf
  rw [List.map_filterMap]
  refine (nodup_members a table).filterMap ?_
  intro r r' key hr hr'
  obtain ⟨s, hs, rfl⟩ := Option.map_eq_some_iff.mp hr
  obtain ⟨s', hs', hkey⟩ := Option.map_eq_some_iff.mp hr'
  have hsame : some r = some r' := by rw [← h.find hs, ← h.find hs', hkey]
  exact Option.some.inj hsame

theorem eq_of_key (h : a.Answering table) {s s' : Symbol} (hs : s ∈ a.symbolsOf table)
    (hs' : s' ∈ a.symbolsOf table) (hkey : s'.key = s.key) : s' = s :=
  List.inj_on_of_nodup_map h.nodup_keys hs' hs hkey

theorem key_ne_of_find? (h : a.Answering table) {key : String} (hnone : a.find? table key = none)
    {s : Symbol} (hs : s ∈ a.symbolsOf table) : s.key ≠ key := by
  rintro rfl
  obtain ⟨r, hr⟩ := h.mem_symbolsOf.mp hs
  rw [h.find hr] at hnone
  cases hnone

/-- A symbol is found by its key among any symbols of the table. -/
theorem find?_key (h : a.Answering table) {symbols : List Symbol}
    (hsub : symbols ⊆ a.symbolsOf table) {s : Symbol} (hs : s ∈ symbols) :
    symbols.find? (·.key == s.key) = some s := by
  have hfound : (symbols.find? (·.key == s.key)).isSome := by
    rw [List.find?_isSome]
    exact ⟨s, hs, beq_self_eq_true _⟩
  obtain ⟨s', hs'⟩ := Option.isSome_iff_exists.mp hfound
  have hkey : s'.key = s.key := by simpa using List.find?_some hs'
  rw [hs', h.eq_of_key (hsub hs) (hsub (List.mem_of_find?_eq_some hs')) hkey]

theorem exec_allDependencies (h : a.Answering table) {r : SymbolRef} {s : Symbol}
    (hs : a.symbol? r = some s) :
    exec (AtlasM.allDependencies r) a = (.ok (s.closure.getD []), a) := by
  obtain ⟨c, hc⟩ := Option.isSome_iff_exists.mp (h.kept hs)
  rw [AtlasM.exec_allDependencies_kept hs hc, hc]
  rfl

theorem exec_closures (h : a.Answering table) :
    exec ((a.members table).mapM AtlasM.allDependencies) a
      = (.ok ((a.symbolsOf table).map fun s => s.closure.getD []), a) := by
  have hall : ∀ r ∈ a.members table, (a.symbol? r).isSome := fun r hr => (mem_members.mp hr).2
  unfold symbolsOf
  rw [← map_elim_symbol (fun s => s.closure.getD []) [] hall]
  refine exec_mapM_ok fun r hr => ?_
  obtain ⟨s, hs⟩ := Option.isSome_iff_exists.mp (hall r hr)
  rw [h.exec_allDependencies hs, hs]
  rfl

end Answering

end Atlas

theorem Flags.toText_of_bits {f : Flags} (h : f.bits = 0) : f.toText = "" := by
  cases f
  cases h
  rfl

/-! ## Snapshots -/

namespace Cache.Payload

def ofTable (a : Atlas) (manifest : String) (hash : List UInt8) (table : Nat) (timer : Timer) :
    Payload String where
  schema := currentSchema
  manifest := manifest
  hash := hash
  closures := some ((a.symbolsOf table).map fun s =>
    (s.key, some (sortedKeys a (s.closure.getD []))))
  kinds := some ((a.symbolsOf table).map fun s => (s.key, s.kind.name))
  flags := some (((a.symbolsOf table).filter (·.flags.bits != 0)).map fun s =>
    (s.key, s.flags.toText))
  total := (timing timer).1
  phases := (timing timer).2

theorem exec_snapshot {a : Atlas} {table : Nat} (h : a.Answering table) (manifest : String)
    (hash : List UInt8) (timer : Timer) :
    exec (snapshot manifest hash table timer) a
      = (.ok (ofTable a manifest hash table timer), a) := by
  unfold snapshot
  rw [exec_bind_ok (exec_get a), exec_bind_ok h.exec_closures, exec_bind_ok (exec_get a)]
  have hzip : ∀ symbols : List Symbol,
      (symbols.zip (symbols.map fun s => s.closure.getD [])).map
        (fun sc => (sc.1.key, some (sortedKeys a sc.2)))
        = symbols.map fun s => (s.key, some (sortedKeys a (s.closure.getD []))) := by
    intro symbols
    induction symbols with
    | nil => rfl
    | cons s symbols ih => rw [List.map_cons, List.zip_cons_cons, List.map_cons, ih, List.map_cons]
  unfold ofTable
  rw [← hzip]
  rfl

section Encoded

variable (a : Atlas) (manifest : String) (hash : List UInt8) (table : Nat) (timer : Timer)

theorem closures_map_ofTable : ((ofTable a manifest hash table timer).map Utf8.encode).closures
    = some ((a.symbolsOf table).map fun s =>
      (Utf8.encode s.key, some ((sortedKeys a (s.closure.getD [])).map Utf8.encode))) := by
  simp [Payload.map, ofTable]

theorem kinds_map_ofTable : ((ofTable a manifest hash table timer).map Utf8.encode).kinds
    = some ((a.symbolsOf table).map fun s => (Utf8.encode s.key, Utf8.encode s.kind.name)) := by
  simp [Payload.map, ofTable]

theorem flags_map_ofTable : ((ofTable a manifest hash table timer).map Utf8.encode).flags
    = some (((a.symbolsOf table).filter (·.flags.bits != 0)).map fun s =>
      (Utf8.encode s.key, Utf8.encode s.flags.toText)) := by
  simp [Payload.map, ofTable]

end Encoded

theorem lookup_symbols {α : Type} (f : Symbol → α) (key : String) (symbols : List Symbol) :
    (symbols.map fun s => (Utf8.encode s.key, f s)).lookup (Utf8.encode key)
      = (symbols.find? (·.key == key)).map f := by
  induction symbols with
  | nil => rfl
  | cons s symbols ih =>
      rw [List.map_cons, List.lookup_cons, List.find?_cons]
      by_cases hkey : s.key = key
      · rw [hkey, beq_self_eq_true, beq_self_eq_true]
        rfl
      · have hkey' : (s.key == key) = false := by simpa using hkey
        have hbytes : (Utf8.encode key == Utf8.encode s.key) = false := by
          rw [beq_eq_false_iff_ne]
          exact fun heq => hkey (Utf8.encode_injective heq).symm
        rw [hkey', hbytes]
        exact ih

/-! ## Rows -/

section Rows

variable {a : Atlas} {table : Nat} (h : a.Answering table)

/-- The sorted keys of some symbols are those of the sorted symbols. -/
theorem sortedKeys_eq (a : Atlas) (refs : List SymbolRef) :
    sortedKeys a refs
      = ((refs.filterMap a.symbol?).mergeSort fun s t => s.key ≤ t.key).map Symbol.key := by
  have hkeys : refs.filterMap a.key? = (refs.filterMap a.symbol?).map Symbol.key := by
    rw [List.map_filterMap]
    rfl
  unfold sortedKeys
  rw [hkeys, List.map_mergeSort]
  intro s _ t _
  rfl

include h

/-- A symbol without flags has no entry, and its flags have no text. -/
theorem flags_entry {s : Symbol} (hs : s ∈ a.symbolsOf table) :
    ((((a.symbolsOf table).filter (·.flags.bits != 0)).find? (·.key == s.key)).map
      fun s => Utf8.encode s.flags.toText).getD [] = Utf8.encode s.flags.toText := by
  by_cases hzero : s.flags.bits = 0
  · have hnone : ((a.symbolsOf table).filter (·.flags.bits != 0)).find? (·.key == s.key)
        = none := by
      rw [List.find?_eq_none]
      intro s' hs' hkey
      obtain ⟨hmem, hbits⟩ := List.mem_filter.mp hs'
      rw [h.eq_of_key hs hmem (by simpa using hkey)] at hbits
      simp [hzero] at hbits
    rw [hnone, Flags.toText_of_bits hzero, Utf8.encode_empty]
    rfl
  · have hmem : s ∈ (a.symbolsOf table).filter (·.flags.bits != 0) :=
      List.mem_filter.mpr ⟨hs, by simpa using hzero⟩
    rw [h.find?_key (List.filter_subset_self _) hmem]
    rfl

variable (manifest : String) (hash : List UInt8) (timer : Timer)

/-- **A key of the table is answered with the rows of its closure.** -/
theorem cachedRows_ofTable {key : String} {r : SymbolRef} {s : Symbol}
    (hs : a.symbol? r = some s) (hkey : s.key = Manifest.normalizeKey key) :
    cachedRows ((ofTable a manifest hash table timer).map Utf8.encode) key
      = .ok ((symbolRows a (s.closure.getD [])).map (·.map Columns.Cell.ofString)) := by
  have hmem : s ∈ a.symbolsOf table := h.mem_symbolsOf.mpr ⟨r, hs⟩
  have hfound := h.find?_key (List.Subset.refl _) hmem
  rw [hkey] at hfound
  unfold cachedRows
  rw [closures_map_ofTable, Option.getD_some, lookup_symbols, hfound]
  dsimp only [Option.map_some, Option.getD_some]
  rw [sortedKeys_eq, List.map_map, List.map_map]
  unfold symbolRows
  rw [List.map_map]
  congr 1
  -- row by row
  refine List.map_congr_left fun q hq => ?_
  have hq : q ∈ a.symbolsOf table := by
    obtain ⟨r', -, hr'⟩ := List.mem_filterMap.mp (List.mem_mergeSort.mp hq)
    exact h.mem_symbolsOf.mpr ⟨r', hr'⟩
  have hentry := h.find?_key (List.Subset.refl _) hq
  rw [Function.comp_apply, Function.comp_apply, kinds_map_ofTable, flags_map_ofTable,
    Option.getD_some, Option.getD_some, lookup_symbols, lookup_symbols, hentry, flags_entry h hq]
  simp only [Option.map_some, Option.getD_some, List.map_cons, List.map_nil,
    Columns.Cell.ofBytes_encode, Function.comp_apply]

theorem cachedRows_ofTable_unknown {key : String}
    (hnone : a.find? table (Manifest.normalizeKey key) = none) :
    cachedRows ((ofTable a manifest hash table timer).map Utf8.encode) key
      = .error (.unknownSymbol key) := by
  have hmissing : (a.symbolsOf table).find? (·.key == Manifest.normalizeKey key) = none := by
    rw [List.find?_eq_none]
    intro s hs hkey
    exact h.key_ne_of_find? hnone hs (by simpa using hkey)
  unfold cachedRows
  rw [closures_map_ofTable, Option.getD_some, lookup_symbols, hmissing]
  rfl

end Rows

end Cache.Payload

/-! ## Sizes -/

theorem Kind.length_name_lt (k : Kind) : (Utf8.encode k.name).length < 2 ^ 32 := by
  rw [Utf8.length_encode]
  cases k <;> decide

/-- The flags that are set are some of those that have names. -/
theorem Flags.length_toText_lt (f : Flags) : (Utf8.encode f.toText).length < 2 ^ 32 := by
  have hall : ∀ labels ∈ (Flags.named.map Prod.snd).sublists,
      (",".intercalate labels).utf8ByteSize < 2 ^ 32 := by
    decide
  rw [Utf8.length_encode]
  exact hall f.labels (List.mem_sublists.mpr (List.filter_sublist.map Prod.snd))

namespace Cache.Payload

section Sizes

variable {a : Atlas} {table : Nat} (h : a.Answering table)

include h

/-- A map with an entry for each of some symbols fits if its values do. -/
theorem fitsMap_symbols {α : Type} {value : α → Prop} {symbols : List Symbol} (f : Symbol → α)
    (hsub : symbols.Sublist (a.symbolsOf table)) (hcount : (a.symbolsOf table).length < 2 ^ 32)
    (hkey : ∀ s ∈ a.symbolsOf table, (Utf8.encode s.key).length < 2 ^ 32)
    (hvalue : ∀ s ∈ a.symbolsOf table, value (f s)) :
    FitsMap value (some (symbols.map fun s => (Utf8.encode s.key, f s))) where
  count := by
    rintro _ ⟨⟩
    rw [List.length_map]
    exact lt_of_le_of_lt hsub.length_le hcount
  nodup := by
    rintro _ ⟨⟩
    have hkeys : (symbols.map Symbol.key).Nodup := h.nodup_keys.sublist (hsub.map _)
    have hbytes := hkeys.map Utf8.encode_injective
    rw [List.map_map] at hbytes ⊢
    exact hbytes
  key := by
    rintro _ ⟨⟩ pair hpair
    obtain ⟨s, hs, rfl⟩ := List.mem_map.mp hpair
    exact hkey s (hsub.subset hs)
  value := by
    rintro _ ⟨⟩ pair hpair
    obtain ⟨s, hs, rfl⟩ := List.mem_map.mp hpair
    exact hvalue s (hsub.subset hs)

/-- **The snapshot of a table can be stored** if the sizes of the table fit. -/
theorem fits_ofTable {manifest : String} {hash : List UInt8} {timer : Timer}
    (hmanifest : (Utf8.encode manifest).length < 2 ^ 32) (hhash : hash.length = 32)
    (hcount : (a.symbolsOf table).length < 2 ^ 32)
    (hkey : ∀ s ∈ a.symbolsOf table, (Utf8.encode s.key).length < 2 ^ 32)
    (hclosure : ∀ s ∈ a.symbolsOf table, (s.closure.getD []).length < 2 ^ 32)
    (hphases : timer.phases.toList.length < 2 ^ 32)
    (hphase : ∀ t ∈ timer.phases.toList,
      (Utf8.encode t.name).length < 2 ^ 32 ∧ (Utf8.encode t.note).length < 2 ^ 32) :
    Fits ((ofTable a manifest hash table timer).map Utf8.encode) where
  manifest := hmanifest
  hash := hhash
  closures := by
    rw [closures_map_ofTable]
    refine fitsMap_symbols h _ (.refl _) hcount hkey fun s hs => ?_
    rintro _ ⟨⟩
    -- the keys of a closure are keys of symbols of the table
    rw [sortedKeys_eq, List.map_map]
    refine ⟨?_, ?_⟩
    · rw [List.length_map, List.length_mergeSort]
      exact lt_of_le_of_lt (List.length_filterMap_le _ _) (hclosure s hs)
    · intro t ht
      obtain ⟨q, hq, rfl⟩ := List.mem_map.mp ht
      obtain ⟨r, -, hr⟩ := List.mem_filterMap.mp (List.mem_mergeSort.mp hq)
      exact hkey q (h.mem_symbolsOf.mpr ⟨r, hr⟩)
  kinds := by
    rw [kinds_map_ofTable]
    exact fitsMap_symbols h _ (.refl _) hcount hkey fun s _ => s.kind.length_name_lt
  flags := by
    rw [flags_map_ofTable]
    exact fitsMap_symbols h _ List.filter_sublist hcount hkey fun s _ => s.flags.length_toText_lt
  phases := by
    simpa [Payload.map, ofTable, timing] using hphases
  phase := by
    intro t ht
    simp only [Payload.map, ofTable, timing, List.map_map, List.mem_map] at ht
    obtain ⟨phase, hmem, rfl⟩ := ht
    exact hphase phase hmem

end Sizes

end Cache.Payload

/-! ## Runs -/

/-- A question that leaves the atlas as it is leaves the session as it is. -/
theorem Command.Session.ask_of_exec {α : Type} {s : Session} {question : AtlasM α}
    {answer : Except SymbolError α} (h : exec question s.run.atlas = (answer, s.run.atlas)) :
    s.ask question = (answer, s) := by
  unfold Session.ask
  show ((exec question s.run.atlas).1,
    { s with run := { s.run with atlas := (exec question s.run.atlas).2 } }) = _
  rw [h]

/-- Where the table knows the keys of the program, it alone decides about a key. -/
theorem Session.lookup_of_knows {s : Session}
    (h : ∀ key, (s.run.atlas.find? Binding.table key).isSome ↔ (s.run.program.get? key).isSome)
    (key : String) : s.lookup key =
      match s.run.atlas.find? Binding.table (Manifest.normalizeKey key) with
      | some r => .ok r
      | none => .error (.unknownSymbol key) := by
  unfold Session.lookup
  cases hentry : s.run.program.get? (Manifest.normalizeKey key) with
  | none =>
      have hmissing : ¬ (s.run.atlas.find? Binding.table (Manifest.normalizeKey key)).isSome := by
        rw [h, hentry]
        simp
      rw [Option.not_isSome_iff_eq_none.mp hmissing]
  | some e =>
      -- the entry has the key that was looked for, so its symbol is there
      have hkey : e.key = Manifest.normalizeKey key := by
        unfold Manifest.Program.get? at hentry
        simpa using List.find?_some hentry
      have hfound : (s.run.atlas.find? Binding.table (Manifest.normalizeKey key)).isSome := by
        rw [h, hentry]
        rfl
      obtain ⟨r, hr⟩ := Option.isSome_iff_exists.mp hfound
      dsimp only
      rw [hkey, hr]

theorem Session.lookup_eq_ok_iff {s : Session}
    (h : ∀ key, (s.run.atlas.find? Binding.table key).isSome ↔ (s.run.program.get? key).isSome)
    {key : String} {r : SymbolRef} :
    s.lookup key = .ok r ↔
      s.run.atlas.find? Binding.table (Manifest.normalizeKey key) = some r := by
  rw [lookup_of_knows h]
  cases s.run.atlas.find? Binding.table (Manifest.normalizeKey key) <;> simp

theorem Session.lookup_eq_error_iff {s : Session}
    (h : ∀ key, (s.run.atlas.find? Binding.table key).isSome ↔ (s.run.program.get? key).isSome)
    {key : String} {e : CommandError} :
    s.lookup key = .error e ↔
      s.run.atlas.find? Binding.table (Manifest.normalizeKey key) = none ∧
        e = .unknownSymbol key := by
  rw [lookup_of_knows h]
  cases s.run.atlas.find? Binding.table (Manifest.normalizeKey key) <;> simp [eq_comm]

namespace Binding

open Manifest Cache

theorem Program.isSome_get?_iff {p : Program} {key : String} :
    (p.get? key).isSome ↔ p.Declares key := by
  unfold Program.get? Program.Declares
  rw [List.find?_isSome]
  exact exists_congr fun e => and_congr_right fun _ => beq_iff_eq

/-- A run that succeeds has one symbol for each entry. -/
theorem layout_of_success {p : Program} (hp : p.WellFormed) {o : Options} {trace : Trace}
    (h : (run p o trace).error = none) : Layout p (run p o trace).atlas := by
  obtain ⟨a, b, c, hd, hb, hc, hat⟩ := exists_closed_of_success hp h
  rw [hat.atlas]
  exact hd.layout.congr (hc.skeleton.trans hb.skeleton)

/-- **A run that succeeds leaves a table that answers by itself.** -/
theorem answering_of_success {p : Program} (hp : p.WellFormed) {o : Options} {trace : Trace}
    (h : (run p o trace).error = none) : (run p o trace).atlas.Answering table := by
  have hl := layout_of_success hp h
  obtain ⟨a, b, c, hd, hb, hc, hat⟩ := exists_closed_of_success hp h
  rw [hat.atlas] at hl ⊢
  have hroster : roster p b = roster p c := roster_eq_of_skeleton hc.skeleton.symm
  refine ⟨hl.table_eq, ?_, ?_⟩
  · intro r s hs
    obtain ⟨e, he, hr⟩ := hl.entry_of hs
    obtain ⟨s', hs', hkey⟩ := hl.indexed.symbol?_of_find? hr
    rw [Option.some.inj (hs.symm.trans hs'), hkey, hr]
  · intro r s hs
    rw [hc.closed_iff hs, hroster, mem_roster_symbols hl, hs]
    rfl

/-- **The cache answers as the run does.** The table of a run that succeeds knows exactly the keys
of its program, so an entry that the session finds always has a symbol. The closures can be
captured. Once they were put into a store under the digest of the manifest, and if their bytes can
be read back, they are found there. A key as it is typed is then unknown to the cached run exactly
if the session does not know it, and else it has the rows that the session shows, in their order. -/
theorem cached_answer {fs : FileSet} {id : UInt32} {p : Program} {reports : List Diagnostic}
    (h : decodeFile fs id = (.ok p, reports)) {o : Options} {trace : Trace}
    (hrun : (run p o trace).error = none) {s : Session} (hprogram : s.run.program = p)
    (hatlas : s.run.atlas = (run p o trace).atlas) :
    (∀ key, (s.run.atlas.find? table key).isSome ↔ (p.get? key).isSome) ∧
    (∀ key e, s.lookup key = .error e → e = .unknownSymbol key) ∧
    ∃ payload, (s.ask
      (Payload.snapshot s.run.program.path s.run.program.digest table s.run.timer)).1
        = .ok payload ∧
      ∀ (store : Store) (w w' : World),
        (store.put (m := StateM World) p.digest (payload.map Text.Utf8.encode)).run w =
        (.ok (), w') →
        Payload.decode? (payload.map Text.Utf8.encode).encode
          = some (payload.map Text.Utf8.encode) →
        ∃ found, (store.get (m := StateM World) p.digest).run w' = (.ok (some found), w') ∧
          ∀ key : String,
            (cachedRows found key = .error (.unknownSymbol key) ↔ ∃ e, s.lookup key = .error e) ∧
            ∀ r, s.lookup key = .ok r →
            ∃ deps s', s.ask (AtlasM.allDependencies r) = (.ok deps, s') ∧
              cachedRows found key
                = .ok ((symbolRows s'.run.atlas deps).map (·.map Text.Columns.Cell.ofString)) := by
  have hp := wellFormed_of_decodeFile h
  have hans := answering_of_success hp hrun
  have hl := layout_of_success hp hrun
  have hknows : ∀ key, (s.run.atlas.find? table key).isSome ↔ (p.get? key).isSome := by
    intro key
    rw [hatlas, find?_isSome_iff hl, Program.isSome_get?_iff]
  rw [← hatlas] at hans hl
  subst hprogram
  refine ⟨hknows, fun key e he => ((Session.lookup_eq_error_iff hknows).mp he).2, ?_⟩
  have hsnapshot := Payload.exec_snapshot hans s.run.program.path s.run.program.digest s.run.timer
  refine ⟨_, congrArg Prod.fst (Session.ask_of_exec hsnapshot), ?_⟩
  intro store w w' hput hcodec
  refine ⟨_, Cache.Store.get_of_put_current hput rfl rfl hcodec, ?_⟩
  intro key
  simp only [Session.lookup_eq_ok_iff hknows, Session.lookup_eq_error_iff hknows]
  -- the session and the cached run both look for the key in its normal form
  cases hfind : s.run.atlas.find? table (normalizeKey key) with
  | none =>
      refine ⟨iff_of_true ?_ ⟨_, rfl, rfl⟩, fun r hr => nomatch hr⟩
      exact Payload.cachedRows_ofTable_unknown hans _ _ _ hfind
  | some r =>
      obtain ⟨q, hq, hkey⟩ := hl.indexed.symbol?_of_find? hfind
      have hrows := Payload.cachedRows_ofTable hans s.run.program.path s.run.program.digest
        s.run.timer hq hkey
      refine ⟨iff_of_false (fun hunknown => ?_) (fun ⟨_, hnone, _⟩ => nomatch hnone), ?_⟩
      · rw [hrows] at hunknown
        cases hunknown
      · rintro r' ⟨⟩
        exact ⟨_, s, Session.ask_of_exec (hans.exec_allDependencies hq), hrows⟩

/-! ## The circular manifest in a store -/

def circularRun : Run :=
  run circularProgram {} ⟨.nop, 0, 0, {}⟩

theorem circularRun_succeeds :
    circularRun.error = none ∧ circularRun.program = circularProgram := by
  obtain ⟨a, refs, hd, hdeclare⟩ := exists_declared (wellFormed_of_decodeFile decodeFile_circular) 0
  obtain ⟨b, c, -, -, hat⟩ := run_at (wellFormed_of_decodeFile decodeFile_circular)
    template_ne_key_circular (o := {}) rfl ⟨.nop, 0, 0, {}⟩ hd hdeclare
  exact ⟨hat.error, hat.program⟩

theorem answering_circularRun : circularRun.atlas.Answering table :=
  answering_of_success (wellFormed_of_decodeFile decodeFile_circular) circularRun_succeeds.1

/-- A program that was read in a run is stored under a digest of 32 bytes. -/
theorem length_digest_of_decodeFile {fs : FileSet} (hfs : fs.Filled) {id : UInt32} {p : Program}
    {reports : List Diagnostic} (h : decodeFile fs id = (.ok p, reports)) :
    p.digest.length = 32 := by
  unfold decodeFile at h
  cases hf : fs.get? id with
  | none => simp [hf] at h
  | some f =>
      rw [hf] at h
      dsimp only [decode] at h
      split at h
      · cases h
      · obtain ⟨hp, -⟩ := Prod.mk.inj h
        rw [← Except.ok.inj hp]
        exact hfs.length_digest hf

theorem filled_circularFiles : circularFiles.Filled :=
  .add "circular.toml" (Text.Utf8.encode circularManifest) .inMemory .empty (by decide +kernel)
    (by decide)

theorem sizes_circularProgram :
    circularProgram.digest.length = 32 ∧ (Text.Utf8.encode circularProgram.path).length < 2 ^ 32 :=
  ⟨length_digest_of_decodeFile filled_circularFiles decodeFile_circular, by decide +kernel⟩

/-- The table of the run knows a key, and its sizes fit. -/
theorem sizes_circularRun :
    (circularProgram.get? (normalizeKey "B")).isSome ∧
    (circularRun.atlas.symbolsOf table).length < 2 ^ 32 ∧
    (∀ s ∈ circularRun.atlas.symbolsOf table, (Text.Utf8.encode s.key).length < 2 ^ 32) ∧
    (∀ s ∈ circularRun.atlas.symbolsOf table, (s.closure.getD []).length < 2 ^ 32) ∧
    circularRun.timer.phases.toList.length < 2 ^ 32 ∧
    ∀ t ∈ circularRun.timer.phases.toList,
      (Text.Utf8.encode t.name).length < 2 ^ 32 ∧ (Text.Utf8.encode t.note).length < 2 ^ 32 := by
  decide +kernel

theorem fits_circular : Payload.Fits ((Payload.ofTable circularRun.atlas circularProgram.path
    circularProgram.digest table circularRun.timer).map Text.Utf8.encode) := by
  obtain ⟨-, hcount, hkey, hclosure, hphases, hphase⟩ := sizes_circularRun
  obtain ⟨hhash, hmanifest⟩ := sizes_circularProgram
  exact Payload.fits_ofTable answering_circularRun hmanifest hhash hcount hkey hclosure
    hphases hphase

theorem cached_answer_circular : ∃ (s : Session) (payload : Payload String) (w : World)
    (found : StoredPayload), s.run = circularRun ∧ (∃ r, s.lookup "B" = .ok r) ∧
    (s.ask (Payload.snapshot s.run.program.path s.run.program.digest table s.run.timer)).1
      = .ok payload ∧
    (Store.fresh.put (m := StateM World) circularProgram.digest (payload.map Text.Utf8.encode)).run
    {}
      = (.ok (), w) ∧
    (Store.fresh.get (m := StateM World) circularProgram.digest).run w = (.ok (some found), w) ∧
    ∀ key : String,
      (cachedRows found key = .error (.unknownSymbol key) ↔ ∃ e, s.lookup key = .error e) ∧
      ∀ r, s.lookup key = .ok r → ∃ deps s', s.ask (AtlasM.allDependencies r) = (.ok deps, s') ∧
        cachedRows found key
          = .ok ((symbolRows s'.run.atlas deps).map (·.map Text.Columns.Cell.ofString)) := by
  obtain ⟨s, hs⟩ : ∃ s : Session, s.run = circularRun :=
    ⟨⟨{ manifest := "circular.toml" }, circularFiles, .empty 0, circularRun, "/"⟩, rfl⟩
  obtain ⟨hrun, hprogram⟩ := circularRun_succeeds
  rw [← hs] at hprogram
  obtain ⟨hknows, -, payload, hask, hstore⟩ :=
    cached_answer decodeFile_circular hrun hprogram (congrArg Run.atlas hs)
  have hknown : ∃ r, s.lookup "B" = .ok r := by
    obtain ⟨r, hr⟩ := Option.isSome_iff_exists.mp ((hknows _).mpr sizes_circularRun.1)
    exact ⟨r, (Session.lookup_eq_ok_iff (hprogram ▸ hknows)).mpr hr⟩
  -- the payload is the snapshot of the table
  have hpayload : payload = Payload.ofTable circularRun.atlas circularProgram.path
      circularProgram.digest table circularRun.timer := by
    have hsnapshot := Payload.exec_snapshot answering_circularRun circularProgram.path
      circularProgram.digest circularRun.timer
    rw [hprogram] at hask
    rw [← hs] at hsnapshot ⊢
    exact Except.ok.inj (hask.symm.trans (congrArg Prod.fst (Session.ask_of_exec hsnapshot)))
  obtain ⟨w, hput⟩ := Store.exists_put_fresh sizes_circularProgram.1 (payload.map Text.Utf8.encode)
  have hcodec : Payload.decode? (payload.map Text.Utf8.encode).encode
      = some (payload.map Text.Utf8.encode) := by
    rw [hpayload]
    exact Payload.decode?_encode fits_circular
  obtain ⟨found, hget, hanswer⟩ := hstore Store.fresh {} w hput hcodec
  exact ⟨s, payload, w, found, hs, hknown, hask, hput, hget, hanswer⟩

end Binding

end SymbolAtlas
