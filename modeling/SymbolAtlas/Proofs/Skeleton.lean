import SymbolAtlas.Proofs.Declaring

set_option autoImplicit false

/-! # The fixed part of an atlas

The declaration of a symbol, its flags and its containing type never change once it is declared;
they are its skeleton. Which key names which symbol depends on the strings, the registry and the
skeletons only (`find?_eq_of_skeleton`), so it stays fixed while slots are filled. A table is
`Indexed` if its registry leads from the number of each key to the symbol that has it. -/

namespace SymbolAtlas

/-- What is fixed when a symbol is declared. -/
def Symbol.skeleton (s : Symbol) : Declaration × Flags × Option SymbolRef :=
  (s.declaration, s.flags, s.containing)

/-- What declarations alone decide about a table. -/
structure Table.Skeleton where
  strings : Interner
  registry : List (Nat × Nat)
  symbols : List (Declaration × Flags × Option SymbolRef)

namespace Table

/-- The strings, the registry and the skeletons of the symbols, in the order of declaration. -/
def skeleton (t : Table) : Table.Skeleton where
  strings := t.strings
  registry := t.registry
  symbols := t.symbols.toList.map Symbol.skeleton

def keys (t : Table) : List String :=
  t.symbols.toList.map Symbol.key

theorem size_eq_length_skeleton (t : Table) : t.size = t.skeleton.symbols.length := by
  simp [size, skeleton]

theorem get?_succ (t : Table) (i : Nat) : t.get? (i + 1) = t.symbols.toList[i]? := by
  simp [get?]

theorem isSome_get?_iff (t : Table) (n : Nat) : (t.get? n).isSome ↔ 1 ≤ n ∧ n ≤ t.size := by
  cases n with
  | zero => simp [get?]
  | succ i => simp [get?, size]

theorem mem_keys_iff {t : Table} {key : String} :
    key ∈ t.keys ↔ ∃ id s, t.get? id = some s ∧ s.key = key := by
  unfold keys
  rw [List.mem_map]
  constructor
  · rintro ⟨s, hs, hkey⟩
    obtain ⟨i, hi⟩ := List.mem_iff_getElem?.mp hs
    exact ⟨i + 1, s, (t.get?_succ i).trans hi, hkey⟩
  · rintro ⟨id, s, hs, hkey⟩
    cases id with
    | zero => simp [get?] at hs
    | succ i => exact ⟨s, List.mem_of_getElem? ((t.get?_succ i).symm.trans hs), hkey⟩

theorem get?_skeleton (t : Table) (n : Nat) :
    (t.get? n).map Symbol.skeleton = if n = 0 then none else t.skeleton.symbols[n - 1]? := by
  unfold get? skeleton
  by_cases h : n = 0 <;> simp [h]

theorem find?_of_skeleton {t t' : Table} (h : t'.skeleton = t.skeleton) (key : String) :
    t'.find? key = t.find? key := by
  have hstrings : t'.strings = t.strings := congrArg Skeleton.strings h
  have hregistry : t'.registry = t.registry := congrArg Skeleton.registry h
  unfold find?
  rw [hstrings, hregistry]

/-- A symbol of one table has a counterpart with its skeleton in the other. -/
theorem exists_get?_of_skeleton {t t' : Table} (h : t'.skeleton = t.skeleton) {n : Nat} {s : Symbol}
    (hs : t'.get? n = some s) : ∃ s', t.get? n = some s' ∧ s'.skeleton = s.skeleton := by
  have hmap : (t.get? n).map Symbol.skeleton = some s.skeleton := by
    rw [get?_skeleton, ← h, ← get?_skeleton, hs]
    rfl
  exact Option.map_eq_some_iff.mp hmap

/-! ## Registries in step -/

/-- **The registry is in step with the symbols**: their keys are interned, and the registry leads
from the number of a key to the symbol that has it. -/
structure Indexed (t : Table) : Prop where
  interned : ∀ key ∈ t.keys, key ∈ t.strings.strings.toList
  registry : ∀ number id, t.registry.lookup number = some id ↔
    ∃ s, t.get? id = some s ∧ t.strings.find? s.key = some number

theorem Indexed.congr {t t' : Table} (ht : t.Indexed) (h : t'.skeleton = t.skeleton) :
    t'.Indexed := by
  have hstrings : t'.strings = t.strings := congrArg Skeleton.strings h
  have hregistry : t'.registry = t.registry := congrArg Skeleton.registry h
  have hkey : ∀ {s s' : Symbol}, s'.skeleton = s.skeleton → s'.key = s.key := fun hss =>
    congrArg (fun sk => sk.1.key) hss
  refine ⟨fun key hmem => ?_, fun number id => ?_⟩
  · obtain ⟨id, s, hs, rfl⟩ := mem_keys_iff.mp hmem
    obtain ⟨s', hs', hss⟩ := exists_get?_of_skeleton h hs
    rw [hstrings, ← hkey hss]
    exact ht.interned _ (mem_keys_iff.mpr ⟨id, s', hs', rfl⟩)
  · rw [hregistry, hstrings, ht.registry]
    constructor
    · rintro ⟨s, hs, hnumber⟩
      obtain ⟨s', hs', hss⟩ := exists_get?_of_skeleton h.symm hs
      exact ⟨s', hs', by rwa [hkey hss]⟩
    · rintro ⟨s, hs, hnumber⟩
      obtain ⟨s', hs', hss⟩ := exists_get?_of_skeleton h hs
      exact ⟨s', hs', by rwa [hkey hss]⟩

section Indexed

variable {t : Table} (ht : t.Indexed) {key : String} {n : Nat}

include ht

theorem Indexed.find?_eq_some_iff :
    t.find? key = some n ↔ ∃ s, t.get? n = some s ∧ s.key = key := by
  unfold find?
  rw [Option.bind_eq_some_iff]
  constructor
  · rintro ⟨number, hnumber, hn⟩
    obtain ⟨s, hs, hs'⟩ := (ht.registry number n).mp hn
    exact ⟨s, hs, Interner.find?_inj hs' hnumber⟩
  · rintro ⟨s, hs, rfl⟩
    have hmem : s.key ∈ t.keys := mem_keys_iff.mpr ⟨n, s, hs, rfl⟩
    obtain ⟨number, hnumber⟩ := Interner.exists_find? (ht.interned _ hmem)
    exact ⟨number, hnumber, (ht.registry number n).mpr ⟨s, hs, hnumber⟩⟩

theorem Indexed.isSome_find?_iff : (t.find? key).isSome ↔ key ∈ t.keys := by
  rw [mem_keys_iff, Option.isSome_iff_exists]
  exact exists_congr fun n => ht.find?_eq_some_iff

theorem Indexed.find?_eq_none_iff : t.find? key = none ↔ key ∉ t.keys := by
  rw [← ht.isSome_find?_iff, Option.not_isSome_iff_eq_none]

theorem Indexed.mem_keys_of_find? (h : t.find? key = some n) : key ∈ t.keys :=
  ht.isSome_find?_iff.mp (Option.isSome_iff_exists.mpr ⟨n, h⟩)

theorem Indexed.find?_le (h : t.find? key = some n) : 1 ≤ n ∧ n ≤ t.size := by
  obtain ⟨s, hs, -⟩ := ht.find?_eq_some_iff.mp h
  exact (t.isSome_get?_iff n).mp (Option.isSome_iff_exists.mpr ⟨s, hs⟩)

/-- **No two symbols have the same key**: a key has one number, and that leads to one symbol. -/
theorem Indexed.nodup_keys : t.keys.Nodup := by
  have hlength : t.keys.length = t.symbols.toList.length := List.length_map ..
  rw [List.nodup_iff_injective_getElem]
  rintro ⟨i, hi⟩ ⟨j, hj⟩ heq
  have hfind : ∀ (k : Nat) (hk : k < t.keys.length), t.find? t.keys[k] = some (k + 1) := by
    intro k hk
    rw [hlength] at hk
    exact ht.find?_eq_some_iff.mpr
      ⟨t.symbols.toList[k], by rw [get?_succ, List.getElem?_eq_getElem hk], by simp [keys]⟩
  have hsame : some (i + 1) = some (j + 1) := by
    rw [← hfind i hi, ← hfind j hj]
    exact congrArg t.find? heq
  simpa using hsame

end Indexed

end Table

namespace Atlas

def skeleton (a : Atlas) : List Table.Skeleton :=
  a.tables.toList.map Table.skeleton

theorem getElem?_skeleton (a : Atlas) (i : Nat) :
    a.skeleton[i]? = a.tables[i]?.map Table.skeleton := by
  simp [skeleton]

theorem symbol?_skeleton (a : Atlas) (q : SymbolRef) :
    (a.symbol? q).map Symbol.skeleton
      = (a.skeleton[q.table]?).bind fun t => if q.id = 0 then none else t.symbols[q.id - 1]? := by
  rw [getElem?_skeleton]
  unfold symbol?
  cases a.tables[q.table]? with
  | none => rfl
  | some t => exact t.get?_skeleton q.id

/-- Writing to slots leaves the skeletons alone. -/
theorem skeleton_modifySymbol (a : Atlas) (r : SymbolRef) {f : Symbol → Symbol}
    (hf : ∀ s, (f s).skeleton = s.skeleton) : (a.modifySymbol r f).skeleton = a.skeleton := by
  apply List.ext_getElem?
  intro i
  rw [getElem?_skeleton, getElem?_skeleton]
  unfold modifySymbol
  by_cases hr : r.id = 0
  · rw [if_pos hr]
  · rw [if_neg hr, tables_modifyTable]
    -- only the table of the reference is written, and in it only one symbol
    by_cases hi : i = r.table
    · rw [if_pos hi, Option.map_map]
      cases a.tables[i]? with
      | none => rfl
      | some t =>
          simp only [Option.map_some, Function.comp, Option.some.injEq, Table.skeleton,
            Table.Skeleton.mk.injEq, true_and]
          rw [Array.toList_modify]
          apply List.ext_getElem?
          intro k
          rw [List.getElem?_map, List.getElem?_map, List.getElem?_modify]
          by_cases hk : r.id - 1 = k
          · simp only [hk, if_true]
            cases t.symbols.toList[k]? with
            | none => rfl
            | some s => simp [hf]
          · simp [hk]
    · rw [if_neg hi]

theorem skeleton_modifyTable (a : Atlas) (i : Nat) {f : Table → Table}
    (hf : ∀ t, (f t).skeleton = t.skeleton) : (a.modifyTable i f).skeleton = a.skeleton := by
  apply List.ext_getElem?
  intro j
  rw [getElem?_skeleton, getElem?_skeleton, tables_modifyTable]
  by_cases hj : j = i
  · rw [if_pos hj, Option.map_map]
    cases a.tables[j]? with
    | none => rfl
    | some t => simp [hf]
  · rw [if_neg hj]

section Congruence

variable {a b : Atlas} (h : b.skeleton = a.skeleton)

include h

theorem map_tables_of_skeleton (i : Nat) :
    b.tables[i]?.map Table.skeleton = a.tables[i]?.map Table.skeleton := by
  rw [← getElem?_skeleton, ← getElem?_skeleton, h]

/-- **Which key names which symbol is fixed by the skeletons.** -/
theorem find?_eq_of_skeleton (table : Nat) (key : String) :
    b.find? table key = a.find? table key := by
  have ht := map_tables_of_skeleton h table
  unfold find?
  cases hb : b.tables[table]? with
  | none =>
      cases ha : a.tables[table]? with
      | none => rfl
      | some t => simp [hb, ha] at ht
  | some t =>
      cases ha : a.tables[table]? with
      | none => simp [hb, ha] at ht
      | some t' =>
          have hsk : t.skeleton = t'.skeleton := by simpa [hb, ha] using ht
          rw [Option.bind_some, Option.bind_some, Table.find?_of_skeleton hsk]

theorem members_eq_of_skeleton (table : Nat) : b.members table = a.members table := by
  have ht := map_tables_of_skeleton h table
  unfold members
  cases hb : b.tables[table]? with
  | none =>
      cases ha : a.tables[table]? with
      | none => rfl
      | some t => simp [hb, ha] at ht
  | some t =>
      cases ha : a.tables[table]? with
      | none => simp [hb, ha] at ht
      | some t' =>
          have hsk : t.skeleton = t'.skeleton := by simpa [hb, ha] using ht
          simp [Table.size_eq_length_skeleton, hsk]

theorem size_eq_of_skeleton : b.size = a.size := by
  have hsize : ∀ c : Atlas, c.size = (c.skeleton.map (·.symbols.length)).foldr (· + ·) 0 := by
    intro c
    unfold size skeleton
    rw [List.map_map]
    exact congrArg (List.foldr _ 0) (List.map_congr_left fun t _ => t.size_eq_length_skeleton)
  rw [hsize, hsize, h]

theorem symbol?_skeleton_eq (q : SymbolRef) :
    (b.symbol? q).map Symbol.skeleton = (a.symbol? q).map Symbol.skeleton := by
  rw [symbol?_skeleton, symbol?_skeleton, h]

/-- A symbol of one atlas has a counterpart with its skeleton in the other. -/
theorem exists_symbol_of_skeleton {q : SymbolRef} {s : Symbol} (hs : b.symbol? q = some s) :
    ∃ s', a.symbol? q = some s' ∧ s.skeleton = s'.skeleton := by
  have hq := symbol?_skeleton_eq h q
  rw [hs] at hq
  obtain ⟨s', hs', heq⟩ := Option.map_eq_some_iff.mp hq.symm
  exact ⟨s', hs', heq.symm⟩

end Congruence

/-! ## Keys -/

/-- The registries of all tables are in step with their symbols. -/
def Indexed (a : Atlas) : Prop :=
  ∀ t ∈ a.tables.toList, t.Indexed

theorem Indexed.congr {a b : Atlas} (ha : a.Indexed) (h : b.skeleton = a.skeleton) : b.Indexed := by
  intro t ht
  have hmem : t.skeleton ∈ a.skeleton := h ▸ List.mem_map_of_mem ht
  obtain ⟨t', ht', hsk⟩ := List.mem_map.mp hmem
  exact (ha t' ht').congr hsk.symm

theorem Indexed.symbol?_of_find? {a : Atlas} (ha : a.Indexed) {table : Nat} {key : String}
    {r : SymbolRef} (h : a.find? table key = some r) : ∃ s, a.symbol? r = some s ∧ s.key = key := by
  unfold find? at h
  obtain ⟨n, hn, rfl⟩ := Option.map_eq_some_iff.mp h
  obtain ⟨t, ht, hfind⟩ := Option.bind_eq_some_iff.mp hn
  have hmem : t ∈ a.tables.toList := Array.mem_toList_iff.mpr (Array.mem_of_getElem? ht)
  obtain ⟨s, hs, hkey⟩ := (ha t hmem).find?_eq_some_iff.mp hfind
  refine ⟨s, ?_, hkey⟩
  unfold symbol?
  rw [ht]
  exact hs

theorem table_of_find? {a : Atlas} {table : Nat} {key : String} {r : SymbolRef}
    (h : a.find? table key = some r) : r.table = table := by
  unfold find? at h
  obtain ⟨n, -, rfl⟩ := Option.map_eq_some_iff.mp h
  rfl

/-! ## Counts -/

theorem stats_modifySymbol (a : Atlas) (r : SymbolRef) (f : Symbol → Symbol) (table : Nat) :
    (a.modifySymbol r f).stats table = a.stats table := by
  unfold modifySymbol
  by_cases hr : r.id = 0
  · rw [if_pos hr]
  · rw [if_neg hr]
    unfold stats
    rw [tables_modifyTable]
    by_cases ht : table = r.table
    · rw [if_pos ht]
      cases a.tables[table]? <;> rfl
    · rw [if_neg ht]

end Atlas

end SymbolAtlas
