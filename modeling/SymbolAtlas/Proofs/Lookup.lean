import SymbolAtlas.Proofs.Execution

set_option autoImplicit false

/-! # Looking symbols up in a changed atlas

`symbol?_modifySymbol` says which symbols a change touches, `length_le_size` that distinct names of
symbols are at most as many as the atlas has symbols. The remaining lemmas execute the operations
that read and write one symbol. -/

namespace SymbolAtlas

namespace Table

/-- Changing the symbol at place `id - 1` changes the symbol of number `id` only. -/
theorem get?_modify (t : Table) (id n : Nat) (f : Symbol → Symbol) (hid : id ≠ 0) :
    Table.get? { t with symbols := t.symbols.modify (id - 1) f } n
      = if n = id then (t.get? n).map f else t.get? n := by
  unfold Table.get?
  by_cases hn : n = 0
  · simp [hn]
  · by_cases heq : n = id
    · simp [heq, hid, Array.getElem?_modify]
    · have hne : ¬ id - 1 = n - 1 := by omega
      simp [hn, heq, hne, Array.getElem?_modify]

end Table

namespace Atlas

theorem tables_modifyTable (a : Atlas) (i j : Nat) (f : Table → Table) :
    (a.modifyTable i f).tables[j]? = if j = i then a.tables[j]?.map f else a.tables[j]? := by
  unfold modifyTable
  rw [Array.getElem?_modify]
  by_cases h : j = i
  · simp [h]
  · have : ¬ i = j := fun h' => h h'.symm
    simp [h, this]

/-- A change that keeps the symbols of a table keeps every symbol. -/
theorem symbol?_modifyTable {f : Table → Table} (hf : ∀ t, (f t).symbols = t.symbols)
    (a : Atlas) (i : Nat) (q : SymbolRef) : (a.modifyTable i f).symbol? q = a.symbol? q := by
  unfold symbol?
  rw [tables_modifyTable]
  by_cases h : q.table = i
  · rw [if_pos h]
    cases a.tables[q.table]? with
    | none => rfl
    | some t =>
        show (f t).get? q.id = t.get? q.id
        unfold Table.get?
        rw [hf]
  · rw [if_neg h]

theorem symbol?_modifySymbol (a : Atlas) (r q : SymbolRef) (f : Symbol → Symbol) :
    (a.modifySymbol r f).symbol? q = if q = r then (a.symbol? q).map f else a.symbol? q := by
  unfold modifySymbol
  by_cases hr : r.id = 0
  · -- nothing has the number zero, so there is nothing to change
    rw [if_pos hr]
    by_cases hq : q = r
    · subst hq
      have : a.symbol? q = none := by
        unfold symbol? Table.get?
        cases a.tables[q.table]? <;> simp [hr]
      simp [this]
    · rw [if_neg hq]
  · rw [if_neg hr]
    unfold symbol?
    rw [tables_modifyTable]
    by_cases ht : q.table = r.table
    · rw [if_pos ht]
      cases htab : a.tables[q.table]? with
      | none => simp
      | some t =>
          show Table.get? { t with symbols := t.symbols.modify (r.id - 1) f } q.id = _
          rw [Table.get?_modify t r.id q.id f hr]
          by_cases hid : q.id = r.id
          · have hq : q = r := by
              cases q; cases r
              simp_all
            simp [hq]
          · have hq : ¬ q = r := fun h => hid (by rw [h])
            simp [hid, hq]
    · have hq : ¬ q = r := fun h => ht (by rw [h])
      rw [if_neg ht, if_neg hq]

theorem symbol?_modifySymbol_self {a : Atlas} {r : SymbolRef} {s : Symbol}
    (h : a.symbol? r = some s) (f : Symbol → Symbol) :
    (a.modifySymbol r f).symbol? r = some (f s) := by
  rw [symbol?_modifySymbol, if_pos rfl, h]
  rfl

theorem symbol?_modifySymbol_ne (a : Atlas) {r q : SymbolRef} (h : q ≠ r) (f : Symbol → Symbol) :
    (a.modifySymbol r f).symbol? q = a.symbol? q := by
  rw [symbol?_modifySymbol, if_neg h]

/-! ## Counting symbols -/

def names (a : Atlas) : List SymbolRef :=
  (List.range a.tables.size).flatMap a.members

theorem length_members (a : Atlas) (table : Nat) :
    (a.members table).length = (a.tables[table]?.map Table.size).getD 0 := by
  unfold members
  cases a.tables[table]? <;> simp

theorem length_names (a : Atlas) : a.names.length = a.size := by
  have hmap : (List.range a.tables.size).map (fun i => (a.members i).length)
      = a.tables.toList.map Table.size := by
    apply List.ext_getElem
    · simp
    · intro i h1 h2
      have hi : i < a.tables.size := by simpa using h2
      simp [length_members, hi]
  unfold names size
  rw [List.length_flatMap, hmap, List.sum_eq_foldr]

theorem mem_members {a : Atlas} {table : Nat} {q : SymbolRef} :
    q ∈ a.members table ↔ q.table = table ∧ (a.symbol? q).isSome := by
  unfold members symbol?
  cases q with
  | mk i n =>
      constructor
      · intro h
        cases ht : a.tables[table]? with
        | none => simp [ht] at h
        | some t =>
            simp only [ht, List.mem_map, List.mem_range, SymbolRef.mk.injEq] at h
            obtain ⟨k, hk, rfl, rfl⟩ := h
            have hk' : k < t.symbols.size := hk
            simp [ht, Table.get?, hk']
      · rintro ⟨rfl, h⟩
        cases ht : a.tables[i]? with
        | none => simp [ht] at h
        | some t =>
            simp only [ht, Option.bind_some, Table.get?] at h
            by_cases hn : n = 0
            · simp [hn] at h
            · have hlt : n - 1 < t.symbols.size := by simpa [hn] using h
              simp only [List.mem_map, List.mem_range, SymbolRef.mk.injEq, true_and]
              exact ⟨n - 1, hlt, by omega⟩

theorem nodup_members (a : Atlas) (table : Nat) : (a.members table).Nodup := by
  unfold members
  cases a.tables[table]? with
  | none => exact List.nodup_nil
  | some t =>
      refine List.nodup_range.map ?_
      intro i j hij
      simpa using hij

theorem mem_names {a : Atlas} {q : SymbolRef} (h : (a.symbol? q).isSome) : q ∈ a.names := by
  have ht : q.table < a.tables.size := by
    by_contra hge
    have : a.tables[q.table]? = none := Array.getElem?_eq_none (by omega)
    simp [symbol?, this] at h
  unfold names
  rw [List.mem_flatMap]
  exact ⟨q.table, List.mem_range.mpr ht, mem_members.mpr ⟨rfl, h⟩⟩

/-- **Distinct names of symbols are at most as many as there are symbols.** -/
theorem length_le_size {a : Atlas} {l : List SymbolRef} (hn : l.Nodup)
    (hl : ∀ q ∈ l, (a.symbol? q).isSome) : l.length ≤ a.size := by
  rw [← length_names]
  exact (hn.subperm fun q hq => mem_names (hl q hq)).length_le

end Atlas

/-! ## Reading and writing one symbol -/

namespace AtlasM

theorem exec_read {a : Atlas} {r : SymbolRef} {s : Symbol} (h : a.symbol? r = some s) :
    exec (read r) a = (.ok s, a) := by
  unfold read
  rw [exec_bind_ok (exec_get a), h]
  rfl

theorem exec_read_missing {a : Atlas} {r : SymbolRef} (h : a.symbol? r = none) :
    exec (read r) a = (.error (.fault .missingSymbol), a) := by
  unfold read
  rw [exec_bind_ok (exec_get a), h]
  rfl

@[simp] theorem exec_update (r : SymbolRef) (f : Symbol → Symbol) (a : Atlas) :
    exec (update r f) a = (.ok (), a.modifySymbol r f) := rfl

@[simp] theorem exec_violate {α : Type} (v : Violation) (s : Option SymbolRef) (a : Atlas) :
    exec (violate v s : AtlasM α) a = (.error (.contract v (a.text s)), a) := rfl

end AtlasM

end SymbolAtlas
