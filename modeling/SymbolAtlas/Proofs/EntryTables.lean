import SymbolAtlas.Proofs.Execution
import SymbolAtlas.Toml.Shape
import Mathlib.Tactic

set_option autoImplicit false

/-! # The tables of entries

Every header of an entry adds a table to one array, and the pairs after it change the last table of
this array. What a change touches is told by the way it takes through the tables: a way that is
`Apart` leads past the keys of all entries. The changes that headers and pairs make are two, making
the tables on a way and changing the one at its end, and neither touches a key that its way leads
past. -/

namespace SymbolAtlas.Toml

/-! ## Fields -/

namespace Fields

variable {fields : Fields} {name k : String} {value v : Value}

theorem any_eq_isSome : fields.any (·.1 == name) = (fields.lookup name).isSome := by
  induction fields with
  | nil => rfl
  | cons f fields ih =>
      obtain ⟨n, v⟩ := f
      rw [List.any_cons, List.lookup_cons, ih]
      by_cases h : name = n
      · simp [h]
      · have h' : (n == name) = false := by simpa using fun heq : n = name => h heq.symm
        have h'' : (name == n) = false := by simpa using h
        simp [h', h'']

theorem lookup_set_self : (set fields name value).lookup name = some value := by
  unfold set
  split
  · rename_i hany
    induction fields with
    | nil => cases hany
    | cons f fields ih =>
        obtain ⟨n, v⟩ := f
        by_cases h : n = name
        · simp [h]
        · have h' : (name == n) = false := by simpa using fun heq : name = n => h heq.symm
          have hany' : fields.any (·.1 == name) = true := by simpa [h] using hany
          rw [List.map_cons, if_neg (by simpa using h), List.lookup_cons, h']
          exact ih hany'
  · rename_i hany
    rw [any_eq_isSome, Bool.not_eq_true, Option.isSome_eq_false_iff, Option.isNone_iff_eq_none]
      at hany
    rw [List.lookup_append, hany]
    simp

theorem lookup_set_ne (h : k ≠ name) : (set fields name value).lookup k = fields.lookup k := by
  have hk : (k == name) = false := by simpa using h
  unfold set
  split
  · rename_i hany
    clear hany
    induction fields with
    | nil => rfl
    | cons f fields ih =>
        obtain ⟨n, v⟩ := f
        rw [List.map_cons]
        by_cases hn : n = name
        · subst hn
          rw [if_pos (beq_self_eq_true n), List.lookup_cons, List.lookup_cons, hk]
          exact ih
        · rw [if_neg (by simpa using hn), List.lookup_cons, List.lookup_cons, ih]
  · rw [List.lookup_append]
    simp [List.lookup_cons, hk]

theorem get?_of_lookup (h : fields.lookup name = some value) : get? fields name = some value := by
  have hfind : (fields.find? (·.1 == name)).map Prod.snd = some value := by
    rw [← h]
    clear h
    induction fields with
    | nil => rfl
    | cons f fields ih =>
        obtain ⟨n, v⟩ := f
        by_cases hn : n = name
        · simp [hn]
        · have hn' : (name == n) = false := by simpa using fun heq : name = n => hn heq.symm
          rw [List.find?_cons_of_neg (by simpa using hn), List.lookup_cons, hn']
          exact ih
  unfold get? Shape.field?
  rw [Option.map_or, hfind]
  rfl

end Fields

/-! ## Ways -/

/-- A way through the tables of a document that leads past the keys of the entries. -/
inductive Apart : Key → Prop where
  | other {p : String} {way : Key} : p ≠ "symbol" → Apart (p :: way)
  | field {q : String} {way : Key} : q ≠ "key" → Apart ("symbol" :: q :: way)

theorem Apart.append {way : Key} (h : Apart way) (more : Key) : Apart (way ++ more) := by
  cases h with
  | other hp => exact .other hp
  | field hq => exact .field hq

/-- A way into the last entry does not go on to its key. -/
theorem Apart.head?_ne {way : Key} (h : Apart ("symbol" :: way)) : way.head? ≠ some "key" := by
  cases h with
  | other hp => exact absurd rfl hp
  | field hq => simpa using hq

/-- A change that touches one field only. -/
def Touches (name : String) (change : Fields → Except BuildM.Conflict Fields) : Prop :=
  ∀ fields fields', change fields = .ok fields' → ∀ k ≠ name, fields'.lookup k = fields.lookup k

open BuildM

variable {fields fields' : Fields}

/-- **What changing a table further on does**: only the first field on the way is set again. -/
theorem updateAt_cons_ok {change : Fields → Except Conflict Fields} {w : String} {way passed : Key}
    (h : updateAt change (w :: way) passed fields = .ok fields') : ∃ v inner inner',
      fields.lookup w = some v ∧ Step.fields? v = some inner ∧
      updateAt change way (passed ++ [w]) inner = .ok inner' ∧
      fields' = Fields.set fields w (Step.withFields inner' v) := by
  -- each way to fail is ruled out, which leaves the one on which the change is made further in
  rw [updateAt] at h
  cases hlookup : fields.lookup w with
  | none =>
      rw [hlookup] at h
      cases h
  | some v =>
      rw [hlookup] at h
      dsimp only at h
      cases hinner : Step.fields? v with
      | none =>
          rw [hinner] at h
          cases h
      | some inner =>
          rw [hinner] at h
          cases hupdate : updateAt change way (passed ++ [w]) inner with
          | error e =>
              simp only [hupdate] at h
              cases h
          | ok inner' =>
              simp only [hupdate] at h
              cases h
              exact ⟨v, inner, inner', rfl, hinner, hupdate, rfl⟩

/-- **What making the tables on a way does**: the first one is made if it is missing, and set again
with the others made in it. -/
theorem openWay_cons_ok {w : String} {way passed : Key} {made : List Key}
    (h : openWay (w :: way) passed fields = .ok (made, fields')) : ∃ inner made' inner' v',
      openWay way (passed ++ [w]) inner = .ok (made', inner') ∧ fields' = Fields.set fields w v' ∧
      ((fields.lookup w = none ∧ inner = [] ∧ v' = .table inner') ∨
        ∃ v, fields.lookup w = some v ∧ Step.fields? v = some inner ∧
        v' = Step.withFields inner' v) := by
  -- the first table is missing and made empty, or it is there and gone into
  rw [openWay] at h
  cases hlookup : fields.lookup w with
  | none =>
      rw [hlookup] at h
      dsimp only at h
      cases hopen : openWay way (passed ++ [w]) [] with
      | error e =>
          simp only [hopen] at h
          cases h
      | ok made' =>
          simp only [hopen] at h
          cases h
          exact ⟨[], made'.1, made'.2, _, hopen, rfl, Or.inl ⟨rfl, rfl, rfl⟩⟩
  | some v =>
      rw [hlookup] at h
      dsimp only at h
      cases hinner : Step.fields? v with
      | none =>
          rw [hinner] at h
          cases h
      | some inner =>
          rw [hinner] at h
          dsimp only at h
          cases hopen : openWay way (passed ++ [w]) inner with
          | error e =>
              simp only [hopen] at h
              cases h
          | ok made' =>
              simp only [hopen] at h
              cases h
              exact ⟨inner, made'.1, made'.2, _, hopen, rfl, Or.inr ⟨v, rfl, hinner, rfl⟩⟩

/-- A change at the end of a way leaves alone what stands beside the way. -/
theorem lookup_updateAt {name k : String} {change : Fields → Except Conflict Fields}
    (hchange : Touches name change) {way passed : Key}
    (h : updateAt change way passed fields = .ok fields') (hk : (way ++ [name]).head? ≠ some k) :
    fields'.lookup k = fields.lookup k := by
  cases way with
  | nil => exact hchange fields fields' h k fun heq => hk (by rw [heq]; rfl)
  | cons w way =>
      obtain ⟨v, inner, inner', -, -, -, rfl⟩ := updateAt_cons_ok h
      exact Fields.lookup_set_ne fun heq => hk (by rw [heq]; rfl)

theorem lookup_openWay {k : String} {way passed : Key} {made : List Key}
    (h : openWay way passed fields = .ok (made, fields')) (hk : way.head? ≠ some k) :
    fields'.lookup k = fields.lookup k := by
  cases way with
  | nil =>
      cases h
      rfl
  | cons w way =>
      obtain ⟨inner, made', inner', v', -, rfl, -⟩ := openWay_cons_ok h
      exact Fields.lookup_set_ne fun heq => hk (by rw [heq]; rfl)

/-! ## The keys of the entries -/

/-- The entries of a document and what stands as their keys. -/
def Listed (fields : Fields) (keys : List (Option Value)) : Prop :=
  ∃ items : List Fields, fields.lookup "symbol" = some (.tables items) ∧
    items.map (·.lookup "key") = keys

/-- Putting the last entry back changes no key if it has kept its own. -/
theorem Listed.set_last {keys : List (Option Value)} (h : Listed fields keys) {v : Value}
    (hv : fields.lookup "symbol" = some v) {inner inner' : Fields}
    (hinner : Step.fields? v = some inner) (hkey : inner'.lookup "key" = inner.lookup "key") :
    Listed (Fields.set fields "symbol" (Step.withFields inner' v)) keys := by
  obtain ⟨items, hitems, rfl⟩ := h
  rw [hitems] at hv
  obtain rfl := Option.some.inj hv
  refine ⟨items.dropLast ++ [inner'], Fields.lookup_set_self, ?_⟩
  rw [List.map_append, List.map_singleton, hkey, ← List.map_singleton, ← List.map_append,
    List.dropLast_append_getLast? inner hinner]

/-- **Changes apart from the keys** leave them alone. -/
theorem Listed.updateAt {keys : List (Option Value)} (h : Listed fields keys) {name : String}
    {change : Fields → Except Conflict Fields} (hchange : Touches name change) {way passed : Key}
    (hupdate : updateAt change way passed fields = .ok fields') (hway : Apart (way ++ [name])) :
    Listed fields' keys := by
  by_cases hhead : (way ++ [name]).head? = some "symbol"
  · cases way with
    | nil =>
        obtain rfl := Option.some.inj hhead
        cases hway with
        | other hp => exact absurd rfl hp
    | cons w way =>
        obtain rfl := Option.some.inj hhead
        obtain ⟨v, inner, inner', hv, hinner, hrest, rfl⟩ := updateAt_cons_ok hupdate
        exact h.set_last hv hinner (lookup_updateAt hchange hrest hway.head?_ne)
  · obtain ⟨items, hitems, hkeys⟩ := h
    exact ⟨items, (lookup_updateAt hchange hupdate hhead).trans hitems, hkeys⟩

theorem Listed.openWay {keys : List (Option Value)} (h : Listed fields keys) {way passed : Key}
    {name : String} {made : List Key} (hopen : openWay way passed fields = .ok (made, fields'))
    (hway : Apart (way ++ [name])) : Listed fields' keys := by
  by_cases hhead : way.head? = some "symbol"
  · cases way with
    | nil => cases hhead
    | cons w way =>
        obtain rfl := Option.some.inj hhead
        obtain ⟨inner, made', inner', v', hrest, rfl, hv⟩ := openWay_cons_ok hopen
        obtain ⟨items, hitems, -⟩ := id h
        rcases hv with ⟨hnone, -⟩ | ⟨v, hv, hinner, rfl⟩
        · rw [hitems] at hnone
          cases hnone
        · refine h.set_last hv hinner (lookup_openWay hrest ?_)
          have hne := hway.head?_ne
          cases way with
          | nil => simp
          | cons q way => simpa using hne
  · obtain ⟨items, hitems, hkeys⟩ := h
    exact ⟨items, (lookup_openWay hopen hhead).trans hitems, hkeys⟩

end SymbolAtlas.Toml
