import SymbolAtlas.Manifest.Entry
import Mathlib.Data.List.Nodup

set_option autoImplicit false

/-! # The tables of a manifest

A document that is read fits the shape that was asked for (`fits_of_read`), so a field of a table is
of its kind wherever it is given. What the draft of a table is called, what kind it names and where
it is contained are therefore the texts of three fields (`DraftOf`), and never a value that was
passed over. -/

namespace SymbolAtlas

open SymbolAtlas.Toml SymbolAtlas.Toml.Shape

/-! ## Fitting a shape -/

namespace Toml

/-- **A value fits a shape**: it is of the kind, and what is in it fits in turn. A field that the
shape does not know may be anything. -/
inductive Fits : Shape → Value → Prop
  | text (s : String) : Fits .text (.text s)
  | boolean (b : Bool) : Fits .boolean (.boolean b)
  | integer (n : Int) : Fits .integer (.integer n)
  | array {item : Shape} {items : List Value} (h : ∀ v ∈ items, Fits item v) :
      Fits (.list item) (.array items)
  | tables {item : Shape} {items : List Fields} (h : ∀ t ∈ items, Fits item (.table t)) :
      Fits (.list item) (.tables items)
  | record {name : String} {fields : List (String × Shape)} {given : Fields}
      (h : ∀ n v f s, (n, v) ∈ given → field? fields n = some (f, s) → Fits s v) :
      Fits (.record name fields) (.table given)

theorem exists_of_bind_ok {ε α β : Type} {x : Except ε α} {f : α → Except ε β} {b : β}
    (h : (x >>= f) = .ok b) : ∃ a, x = .ok a ∧ f a = .ok b := by
  cases x with
  | error e => cases h
  | ok a => exact ⟨a, rfl, h⟩

variable {info : List (String × KeyInfo)}

mutual

/-- **What passes the check fits.** -/
theorem fits_of_check {key : Key} {s : Shape} {v : Value} {known : List Key}
    (h : check info key s v = .ok known) : Fits s v := by
  cases s with
  | text => cases v <;> simp [check] at h; exact .text _
  | boolean => cases v <;> simp [check] at h; exact .boolean _
  | integer => cases v <;> simp [check] at h; exact .integer _
  | list item =>
      cases v with
      | array items => exact .array (fits_of_checkItems (by simpa [check] using h))
      | tables items => exact .tables (fits_of_checkTables (by simpa [check] using h))
      | _ => simp [check] at h
  | record name fields =>
      cases v with
      | table given => exact .record (fits_of_checkFields (by simpa [check] using h))
      | _ => simp [check] at h
termination_by sizeOf v

theorem fits_of_checkItems {key : Key} {item : Shape} {items : List Value} {known : List Key}
    (h : checkItems info key item items = .ok known) : ∀ v ∈ items, Fits item v := by
  cases items with
  | nil => simp
  | cons v items =>
      rw [checkItems] at h
      obtain ⟨first, hfirst, h⟩ := exists_of_bind_ok h
      obtain ⟨rest, hrest, -⟩ := exists_of_bind_ok h
      exact List.forall_mem_cons.mpr ⟨fits_of_check hfirst, fits_of_checkItems hrest⟩
termination_by sizeOf items

theorem fits_of_checkTables {key : Key} {item : Shape} {items : List Fields} {known : List Key}
    (h : checkTables info key item items = .ok known) : ∀ t ∈ items, Fits item (.table t) := by
  cases items with
  | nil => simp
  | cons t items =>
      -- only tables with named fields make a list of tables
      cases item with
      | record name fields =>
          rw [checkTables] at h
          obtain ⟨first, hfirst, h⟩ := exists_of_bind_ok h
          obtain ⟨rest, hrest, -⟩ := exists_of_bind_ok h
          exact List.forall_mem_cons.mpr
            ⟨.record (fits_of_checkFields hfirst), fits_of_checkTables hrest⟩
      | _ => simp [checkTables, bind, Except.bind] at h
termination_by sizeOf items

theorem fits_of_checkFields {key : Key} {fields : List (String × Shape)} {given : Fields}
    {known : List Key} (h : checkFields info key fields given = .ok known) :
    ∀ n v f s, (n, v) ∈ given → field? fields n = some (f, s) → Fits s v := by
  match given, h with
  | [], _ => simp
  | (name, value) :: given, h =>
      rw [checkFields] at h
      -- a field that the shape does not know is passed over
      cases hfield : field? fields name with
      | none =>
          rw [hfield] at h
          obtain ⟨first, -, h⟩ := exists_of_bind_ok h
          obtain ⟨rest, hrest, -⟩ := exists_of_bind_ok h
          have hfits := fits_of_checkFields hrest
          intro n v f s hmem hf
          rcases List.mem_cons.mp hmem with heq | hmem
          · rw [(Prod.mk.inj heq).1, hfield] at hf
            cases hf
          · exact hfits n v f s hmem hf
      | some found =>
          obtain ⟨f', s'⟩ := found
          rw [hfield] at h
          obtain ⟨inner, hinner, h⟩ := exists_of_bind_ok h
          obtain ⟨first, -, h⟩ := exists_of_bind_ok h
          obtain ⟨rest, hrest, -⟩ := exists_of_bind_ok h
          have hvalue := fits_of_check hinner
          have hfits := fits_of_checkFields hrest
          intro n v f s hmem hf
          rcases List.mem_cons.mp hmem with heq | hmem
          · obtain ⟨rfl, rfl⟩ := Prod.mk.inj heq
            rw [hfield] at hf
            obtain ⟨-, rfl⟩ := Prod.mk.inj (Option.some.inj hf)
            exact hvalue
          · exact hfits n v f s hmem hf
termination_by sizeOf given

end

/-- **A document that is read fits its shape.** -/
theorem fits_of_read {name : String} {shape : List (String × Shape)} {bytes : List UInt8}
    {fields : Fields} {unknown : List Key} (h : Document.read shape bytes = .ok (fields, unknown)) :
    Fits (.record name shape) (.table fields) := by
  unfold Document.read at h
  split at h
  · cases h
  · split at h
    · cases h
    · rename_i d _ known hcheck
      obtain ⟨rfl, -⟩ := Prod.mk.inj (Except.ok.inj h)
      exact .record (fits_of_checkFields hcheck)

/-! ## Fields of a table that fits -/

/-- A field that is found stands in the table, and has the name that was asked for in some case. -/
theorem mem_of_field? {α : Type} {fields : List (String × α)} {name f : String} {a : α}
    (h : field? fields name = some (f, a)) : (f, a) ∈ fields ∧ fold f = fold name := by
  unfold field? at h
  rcases Option.or_eq_some_iff.mp h with h | ⟨-, h⟩
  · have hname : f = name := by simpa using List.find?_some h
    exact ⟨List.mem_of_find?_eq_some h, by rw [hname]⟩
  · exact ⟨List.mem_of_find?_eq_some h, by simpa using List.find?_some h⟩

/-- Where no two names differ in case only, a field is found under its name in any case. -/
theorem field?_of_fold {α : Type} {fields : List (String × α)}
    (hn : (fields.map fun f => fold f.1).Nodup) {f name : String} {a : α} (hmem : (f, a) ∈ fields)
    (hfold : fold f = fold name) : field? fields name = some (f, a) := by
  -- whatever is found has the name in some case, and something is
  have hfound : (field? fields name).isSome := by
    unfold field?
    rw [Option.isSome_or, Bool.or_eq_true]
    right
    rw [List.find?_isSome]
    exact ⟨(f, a), hmem, by simpa using hfold⟩
  obtain ⟨⟨f', a'⟩, hfound⟩ := Option.isSome_iff_exists.mp hfound
  obtain ⟨hmem', hfold'⟩ := mem_of_field? hfound
  rw [hfound, List.inj_on_of_nodup_map hn hmem' hmem (hfold'.trans hfold.symm)]

variable {r : String} {fields : List (String × Shape)} {given : Fields}

/-- The value of a field is of the kind of the field. -/
theorem Fits.get? (h : Fits (.record r fields) (.table given))
    (hn : (fields.map fun f => fold f.1).Nodup) {f : String} {s : Shape} (hf : (f, s) ∈ fields)
    {v : Value} (hv : given.get? f = some v) : Fits s v := by
  cases h with
  | record h =>
      obtain ⟨⟨n, w⟩, hfield, rfl⟩ := Option.map_eq_some_iff.mp hv
      obtain ⟨hmem, hfold⟩ := mem_of_field? hfield
      exact h n w f s hmem (field?_of_fold hn hf hfold.symm)

/-- The tables of a field fit, however they were written. -/
theorem Fits.of_mem_tables (h : Fits (.record r fields) (.table given))
    (hn : (fields.map fun f => fold f.1).Nodup) {f : String} {item : Shape}
    (hf : (f, .list item) ∈ fields) {t : Fields} (ht : t ∈ given.tables f) :
    Fits item (.table t) := by
  unfold Fields.tables at ht
  split at ht
  · rename_i items hget
    cases h.get? hn hf hget with
    | tables hitems => exact hitems t ht
  · rename_i items hget
    obtain ⟨v, hv, ht⟩ := List.mem_filterMap.mp ht
    cases h.get? hn hf hget with
    | array hitems =>
        cases v <;> cases ht
        exact hitems _ hv
  · cases ht

/-- The text of a field: what is given there, or the empty text if the field is not there. -/
theorem Fits.text_cases (h : Fits (.record r fields) (.table given))
    (hn : (fields.map fun f => fold f.1).Nodup) {f : String} (hf : (f, .text) ∈ fields) :
    given.get? f = some (.text (given.text f)) ∨ given.get? f = none ∧ given.text f = "" := by
  unfold Fields.text
  cases hget : given.get? f with
  | none => exact Or.inr ⟨rfl, rfl⟩
  | some v =>
      cases h.get? hn hf hget
      exact Or.inl rfl

end Toml

namespace Manifest

/-! ## Drafts -/

/-- A table has a word under a name: the text that is given there, or the empty word if none is. -/
def Says (t : Fields) (name word : String) : Prop :=
  t.get? name = some (.text word) ∨ t.get? name = none ∧ word = ""

/-- **What a draft takes from its table.** Keys are put in normal form, and the name of the kind is
taken as it is written. -/
structure DraftOf (t : Fields) (d : Draft) : Prop where
  key : ∃ word, Says t "key" word ∧ d.key = normalizeKey word
  kindName : Says t "kind" d.kindName
  containing : ∃ word, Says t "containing" word ∧ d.containing = normalizeKey word

/-- No two fields of an entry differ in case only. -/
theorem Draft.nodup_fields : (Draft.fields.map fun f => fold f.1).Nodup := by decide +kernel

/-- **The tables of a manifest that is read** say what their drafts take from them. -/
theorem draftOf_ofFields {bytes : List UInt8} {fields : Fields} {unknown : List Key}
    (h : Document.read Draft.manifestFields bytes = .ok (fields, unknown)) {t : Fields}
    (ht : t ∈ fields.tables "symbol") : DraftOf t (Draft.ofFields t) := by
  have hroot : Fits (.record "" Draft.manifestFields) (.table fields) := fits_of_read h
  have htable : Fits (.record "manifest.Entry" Draft.fields) (.table t) :=
    hroot.of_mem_tables (List.nodup_singleton _) List.mem_cons_self ht
  have hsays : ∀ name, (name, Shape.text) ∈ Draft.fields → Says t name (t.text name) :=
      fun name hname =>
    htable.text_cases Draft.nodup_fields hname
  have hkey : (Draft.ofFields t).key = normalizeKey (t.text "key") := by rw [Draft.ofFields]
  have hkind : (Draft.ofFields t).kindName = t.text "kind" := by rw [Draft.ofFields]
  have hcontaining : (Draft.ofFields t).containing = normalizeKey (t.text "containing") := by
    rw [Draft.ofFields]
  constructor
  case key => exact ⟨t.text "key", hsays _ (by simp [Draft.fields]), hkey⟩
  case kindName =>
    rw [hkind]
    exact hsays _ (by simp [Draft.fields])
  case containing => exact ⟨t.text "containing", hsays _ (by simp [Draft.fields]), hcontaining⟩

end Manifest

end SymbolAtlas
