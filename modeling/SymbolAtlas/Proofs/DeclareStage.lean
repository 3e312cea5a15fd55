import SymbolAtlas.Proofs.ProgramShape
import SymbolAtlas.Proofs.Registry
import SymbolAtlas.Proofs.RunSteps

set_option autoImplicit false

/-! # Declaring a program

Declaring the entries of a well-formed program never fails: the links to the containing types lead
to types and never round in a circle, so no key is met twice on the way outwards
(`ok_of_declaring`). What is added are symbols of entries, each in the symbol of its containing type
(`Follows.declaring`). In the end there is one symbol for each entry, with the symbol of the
containing type at hand (`Layout`). -/

namespace SymbolAtlas.Binding

open Manifest

/-! ## One entry -/

/-- The symbol of the type that an entry is declared in. -/
def ownerRef? (p : Program) (t : Table) (e : Entry) : Option SymbolRef :=
  (p.ownerKey? e).bind fun key => (t.find? key).map fun n => ⟨table, n⟩

/-- The symbols of the table are those of entries, each in the symbol of its containing type, and
the registry leads from their keys to them. -/
structure Follows (p : Program) (t : Table) : Prop where
  indexed : t.Indexed
  entry : ∀ {n s}, t.get? n = some s → ∃ e ∈ p.entries.toList,
    s = Symbol.ofDeclaration e.declaration (ownerRef? p t e) ∧
    ∀ key, p.ownerKey? e = some key → (t.find? key).isSome

theorem ownerKey?_of_owner {p : Program} {e o : Entry} {j : Nat} (he : e.owner = some j)
    (ho : p.entries[j]? = some o) : p.ownerKey? e = some o.key := by
  simp [Program.ownerKey?, he, ho]

theorem ownerRef?_of_grows {p : Program} {t t' : Table} (h : t.Grows t') {e : Entry}
    (he : ∀ key, p.ownerKey? e = some key → (t.find? key).isSome) :
    ownerRef? p t' e = ownerRef? p t e := by
  unfold ownerRef?
  cases hk : p.ownerKey? e with
  | none => rfl
  | some key =>
      obtain ⟨n, hn⟩ := Option.isSome_iff_exists.mp (he key hk)
      simp [hn, h.find? hn]

/-- What was found before is found after the table grew. -/
theorem isSome_find?_of_grows {t t' : Table} (h : t.Grows t') {key : String}
    (hkey : (t.find? key).isSome) : (t'.find? key).isSome := by
  obtain ⟨n, hn⟩ := Option.isSome_iff_exists.mp hkey
  exact Option.isSome_iff_exists.mpr ⟨n, h.find? hn⟩

theorem Follows.intern {p : Program} {t : Table} (h : Follows p t) (key : String) :
    Follows p (t.interned key) := by
  refine ⟨h.indexed.intern key, ?_⟩
  intro n s hs
  obtain ⟨e, he, hse, howner⟩ := h.entry hs
  have hgrows := t.grows_interned key
  exact ⟨e, he, by rw [ownerRef?_of_grows hgrows howner]; exact hse,
    fun k hk => isSome_find?_of_grows hgrows (howner k hk)⟩

/-- A new entry joins the table once its containing type is there. -/
theorem Follows.push {p : Program} {t : Table} (h : Follows p t) {e : Entry} {number : Nat}
    (he : e ∈ p.entries.toList) (hnumber : t.strings.find? e.key = some number)
    (hnew : t.find? e.key = none)
    (howner : ∀ key, p.ownerKey? e = some key → (t.find? key).isSome) :
    Follows p (t.push table number e.declaration (ownerRef? p t e)).2 := by
  have hgrows : t.Grows (t.push table number e.declaration (ownerRef? p t e)).2 :=
    Table.grows_push (d := e.declaration) hnumber hnew table _
  refine ⟨h.indexed.push (d := e.declaration) hnumber hnew table _, ?_⟩
  intro n s hs
  rw [Table.get?_push] at hs
  by_cases hn : n = t.size + 1
  · -- the new symbol
    rw [if_pos hn] at hs
    obtain rfl := Option.some.inj hs
    exact ⟨e, he, by rw [ownerRef?_of_grows hgrows howner],
      fun key hkey => isSome_find?_of_grows hgrows (howner key hkey)⟩
  · rw [if_neg hn] at hs
    obtain ⟨e', he', hse, howner'⟩ := h.entry hs
    exact ⟨e', he', by rw [ownerRef?_of_grows hgrows howner']; exact hse,
      fun key hkey => isSome_find?_of_grows hgrows (howner' key hkey)⟩

theorem outline_get? (p : Program) (i : Nat) :
    p.outline.get? i = p.entries[i]?.map Entry.declaration := by
  unfold Program.outline Outline.get?
  rw [Array.getElem?_map]
  cases p.entries[i]? <;> rfl

theorem outline_owner? (p : Program) (i : Nat) :
    p.outline.owner? i = p.entries[i]?.bind Entry.owner := by
  unfold Program.outline Outline.owner?
  rw [Array.getElem?_map]
  cases p.entries[i]? <;> rfl

theorem place_eq_of_key {p : Program} (hp : p.WellFormed) {i j : Nat} {e e' : Entry}
    (hi : p.entries[i]? = some e) (hj : p.entries[j]? = some e') (hk : e.key = e'.key) : i = j := by
  rw [← Array.getElem?_toList] at hi hj
  have hlt : i < (p.entries.toList.map Entry.key).length := by
    rw [List.length_map]
    exact (List.getElem?_eq_some_iff.mp hi).1
  refine (List.getElem?_inj hlt hp.distinct.nodup).mp ?_
  rw [List.getElem?_map, List.getElem?_map, hi, hj, Option.map_some, Option.map_some, hk]

theorem entry_eq_of_key {p : Program} (hp : p.WellFormed) {e e' : Entry}
    (he : e ∈ p.entries.toList) (he' : e' ∈ p.entries.toList) (hk : e.key = e'.key) : e = e' :=
  List.inj_on_of_nodup_map hp.distinct.nodup he he' hk

/-- Every place of the outline is that of an entry. -/
theorem exists_entry_of_get? {p : Program} {i : Nat} {d : Declaration}
    (h : p.outline.get? i = some d) :
    ∃ e ∈ p.entries.toList, p.entries[i]? = some e ∧ e.declaration = d := by
  rw [outline_get?] at h
  obtain ⟨e, hi, rfl⟩ := Option.map_eq_some_iff.mp h
  exact ⟨e, Array.mem_toList_iff.mpr (Array.mem_of_getElem? hi), hi, rfl⟩

theorem owner_eq {p : Program} {i : Nat} {e : Entry} (hi : p.entries[i]? = some e) :
    p.outline.owner? i = e.owner := by
  rw [outline_owner?, hi, Option.bind_some]

section Declaring

variable {p : Program} {i : Nat} {chain : List String} {t t' : Table}
  {res : Except DeclareError SymbolRef} (h : Table.Declaring table p.outline i chain t res t')

include h

/-- **Declaring an entry of a well-formed program succeeds.** The keys in `chain` are those of
entries that are declared inside the entry at place `i`, so its own key is not among them. -/
theorem ok_of_declaring (hp : p.WellFormed) : ∀ {e : Entry}, p.entries[i]? = some e →
    (∀ k ∈ chain, ∃ (j : Nat) (ej : Entry), p.entries[j]? = some ej ∧ ej.key = k ∧
      Relation.TransGen p.OwnedBy j i) → ∃ r, res = .ok r := by
  induction h with
  | nothing hd =>
      intro e hi _
      rw [outline_get?, hi] at hd
      cases hd
  | emptyKey hd hkey =>
      intro e hi _
      obtain ⟨e', he', -, rfl⟩ := exists_entry_of_get? hd
      exact absurd hkey (hp.distinct.key_ne e' he')
  | known | outermost | inside => exact fun _ _ => ⟨_, rfl⟩
  | circular hd _ _ hchain =>
      intro e hi hinside
      obtain ⟨e', -, hi', rfl⟩ := exists_entry_of_get? hd
      obtain ⟨j, ej, hj, hkey, hji⟩ := hinside _ hchain
      obtain rfl := place_eq_of_key hp hj hi' hkey
      exact absurd hji (hp.acyclic j)
  | ownerNotType hd _ _ _ hj howner hkind =>
      intro e hi _
      rw [owner_eq hi] at hj
      obtain ⟨o, ho, htype⟩ := hp.owner_type hi hj
      rw [outline_get?, ho] at howner
      obtain rfl := Option.some.inj howner
      exact absurd htype hkind
  | @failed i chain t d j owner err t' hd _ _ _ hj howner _ _ ih =>
      intro e hi hinside
      obtain ⟨o, -, ho, -⟩ := exists_entry_of_get? howner
      rw [owner_eq hi] at hj
      have hij : p.OwnedBy i j := ⟨e, hi, hj⟩
      -- the entry itself is declared inside its container, and so is what lies in it
      obtain ⟨r, hr⟩ := ih ho (by
        intro k hk
        rcases List.mem_append.mp hk with hk | hk
        · obtain ⟨j', ej, hj', hkey, hji⟩ := hinside k hk
          exact ⟨j', ej, hj', hkey, hji.tail hij⟩
        · obtain ⟨e', -, hi', rfl⟩ := exists_entry_of_get? hd
          exact ⟨i, e', hi', (List.mem_singleton.mp hk).symm, .single hij⟩)
      cases hr

/-- **Whatever a declaration adds are symbols of entries**, each in the symbol of its containing
type. -/
theorem Follows.declaring : Follows p t → Follows p t' := by
  induction h with
  | nothing | emptyKey => exact fun hf => hf
  | known | circular | ownerNotType => exact fun hf => hf.intern _
  | @outermost i chain t d hd hkey hnew hchain howner =>
      intro hf
      obtain ⟨e, he, hi, rfl⟩ := exists_entry_of_get? hd
      -- an outermost declaration names no containing type
      have hno : p.ownerKey? e = none := by
        rw [owner_eq hi] at howner
        unfold Program.ownerKey?
        cases hj : e.owner with
        | none => rfl
        | some j =>
            rw [hj, Option.bind_some, outline_get?] at howner
            rw [Option.bind_some, Option.map_eq_none_iff.mp howner]
            rfl
      have hpush := (hf.intern e.key).push he (t.strings_find?_interned e.key) hnew (by simp [hno])
      rwa [ownerRef?, hno] at hpush
  | failed hd hkey hnew hchain hj howner hkind h ih => exact fun hf => ih (hf.intern _)
  | @inside i chain t d j owner r t' hd hkey hnew hchain hj howner hkind h ih =>
      intro hf
      obtain ⟨e, he, hi, rfl⟩ := exists_entry_of_get? hd
      obtain ⟨o, -, ho, rfl⟩ := exists_entry_of_get? howner
      obtain ⟨htable, d, hd', hfind⟩ := h.answer rfl
      obtain rfl := Option.some.inj (howner.symm.trans hd')
      have hfind : t'.find? o.key = some r.id := hfind
      rw [owner_eq hi] at hj
      have hok : p.ownerKey? e = some o.key := ownerKey?_of_owner hj ho
      -- the container was declared just before, so its symbol is the owner
      have href : ownerRef? p t' e = some r := by
        rw [ownerRef?, hok, Option.bind_some, hfind, Option.map_some, ← htable]
      have hpush := (ih (hf.intern _)).push he h.strings_find? (h.find?_inside hnew)
        (by simp [hok, hfind])
      rwa [href] at hpush

end Declaring

theorem declare_entry {p : Program} (hp : p.WellFormed) {i : Nat} {e : Entry} {t : Table}
    (hi : p.entries[i]? = some e) (ht : Follows p t) :
    ∃ r t', t.declare table p.outline i = (.ok r, t') ∧ Follows p t' ∧ t.Grows t' ∧
      (t'.find? e.key).isSome := by
  have h := Table.declaring_declare t table p.outline i
  obtain ⟨r, hr⟩ := ok_of_declaring h hp hi (by simp)
  obtain ⟨-, d, hd, hfind⟩ := h.answer hr
  rw [outline_get?, hi] at hd
  obtain rfl := Option.some.inj hd
  exact ⟨r, _, Prod.ext hr rfl, .declaring h ht, h.grows, Option.isSome_iff_exists.mpr ⟨_, hfind⟩⟩

/-! ## All entries -/

theorem modifyTable_single (t t' : Table) :
    (Atlas.mk #[t]).modifyTable table (fun _ => t') = ⟨#[t']⟩ := rfl

/-- **Every entry gets declared.** The table that results depends on the entries only. -/
theorem exec_declareFrom {p : Program} (hp : p.WellFormed) (entries : List Entry) :
    ∀ {i : Nat} {t : Table}, (∀ k e, entries[k]? = some e → p.entries[i + k]? = some e) →
      Follows p t →
      ∃ refs t', (∀ run : Run, run.atlas = ⟨#[t]⟩ → exec (declareFrom p.outline entries i) run
          = (.ok refs, { run with atlas := ⟨#[t']⟩ })) ∧
        Follows p t' ∧ t.Grows t' ∧ ∀ e ∈ entries, (t'.find? e.key).isSome := by
  induction entries with
  | nil =>
      intro i t _ ht
      refine ⟨[], t, ?_, ht, Table.Grows.refl t, by simp⟩
      intro run hatlas
      rw [← hatlas]
      rfl
  | cons e entries ih =>
      intro i t hplaces ht
      have hi : p.entries[i]? = some e := hplaces 0 e rfl
      -- the entry and its owners are declared, then the rest in the table that results
      obtain ⟨r, t₁, hrun, hf₁, hg₁, hn⟩ := declare_entry hp hi ht
      obtain ⟨refs, t₂, hrun₂, hf₂, hg₂, hfound⟩ := ih (i := i + 1)
        (fun k e' he' => by
          have := hplaces (k + 1) e' (by simpa using he')
          rwa [show i + (k + 1) = i + 1 + k by omega] at this) hf₁
      refine ⟨r :: refs, t₂, ?_, hf₂, hg₁.trans hg₂, ?_⟩
      · intro run hatlas
        have hdeclare : exec (AtlasM.declare table p.outline i) run.atlas
            = (.ok r, ⟨#[t₁]⟩) := by
          have htable : run.atlas.tables[table]? = some t := by rw [hatlas]; rfl
          rw [AtlasM.exec_declare htable, hatlas, modifyTable_single, hrun]
          rfl
        rw [declareFrom, exec_bind_ok (RunM.exec_guarded_ok (RunM.exec_onAtlas_ok hdeclare) e),
          exec_bind_ok (hrun₂ _ rfl)]
        rfl
      · intro e' he'
        rcases List.mem_cons.mp he' with rfl | he'
        · exact isSome_find?_of_grows hg₂ hn
        · exact hfound e' he'

/-- What is fixed about the symbol of an entry. -/
def skeletonOf (p : Program) (a : Atlas) (e : Entry) : Declaration × Flags × Option SymbolRef :=
  (Symbol.ofDeclaration e.declaration ((p.ownerKey? e).bind (a.find? table))).skeleton

/-- **There is one symbol for each entry**, in the one table of the run, under the entry's key and
inside the symbol of its containing type. -/
structure Layout (p : Program) (a : Atlas) : Prop where
  indexed : a.Indexed
  table_eq : ∀ {r s}, a.symbol? r = some s → r.table = table
  symbol_of : ∀ e ∈ p.entries.toList, ∃ r s, a.find? table e.key = some r ∧ a.symbol? r = some s ∧
    s.skeleton = skeletonOf p a e
  entry_of : ∀ {r s}, a.symbol? r = some s → ∃ e ∈ p.entries.toList, a.find? table e.key = some r
  length_members : (a.members table).length = p.entries.size

theorem symbol?_single {t : Table} {r : SymbolRef} {s : Symbol}
    (hs : (Atlas.mk #[t]).symbol? r = some s) : r.table = table ∧ t.get? r.id = some s := by
  unfold Atlas.symbol? at hs
  obtain ⟨t', ht', hget⟩ := Option.bind_eq_some_iff.mp hs
  have hr : r.table = 0 := by
    by_contra hne
    rw [Array.getElem?_eq_none (by simp; omega)] at ht'
    simp at ht'
  rw [hr] at ht'
  obtain rfl : t = t' := Option.some.inj ht'
  exact ⟨hr, hget⟩

/-- The keys of the symbols are those of the entries, in another order. -/
theorem Follows.keys_perm {p : Program} (hp : p.WellFormed) {t : Table} (ht : Follows p t)
    (hfound : ∀ e ∈ p.entries.toList, (t.find? e.key).isSome) :
    t.keys.Perm (p.entries.toList.map Entry.key) := by
  rw [List.perm_ext_iff_of_nodup ht.indexed.nodup_keys hp.distinct.nodup]
  intro key
  constructor
  · intro hkey
    obtain ⟨n, s, hs, rfl⟩ := Table.mem_keys_iff.mp hkey
    obtain ⟨e, he, hse, -⟩ := ht.entry hs
    exact List.mem_map.mpr ⟨e, he, by rw [hse]; rfl⟩
  · intro hkey
    obtain ⟨e, he, rfl⟩ := List.mem_map.mp hkey
    exact ht.indexed.isSome_find?_iff.mp (hfound e he)

theorem layout_of_follows {p : Program} (hp : p.WellFormed) {t : Table} (ht : Follows p t)
    (hfound : ∀ e ∈ p.entries.toList, (t.find? e.key).isSome) : Layout p ⟨#[t]⟩ := by
  have hfind : ∀ key, (Atlas.mk #[t]).find? table key = (t.find? key).map fun n => ⟨table, n⟩ :=
    fun key => rfl
  have howner : ∀ e : Entry, (p.ownerKey? e).bind ((Atlas.mk #[t]).find? table) = ownerRef? p t e :=
    fun e => rfl
  refine ⟨?_, fun hs => (symbol?_single hs).1, ?_, ?_, ?_⟩
  · intro t' ht'
    obtain rfl := List.mem_singleton.mp ht'
    exact ht.indexed
  · intro e he
    obtain ⟨n, hn⟩ := Option.isSome_iff_exists.mp (hfound e he)
    obtain ⟨s, hs, hkey⟩ := ht.indexed.find?_eq_some_iff.mp hn
    -- the symbol was declared for an entry with the same key
    obtain ⟨e', he', hse, -⟩ := ht.entry hs
    obtain rfl : e' = e := entry_eq_of_key hp he' he (by rw [← hkey, hse]; rfl)
    refine ⟨⟨table, n⟩, s, by rw [hfind, hn]; rfl, hs, ?_⟩
    unfold skeletonOf
    rw [howner, ← hse]
  · intro r s hs
    obtain ⟨hr, hget⟩ := symbol?_single hs
    obtain ⟨e, he, hse, -⟩ := ht.entry hget
    refine ⟨e, he, ?_⟩
    rw [hfind, ht.indexed.find?_eq_some_iff.mpr ⟨s, hget, by rw [hse]; rfl⟩]
    cases r
    simp_all
  · have hlen := (ht.keys_perm hp hfound).length_eq
    rw [Atlas.length_members]
    simpa [Table.keys, Table.size, table] using hlen

namespace Layout

variable {p : Program} {a : Atlas}

theorem congr (h : Layout p a) {b : Atlas} (hsk : b.skeleton = a.skeleton) : Layout p b := by
  have hfind : ∀ key, b.find? table key = a.find? table key :=
    Atlas.find?_eq_of_skeleton hsk table
  have hof : ∀ e, skeletonOf p b e = skeletonOf p a e := by
    intro e
    unfold skeletonOf
    rw [show b.find? table = a.find? table from funext hfind]
  refine ⟨h.indexed.congr hsk, ?_, ?_, ?_, ?_⟩
  · intro r s hs
    obtain ⟨s', hs', -⟩ := Atlas.exists_symbol_of_skeleton hsk hs
    exact h.table_eq hs'
  · intro e he
    obtain ⟨r, s, hr, hs, hse⟩ := h.symbol_of e he
    obtain ⟨s', hs', hss⟩ := Atlas.exists_symbol_of_skeleton hsk.symm hs
    exact ⟨r, s', by rw [hfind, hr], hs', by rw [← hss, hse, hof]⟩
  · intro r s hs
    obtain ⟨s', hs', -⟩ := Atlas.exists_symbol_of_skeleton hsk hs
    obtain ⟨e, he, hr⟩ := h.entry_of hs'
    exact ⟨e, he, by rw [hfind, hr]⟩
  · rw [Atlas.members_eq_of_skeleton hsk]
    exact h.length_members

/-- The symbol under the key of an entry is that of the entry. -/
theorem skeleton_eq (h : Layout p a) {e : Entry} (he : e ∈ p.entries.toList) {r : SymbolRef}
    (hr : a.find? table e.key = some r) {s : Symbol} (hs : a.symbol? r = some s) :
    s.skeleton = skeletonOf p a e := by
  obtain ⟨r', s', hr', hs', hse⟩ := h.symbol_of e he
  obtain rfl : r' = r := Option.some.inj (hr'.symm.trans hr)
  obtain rfl : s' = s := Option.some.inj (hs'.symm.trans hs)
  exact hse

theorem declaration_eq (h : Layout p a) {e : Entry} (he : e ∈ p.entries.toList) {r : SymbolRef}
    (hr : a.find? table e.key = some r) {s : Symbol} (hs : a.symbol? r = some s) :
    s.declaration = e.declaration :=
  congrArg Prod.fst (h.skeleton_eq he hr hs)

/-- A key that leads to a symbol is the key of an entry. -/
theorem exists_entry (h : Layout p a) {key : String} {r : SymbolRef}
    (hr : a.find? table key = some r) : ∃ e ∈ p.entries.toList, e.key = key := by
  obtain ⟨s, hs, rfl⟩ := h.indexed.symbol?_of_find? hr
  obtain ⟨e, he, hr'⟩ := h.entry_of hs
  refine ⟨e, he, ?_⟩
  show e.declaration.key = s.declaration.key
  rw [h.declaration_eq he hr' hs]

theorem key_inj (h : Layout p a) {key key' : String} {r : SymbolRef}
    (hr : a.find? table key = some r) (hr' : a.find? table key' = some r) : key = key' := by
  obtain ⟨s, hs, rfl⟩ := h.indexed.symbol?_of_find? hr
  obtain ⟨s', hs', rfl⟩ := h.indexed.symbol?_of_find? hr'
  rw [Option.some.inj (hs.symm.trans hs')]

end Layout

/-! ## The roster -/

theorem mem_roster {p : Program} {a : Atlas} {e : Entry} {r : SymbolRef} :
    (e, r) ∈ roster p a ↔ e ∈ p.entries.toList ∧ a.find? table e.key = some r := by
  unfold roster
  rw [List.mem_filterMap]
  constructor
  · rintro ⟨e', he', h⟩
    obtain ⟨r', hr', heq⟩ := Option.map_eq_some_iff.mp h
    obtain ⟨rfl, rfl⟩ := Prod.mk.inj heq
    exact ⟨he', hr'⟩
  · rintro ⟨he, hr⟩
    exact ⟨e, he, by rw [hr]; rfl⟩

theorem roster_eq_of_skeleton {p : Program} {a b : Atlas} (hsk : b.skeleton = a.skeleton) :
    roster p b = roster p a := by
  unfold roster
  rw [show b.find? table = a.find? table from funext (Atlas.find?_eq_of_skeleton hsk table)]

theorem roster_entries {p : Program} {a : Atlas} (h : Layout p a) :
    (roster p a).map Prod.fst = p.entries.toList := by
  have hall : ∀ es : List Entry, (∀ e ∈ es, ∃ r, a.find? table e.key = some r) →
      (es.filterMap fun e => (a.find? table e.key).map (e, ·)).map Prod.fst = es := by
    intro es
    induction es with
    | nil => intro _; rfl
    | cons e es ih =>
        intro hes
        obtain ⟨r, hr⟩ := hes e List.mem_cons_self
        rw [List.filterMap_cons_some (by rw [hr]; rfl), List.map_cons,
          ih fun e' he' => hes e' (List.mem_cons_of_mem e he')]
  refine hall p.entries.toList fun e he => ?_
  obtain ⟨r, -, hr, -⟩ := h.symbol_of e he
  exact ⟨r, hr⟩

theorem nodup_roster {p : Program} (hp : p.WellFormed) {a : Atlas} (h : Layout p a) :
    ((roster p a).map Prod.snd).Nodup := by
  have hn : (roster p a).Nodup := by
    refine List.Nodup.of_map Prod.fst ?_
    rw [roster_entries h]
    exact hp.distinct.nodup.of_map
  refine hn.map_on ?_
  rintro ⟨e, r⟩ hm ⟨e', r'⟩ hm' rfl
  obtain ⟨he, hr⟩ := mem_roster.mp hm
  obtain ⟨he', hr'⟩ := mem_roster.mp hm'
  rw [entry_eq_of_key hp he he' (h.key_inj hr hr')]

theorem mem_roster_symbols {p : Program} {a : Atlas} (h : Layout p a) {r : SymbolRef} :
    r ∈ (roster p a).map Prod.snd ↔ (a.symbol? r).isSome := by
  constructor
  · intro hr
    obtain ⟨⟨e, r'⟩, hm, rfl⟩ := List.mem_map.mp hr
    obtain ⟨s, hs, -⟩ := h.indexed.symbol?_of_find? (mem_roster.mp hm).2
    simp [hs]
  · intro hr
    obtain ⟨s, hs⟩ := Option.isSome_iff_exists.mp hr
    obtain ⟨e, he, hfind⟩ := h.entry_of hs
    exact List.mem_map.mpr ⟨(e, r), mem_roster.mpr ⟨he, hfind⟩, rfl⟩

/-- The symbols on the roster are the members of the table, each once. -/
theorem roster_perm_members {p : Program} (hp : p.WellFormed) {a : Atlas} (h : Layout p a) :
    ((roster p a).map Prod.snd).Perm (a.members table) := by
  rw [List.perm_ext_iff_of_nodup (nodup_roster hp h) (a.nodup_members table)]
  intro r
  rw [mem_roster_symbols h, Atlas.mem_members]
  constructor
  · intro hr
    obtain ⟨s, hs⟩ := Option.isSome_iff_exists.mp hr
    exact ⟨h.table_eq hs, hr⟩
  · exact fun hr => hr.2

/-- **The keys of the members are the keys of the entries.** -/
theorem keys_perm_entries {p : Program} (hp : p.WellFormed) {a : Atlas} (h : Layout p a) :
    ((a.members table).map a.key?).Perm (p.entries.toList.map fun e => some e.key) := by
  have hroster : (roster p a).map (fun m => a.key? m.2) = (roster p a).map fun m =>
      some m.1.key := by
    refine List.map_congr_left ?_
    rintro ⟨e, r⟩ hm
    obtain ⟨s, hs, hkey⟩ := h.indexed.symbol?_of_find? (mem_roster.mp hm).2
    simp [Atlas.key?, hs, hkey]
  have hperm := ((roster_perm_members hp h).map a.key?).symm
  rw [List.map_map, Function.comp_def, hroster] at hperm
  rw [← roster_entries h, List.map_map]
  exact hperm

end SymbolAtlas.Binding
