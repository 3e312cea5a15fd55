import SymbolAtlas.Proofs.Lookup
import SymbolAtlas.Symbol.Declare

set_option autoImplicit false

/-! # Declaring entities

`Declaring` lists everything that declaring one entity can do to a table, level by level of its
containers, and `declaring_declare` says that it does nothing else. Every later statement about a
declaration is an induction on it. The first one is that declaring adds symbols to a table and
changes none, whether it succeeds or not (`grows_declare`). -/

namespace SymbolAtlas

/-! ## Interned strings -/

namespace Interner

variable {t t' : Interner} {s s' : String} {n : Nat}

theorem find?_eq_idxOf? (t : Interner) (s : String) : t.find? s = t.strings.toList.idxOf? s :=
  t.lookup_numbers s

theorem find?_eq_none_iff : t.find? s = none ↔ s ∉ t.strings.toList := by
  rw [find?_eq_idxOf?, List.idxOf?_eq_none_iff]

theorem exists_find? (h : s ∈ t.strings.toList) : ∃ n, t.find? s = some n := by
  cases hs : t.find? s with
  | none => exact absurd h (find?_eq_none_iff.mp hs)
  | some n => exact ⟨n, rfl⟩

theorem mem_of_find? (h : t.find? s = some n) : s ∈ t.strings.toList := by
  by_contra hnot
  rw [find?_eq_none_iff.mpr hnot] at h
  cases h

theorem find?_inj (h : t.find? s = some n) (h' : t.find? s' = some n) : s = s' := by
  rw [find?_eq_idxOf?] at h h'
  obtain ⟨hn, hs, -⟩ := List.findIdx?_eq_some_iff_getElem.mp h
  obtain ⟨hn', hs', -⟩ := List.findIdx?_eq_some_iff_getElem.mp h'
  rw [beq_iff_eq] at hs hs'
  exact hs.symm.trans hs'

/-- Numbers that were given out stay while strings are added at the end. -/
theorem find?_of_prefix (h : t.strings.toList <+: t'.strings.toList) (hs : t.find? s = some n) :
    t'.find? s = some n := by
  obtain ⟨new, hnew⟩ := h
  rw [find?_eq_idxOf?] at hs ⊢
  unfold List.idxOf? at hs ⊢
  rw [← hnew, List.findIdx?_append, hs]
  rfl

theorem intern_of_find? (h : t.find? s = some n) : t.intern s = (n, t) := by
  unfold intern
  rw [h]

theorem intern_of_new (h : t.find? s = none) : t.intern s = (t.strings.size, t.add s) := by
  unfold intern
  rw [h]

theorem prefix_intern (t : Interner) (s : String) :
    t.strings.toList <+: (t.intern s).2.strings.toList := by
  cases h : t.find? s with
  | some n => rw [intern_of_find? h]
  | none =>
      rw [intern_of_new h]
      show t.strings.toList <+: (t.strings.push s).toList
      rw [Array.toList_push]
      exact List.prefix_append _ _

/-- **A string is found under the number that interning it answers with.** -/
theorem find?_intern (t : Interner) (s : String) :
    (t.intern s).2.find? s = some (t.intern s).1 := by
  cases h : t.find? s with
  | some n => rw [intern_of_find? h, h]
  | none =>
      have hnone : t.strings.toList.findIdx? (· == s) = none := (find?_eq_idxOf? t s).symm.trans h
      rw [intern_of_new h, find?_eq_idxOf?]
      show (t.strings.push s).toList.findIdx? (· == s) = some t.strings.size
      rw [Array.toList_push, List.findIdx?_append, hnone]
      simp

theorem mem_intern : s' ∈ (t.intern s).2.strings.toList ↔ s' ∈ t.strings.toList ∨ s' = s := by
  cases h : t.find? s with
  | some n =>
      rw [intern_of_find? h]
      refine (or_iff_left_of_imp ?_).symm
      rintro rfl
      exact mem_of_find? h
  | none =>
      rw [intern_of_new h]
      show s' ∈ (t.strings.push s).toList ↔ _
      rw [Array.toList_push, List.mem_append, List.mem_singleton]

end Interner

namespace Outline

variable {o : Outline} {i j : Nat} {d : Declaration}

def keys (o : Outline) : List String :=
  o.items.toList.map (·.declaration.key)

theorem length_keys (o : Outline) : o.keys.length = o.items.size := by
  simp [keys]

theorem exists_item (h : o.get? i = some d) : ∃ item ∈ o.items.toList, item.declaration = d := by
  obtain ⟨item, hitem, rfl⟩ := Option.map_eq_some_iff.mp h
  exact ⟨item, Array.mem_toList_iff.mpr (Array.mem_of_getElem? hitem), rfl⟩

theorem key_mem (h : o.get? i = some d) : d.key ∈ o.keys := by
  obtain ⟨item, hitem, rfl⟩ := exists_item h
  exact List.mem_map.mpr ⟨item, hitem, rfl⟩

theorem owner?_pair_eq_some_iff : ((o.owner? i).bind fun j => (o.get? j).map (j, ·)) = some (j, d) ↔
    o.owner? i = some j ∧ o.get? j = some d := by
  simp only [Option.bind_eq_some_iff, Option.map_eq_some_iff, Prod.mk.injEq]
  constructor
  · rintro ⟨_, hj, _, hd, rfl, rfl⟩
    exact ⟨hj, hd⟩
  · rintro ⟨hj, hd⟩
    exact ⟨j, hj, d, hd, rfl, rfl⟩

theorem owner?_pair_eq_none_iff : ((o.owner? i).bind fun j => (o.get? j).map (j, ·)) = none ↔
    (o.owner? i).bind o.get? = none := by
  cases o.owner? i <;> simp

end Outline

namespace Table

/-- The table with a string added to the interned ones. -/
def interned (t : Table) (s : String) : Table :=
  (t.intern s).2

def number (t : Table) (s : String) : Nat :=
  (t.intern s).1

@[simp] theorem symbols_interned (t : Table) (s : String) :
    (t.interned s).symbols = t.symbols := rfl

@[simp] theorem registry_interned (t : Table) (s : String) :
    (t.interned s).registry = t.registry := rfl

@[simp] theorem get?_interned (t : Table) (s : String) (n : Nat) :
    (t.interned s).get? n = t.get? n := rfl

@[simp] theorem size_interned (t : Table) (s : String) : (t.interned s).size = t.size := rfl

theorem strings_find?_interned (t : Table) (s : String) :
    (t.interned s).strings.find? s = some (t.number s) :=
  t.strings.find?_intern s

theorem find?_of_number {t : Table} {key : String} {number : Nat}
    (h : t.strings.find? key = some number) : t.find? key = t.registry.lookup number := by
  unfold find?
  rw [h]
  rfl

theorem lookup_number (t : Table) (key : String) :
    t.registry.lookup (t.number key) = (t.interned key).find? key :=
  (find?_of_number (t.strings_find?_interned key)).symm

/-! ## One level -/

section Level

variable {o : Outline} {i : Nat} {d : Declaration} (hd : o.get? i = some d) (hkey : d.key ≠ "")

include hd hkey

/-- One level of a declaration whose key is not empty. -/
theorem declareFrom_succ (table fuel : Nat) (chain : List String) (t : Table) :
    declareFrom table o (fuel + 1) i chain t =
      match (t.interned d.key).find? d.key with
      | some n => (.ok ⟨table, n⟩, t.interned d.key)
      | none =>
        if chain.contains d.key then (.error (.containsItself d.key), t.interned d.key)
        else
          match (o.owner? i).bind fun j => (o.get? j).map (j, ·) with
          | none => (.ok ⟨table, t.size + 1⟩,
              ((t.interned d.key).push table (t.number d.key) d none).2)
          | some (j, owner) =>
            if owner.kind ≠ .type then (.error (.ownerNotType owner.key d.key), t.interned d.key)
            else
              match declareFrom table o fuel j (chain ++ [d.key]) (t.interned d.key) with
              | (.error e, t') => (.error e, t')
              | (.ok r, t') =>
                    (.ok ⟨table, t'.size + 1⟩, (t'.push table (t.number d.key) d (some r)).2) := by
  rw [declareFrom, hd]
  dsimp only
  rw [if_neg hkey, ← lookup_number]
  rfl

variable {t : Table} {chain : List String} (hnew : (t.interned d.key).find? d.key = none)
  (hchain : d.key ∉ chain)

include hnew hchain

/-- One level of a declaration with a new key and no container. -/
theorem declareFrom_outermost (howner : (o.owner? i).bind o.get? = none) (table fuel : Nat) :
    declareFrom table o (fuel + 1) i chain t
      = (.ok ⟨table, t.size + 1⟩, ((t.interned d.key).push table (t.number d.key) d none).2) := by
  rw [declareFrom_succ hd hkey, hnew]
  dsimp only
  rw [if_neg (mt List.contains_iff_mem.mp hchain), Outline.owner?_pair_eq_none_iff.mpr howner]

/-- One level of a declaration with a new key and a container. -/
theorem declareFrom_owner {j : Nat} {owner : Declaration} (hj : o.owner? i = some j)
    (howner : o.get? j = some owner) (table fuel : Nat) :
    declareFrom table o (fuel + 1) i chain t =
      if owner.kind ≠ .type then (.error (.ownerNotType owner.key d.key), t.interned d.key)
      else
        match declareFrom table o fuel j (chain ++ [d.key]) (t.interned d.key) with
        | (.error e, t') => (.error e, t')
        | (.ok r, t') =>
              (.ok ⟨table, t'.size + 1⟩, (t'.push table (t.number d.key) d (some r)).2) := by
  rw [declareFrom_succ hd hkey, hnew]
  dsimp only
  rw [if_neg (mt List.contains_iff_mem.mp hchain), Outline.owner?_pair_eq_some_iff.mpr ⟨hj, howner⟩]

end Level

/-! ## What one declaration does -/

/-- **Everything that declaring the entity at a place can do** to a table, with the keys `chain` met
on the way. The entity at place `i` is known, or refused, or it becomes a symbol after its
container. -/
inductive Declaring (table : Nat) (o : Outline) :
    (i : Nat) → (chain : List String) → Table → Except DeclareError SymbolRef → Table → Prop
  | nothing {i chain t} (hd : o.get? i = none) :
    Declaring table o i chain t (.error .noDeclaration) t
  | emptyKey {i chain t d} (hd : o.get? i = some d) (hkey : d.key = "") :
      Declaring table o i chain t (.error .emptyKey) t
  | known {i chain t d n} (hd : o.get? i = some d) (hkey : d.key ≠ "")
      (hn : (t.interned d.key).find? d.key = some n) :
      Declaring table o i chain t (.ok ⟨table, n⟩) (t.interned d.key)
  | circular {i chain t d} (hd : o.get? i = some d) (hkey : d.key ≠ "")
      (hnew : (t.interned d.key).find? d.key = none) (hchain : d.key ∈ chain) :
      Declaring table o i chain t (.error (.containsItself d.key)) (t.interned d.key)
  | outermost {i chain t d} (hd : o.get? i = some d) (hkey : d.key ≠ "")
      (hnew : (t.interned d.key).find? d.key = none) (hchain : d.key ∉ chain) (howner :
      (o.owner? i).bind o.get? = none) :
      Declaring table o i chain t (.ok ⟨table, t.size + 1⟩)
        ((t.interned d.key).push table (t.number d.key) d none).2
  | ownerNotType {i chain t d j owner} (hd : o.get? i = some d) (hkey : d.key ≠ "")
      (hnew : (t.interned d.key).find? d.key = none) (hchain : d.key ∉ chain) (hj : o.owner? i
      = some j)
      (howner : o.get? j = some owner) (hkind : owner.kind ≠ .type) :
      Declaring table o i chain t (.error (.ownerNotType owner.key d.key)) (t.interned d.key)
  | failed {i chain t d j owner e t'} (hd : o.get? i = some d) (hkey : d.key ≠ "")
      (hnew : (t.interned d.key).find? d.key = none) (hchain : d.key ∉ chain) (hj : o.owner? i
      = some j)
      (howner : o.get? j = some owner) (hkind : owner.kind = .type)
      (h : Declaring table o j (chain ++ [d.key]) (t.interned d.key) (.error e) t') :
      Declaring table o i chain t (.error e) t'
  | inside {i chain t d j owner r t'} (hd : o.get? i = some d) (hkey : d.key ≠ "")
      (hnew : (t.interned d.key).find? d.key = none) (hchain : d.key ∉ chain) (hj : o.owner? i
      = some j)
      (howner : o.get? j = some owner) (hkind : owner.kind = .type)
      (h : Declaring table o j (chain ++ [d.key]) (t.interned d.key) (.ok r) t') :
      Declaring table o i chain t (.ok ⟨table, t'.size + 1⟩)
        (t'.push table (t.number d.key) d (some r)).2

/-- **Declaring does nothing but that.** The keys met on the way are distinct keys of the outline,
so the way is never cut short. -/
theorem declaring_declareFrom (table : Nat) (o : Outline) (fuel : Nat) :
    ∀ (i : Nat) (chain : List String) (t : Table), chain.Nodup → chain ⊆ o.keys →
      o.keys.length < fuel + chain.length → Declaring table o i chain t
        (declareFrom table o fuel i chain t).1 (declareFrom table o fuel i chain t).2 := by
  induction fuel with
  | zero =>
      intro i chain t hnodup hsub hfuel
      have hle : chain.length ≤ o.keys.length := (List.subperm_of_subset hnodup hsub).length_le
      omega
  | succ fuel ih =>
      intro i chain t hnodup hsub hfuel
      cases hd : o.get? i with
      | none =>
          rw [declareFrom, hd]
          exact .nothing hd
      | some d =>
          by_cases hkey : d.key = ""
          · rw [declareFrom, hd]
            dsimp only
            rw [if_pos hkey]
            exact .emptyKey hd hkey
          · cases hn : (t.interned d.key).find? d.key with
            | some n =>
                rw [declareFrom_succ hd hkey, hn]
                exact .known hd hkey hn
            | none =>
                by_cases hchain : d.key ∈ chain
                · rw [declareFrom_succ hd hkey, hn]
                  dsimp only
                  rw [if_pos (List.contains_iff_mem.mpr hchain)]
                  exact .circular hd hkey hn hchain
                · cases howner : (o.owner? i).bind o.get? with
                  | none =>
                      rw [declareFrom_outermost hd hkey hn hchain howner]
                      exact .outermost hd hkey hn hchain howner
                  | some owner =>
                      obtain ⟨j, hj, howner⟩ := Option.bind_eq_some_iff.mp howner
                      rw [declareFrom_owner hd hkey hn hchain hj howner]
                      by_cases hkind : owner.kind = .type
                      · rw [if_neg (not_not.mpr hkind)]
                        -- the key joins those met before
                        have hrec := ih j (chain ++ [d.key]) (t.interned d.key)
                          (hnodup.append (List.nodup_singleton _)
                          (List.disjoint_singleton.mpr hchain))
                          (List.append_subset.mpr ⟨hsub, by simpa using Outline.key_mem hd⟩)
                          (by rw [List.length_append, List.length_singleton]; omega)
                        rcases hres :
                          declareFrom table o fuel j (chain ++ [d.key]) (t.interned d.key)
                          with ⟨e | r, t'⟩ <;> rw [hres] at hrec
                        · exact .failed hd hkey hn hchain hj howner hkind hrec
                        · exact .inside hd hkey hn hchain hj howner hkind hrec
                      · rw [if_pos hkind]
                        exact .ownerNotType hd hkey hn hchain hj howner hkind

theorem declaring_declare (t : Table) (table : Nat) (o : Outline) (i : Nat) :
    Declaring table o i [] t (t.declare table o i).1 (t.declare table o i).2 := by
  refine declaring_declareFrom table o _ i [] t List.nodup_nil (List.nil_subset _) ?_
  rw [Outline.length_keys]
  exact Nat.lt_succ_self _

/-! ## Keys that are new stay new -/

theorem find?_interned_of_mem {t : Table} {key : String} (hkey : key ∈ t.strings.strings.toList)
    (s : String) : (t.interned s).find? key = t.find? key := by
  obtain ⟨n, hn⟩ := Interner.exists_find? hkey
  rw [find?_of_number hn,
    find?_of_number (Interner.find?_of_prefix (t.strings.prefix_intern s) hn)]
  rfl

theorem find?_push {t : Table} {d : Declaration} {number : Nat}
    (hnumber : t.strings.find? d.key = some number) (table : Nat) (c : Option SymbolRef) :
    (t.push table number d c).2.find? d.key = some (t.size + 1) := by
  rw [find?_of_number (t := (t.push table number d c).2) hnumber]
  simp [push]

theorem find?_push_of_ne {t : Table} {key : String} {number : Nat}
    (h : t.strings.find? key ≠ some number) (table : Nat) (d : Declaration) (c : Option SymbolRef) :
    (t.push table number d c).2.find? key = t.find? key := by
  unfold find? push
  cases hkey : t.strings.find? key with
  | none => rfl
  | some n =>
      have hn : (n == number) = false := by
        rw [beq_eq_false_iff_ne]
        rintro rfl
        exact h hkey
      simp [List.lookup_cons, hn]

section Declaring

variable {table : Nat} {o : Outline} {i : Nat} {chain : List String} {t t' : Table}
  {res : Except DeclareError SymbolRef}

/-- Strings are only added to the interned ones, whether a declaration succeeds or not. -/
theorem Declaring.strings_prefix (h : Declaring table o i chain t res t') :
    t.strings.strings.toList <+: t'.strings.strings.toList := by
  induction h with
  | nothing | emptyKey => exact List.prefix_refl _
  | known | circular | outermost | ownerNotType => exact Interner.prefix_intern ..
  | failed _ _ _ _ _ _ _ _ ih => exact (Interner.prefix_intern ..).trans ih
  | inside _ _ _ _ _ _ _ _ ih => exact (Interner.prefix_intern ..).trans ih

/-- A key keeps its number while its containers are declared. -/
theorem Declaring.strings_find? {s : String} (h : Declaring table o i chain (t.interned s) res t') :
    t'.strings.find? s = some (t.number s) :=
  Interner.find?_of_prefix h.strings_prefix (t.strings_find?_interned s)

/-- A key that was met on the way is new until the containers are there. -/
theorem Declaring.find?_of_mem_chain (h : Declaring table o i chain t res t') {key : String} :
    key ∈ t.strings.strings.toList → t.find? key = none → key ∈ chain → t'.find? key = none := by
  -- interning the next key of the way leaves the one at hand as it is
  have hintern : ∀ {t : Table} (s : String), key ∈ t.strings.strings.toList → t.find? key = none →
      key ∈ (t.interned s).strings.strings.toList ∧ (t.interned s).find? key = none := by
    intro t s hmem hnew
    exact ⟨Interner.mem_intern.mpr (Or.inl hmem), (find?_interned_of_mem hmem s).trans hnew⟩
  induction h with
  | nothing | emptyKey => exact fun _ hnew _ => hnew
  | known | circular | ownerNotType => exact fun hmem hnew _ => (hintern _ hmem hnew).2
  | @outermost i chain t d _ _ _ hchain =>
      intro hmem hnew hin
      rw [find?_push_of_ne]
      · exact (hintern _ hmem hnew).2
      · intro hsame
        rw [Interner.find?_inj hsame (t.strings_find?_interned d.key)] at hin
        exact hchain hin
  | failed _ _ _ _ _ _ _ _ ih =>
      intro hmem hnew hin
      obtain ⟨hmem, hnew⟩ := hintern _ hmem hnew
      exact ih hmem hnew (List.mem_append_left _ hin)
  | inside _ _ _ hchain _ _ _ h ih =>
      intro hmem hnew hin
      obtain ⟨hmem, hnew⟩ := hintern _ hmem hnew
      rw [find?_push_of_ne]
      · exact ih hmem hnew (List.mem_append_left _ hin)
      · intro hsame
        rw [Interner.find?_inj hsame h.strings_find?] at hin
        exact hchain hin

theorem Declaring.find?_inside {s : String} (hnew : (t.interned s).find? s = none)
    (h : Declaring table o i (chain ++ [s]) (t.interned s) res t') : t'.find? s = none :=
  h.find?_of_mem_chain (Interner.mem_intern.mpr (Or.inr rfl)) hnew (by simp)

end Declaring

/-! ## Tables only grow -/

/-- The symbols of `t` stand first in `t'`, the ones after them are as declared, keys lead where
they led, and no closure was counted. -/
structure Grows (t t' : Table) : Prop where
  symbols : ∃ new : List Symbol, t'.symbols.toList = t.symbols.toList ++ new ∧
    ∀ s ∈ new, ∃ d c, s = Symbol.ofDeclaration d c
  find? : ∀ {key n}, t.find? key = some n → t'.find? key = some n
  closures : t'.closures = t.closures

theorem Grows.refl (t : Table) : t.Grows t :=
  ⟨⟨[], by simp, by simp⟩, fun h => h, rfl⟩

theorem Grows.trans {t t' t'' : Table} (h : t.Grows t') (h' : t'.Grows t'') : t.Grows t'' := by
  obtain ⟨new, hnew, hfresh⟩ := h.symbols
  obtain ⟨new', hnew', hfresh'⟩ := h'.symbols
  refine ⟨⟨new ++ new', by rw [hnew', hnew, List.append_assoc], ?_⟩, fun hf =>
    h'.find? (h.find? hf), h'.closures.trans h.closures⟩
  intro s hs
  rcases List.mem_append.mp hs with hs | hs
  · exact hfresh s hs
  · exact hfresh' s hs

theorem grows_interned (t : Table) (s : String) : t.Grows (t.interned s) := by
  refine ⟨⟨[], by simp, by simp⟩, ?_, rfl⟩
  intro key n hf
  obtain ⟨number, hnumber, -⟩ := Option.bind_eq_some_iff.mp hf
  rwa [find?_interned_of_mem (Interner.mem_of_find? hnumber)]

theorem grows_push {t : Table} {d : Declaration} {number : Nat}
    (hnumber : t.strings.find? d.key = some number) (hnew : t.find? d.key = none) (table : Nat)
    (c : Option SymbolRef) : t.Grows (t.push table number d c).2 := by
  refine ⟨⟨[.ofDeclaration d c], by simp [push], by simp⟩, ?_, rfl⟩
  intro key n hf
  rw [find?_push_of_ne]
  · exact hf
  · intro hsame
    rw [Interner.find?_inj hsame hnumber, hnew] at hf
    cases hf

/-- **Declaring only adds symbols**, also where it fails. -/
theorem Declaring.grows {table : Nat} {o : Outline} {i : Nat} {chain : List String} {t t' : Table}
    {res : Except DeclareError SymbolRef} (h : Declaring table o i chain t res t') :
    t.Grows t' := by
  induction h with
  | nothing | emptyKey => exact Grows.refl _
  | known | circular | ownerNotType => exact grows_interned _ _
  | @outermost i chain t d _ _ hnew =>
      exact (grows_interned _ _).trans (grows_push (t.strings_find?_interned d.key) hnew table none)
  | failed _ _ _ _ _ _ _ _ ih => exact (grows_interned _ _).trans ih
  | inside _ _ hnew _ _ _ _ h ih =>
      have hpush := grows_push h.strings_find? (h.find?_inside hnew) table
      exact (grows_interned _ _).trans (ih.trans (hpush _))

theorem grows_declare (t : Table) (table : Nat) (o : Outline) (i : Nat) :
    t.Grows (t.declare table o i).2 :=
  (declaring_declare t table o i).grows

theorem Grows.get? {t t' : Table} (h : t.Grows t') {n : Nat} {s : Symbol}
    (hs : t'.get? n = some s) :
    t.get? n = some s ∨ (t.get? n = none ∧ ∃ d c, s = Symbol.ofDeclaration d c) := by
  obtain ⟨new, hnew, hfresh⟩ := h.symbols
  unfold Table.get? at hs ⊢
  by_cases hn : n = 0
  · simp [hn] at hs
  · rw [if_neg hn] at hs ⊢
    rw [← Array.getElem?_toList, hnew, List.getElem?_append] at hs
    by_cases hlt : n - 1 < t.symbols.toList.length
    · rw [if_pos hlt] at hs
      exact Or.inl (by rw [← Array.getElem?_toList, hs])
    · rw [if_neg hlt] at hs
      refine Or.inr ⟨?_, hfresh s (List.mem_of_getElem? hs)⟩
      exact Array.getElem?_eq_none (by simpa using hlt)

theorem Grows.get?_of_some {t t' : Table} (h : t.Grows t') {n : Nat} {s : Symbol}
    (hs : t.get? n = some s) : t'.get? n = some s := by
  obtain ⟨new, hnew, -⟩ := h.symbols
  unfold Table.get? at hs ⊢
  by_cases hn : n = 0
  · simp [hn] at hs
  · rw [if_neg hn] at hs ⊢
    rw [← Array.getElem?_toList] at hs
    rw [← Array.getElem?_toList, hnew,
      List.getElem?_append_left (List.getElem?_eq_some_iff.mp hs).1]
    exact hs

end Table

/-! ## Declaring in an atlas -/

namespace Atlas

/-- Every symbol of `a` stands unchanged in `b`, and the other ones are as declared. -/
structure Extends (a b : Atlas) : Prop where
  keeps : ∀ {q s}, a.symbol? q = some s → b.symbol? q = some s
  fresh : ∀ {q s}, b.symbol? q = some s →
    a.symbol? q = some s ∨ (a.symbol? q = none ∧ ∃ d c, s = Symbol.ofDeclaration d c)

theorem Extends.refl (a : Atlas) : a.Extends a :=
  ⟨fun h => h, fun h => Or.inl h⟩

theorem extends_of_grows {a : Atlas} {table : Nat} {t t' : Table}
    (ht : a.tables[table]? = some t) (h : t.Grows t') :
    a.Extends (a.modifyTable table fun _ => t') := by
  have hother : ∀ q : SymbolRef, q.table ≠ table →
      (a.modifyTable table fun _ => t').symbol? q = a.symbol? q := by
    intro q hq
    unfold symbol?
    rw [tables_modifyTable, if_neg hq]
  have hold : ∀ q : SymbolRef, q.table = table → a.symbol? q = t.get? q.id := by
    rintro q rfl
    unfold symbol?
    rw [ht]
    rfl
  have hnew : ∀ q : SymbolRef, q.table = table →
      (a.modifyTable table fun _ => t').symbol? q = t'.get? q.id := by
    rintro q rfl
    unfold symbol?
    rw [tables_modifyTable, if_pos rfl, ht]
    rfl
  -- symbols of other tables are not touched
  refine ⟨?_, ?_⟩
  · intro q s hs
    by_cases hq : q.table = table
    · rw [hnew q hq]
      exact h.get?_of_some (by rw [← hold q hq, hs])
    · rw [hother q hq, hs]
  · intro q s hs
    by_cases hq : q.table = table
    · rw [hold q hq]
      exact h.get? (by rw [← hnew q hq, hs])
    · exact Or.inl (by rw [← hother q hq, hs])

end Atlas

namespace AtlasM

theorem exec_declare {a : Atlas} {table : Nat} {t : Table} (ht : a.tables[table]? = some t)
    (o : Outline) (i : Nat) :
    exec (declare table o i) a
      = ((t.declare table o i).1.mapError .declare,
          a.modifyTable table fun _ => (t.declare table o i).2) := by
  unfold declare
  rw [exec_bind_ok (exec_get a), ht]
  dsimp only
  rcases t.declare table o i with ⟨_ | _, t'⟩ <;> rfl

theorem exec_declare_missing {a : Atlas} {table : Nat} (ht : a.tables[table]? = none)
    (o : Outline) (i : Nat) :
    exec (declare table o i) a = (.error (.fault (.outOfRange table a.tables.size)), a) := by
  unfold declare
  rw [exec_bind_ok (exec_get a), ht]
  rfl

/-- A declaration adds symbols and changes none, whether it succeeds or not. -/
theorem extends_declare (a : Atlas) (table : Nat) (o : Outline) (i : Nat) :
    a.Extends (exec (declare table o i) a).2 := by
  cases ht : a.tables[table]? with
  | none =>
      rw [exec_declare_missing ht]
      exact .refl a
  | some t =>
      rw [exec_declare ht]
      exact Atlas.extends_of_grows ht (t.grows_declare table o i)

end AtlasM

end SymbolAtlas
