import SymbolAtlas.Proofs.Skeleton

set_option autoImplicit false

/-! # The registry of a table

A table is filled by declarations, in any number and order, of entities that may be declared in each
other. What every table satisfies, `Sound`, is kept by one declaration (`Declaring.sound`), so it
holds after any number of them (`sound_afterCalls`). `declared_table` reads it off: numbers are
dense, keys are distinct and lead to their symbols by way of their interned numbers, nothing that is
declared changes, and containers come first. -/

namespace SymbolAtlas

namespace Table

@[simp] theorem keys_interned (t : Table) (s : String) : (t.interned s).keys = t.keys := rfl

theorem keys_push (t : Table) (table number : Nat) (d : Declaration) (c : Option SymbolRef) :
    (t.push table number d c).2.keys = t.keys ++ [d.key] := by
  simp only [keys, push, Array.toList_push, List.map_append]
  rfl

/-- A new symbol has the next number, and the other ones keep theirs. -/
theorem get?_push (t : Table) (table number : Nat) (d : Declaration) (c : Option SymbolRef)
    (n : Nat) :
    (t.push table number d c).2.get? n
      = if n = t.size + 1 then some (.ofDeclaration d c) else t.get? n := by
  have hsize : t.symbols.toList.length = t.size := Array.length_toList
  have hcount : t.symbols.size = t.size := rfl
  cases n with
  | zero => simp [get?]
  | succ i =>
      rw [get?_succ, get?_succ]
      simp only [push, Array.toList_push]
      by_cases hi : i = t.size
      · simp [hi, ← hsize]
      · rw [if_neg (by omega), List.getElem?_append]
        by_cases hlt : i < t.symbols.toList.length
        · rw [if_pos hlt]
        · rw [if_neg hlt, List.getElem?_eq_none (by simp; omega), List.getElem?_eq_none (by omega)]

theorem lookup_registry_push (t : Table) (table number : Nat) (d : Declaration)
    (c : Option SymbolRef) (n : Nat) :
    (t.push table number d c).2.registry.lookup n
      = if n = number then some (t.size + 1) else t.registry.lookup n := by
  show ((number, t.size + 1) :: t.registry).lookup n = _
  by_cases h : n = number
  · rw [if_pos h, h, List.lookup_cons_self]
  · rw [if_neg h, List.lookup_cons, beq_eq_false_iff_ne.mpr h]

/-! ## Registries stay in step -/

section Indexed

variable {t : Table} (ht : t.Indexed)

include ht

/-- Interning a string gives no key another number. -/
theorem Indexed.intern (s : String) : (t.interned s).Indexed := by
  refine ⟨fun key hmem => Interner.mem_intern.mpr (Or.inl (ht.interned key hmem)),
    fun number id => ?_⟩
  rw [registry_interned, ht.registry]
  refine exists_congr fun x => and_congr_right fun hx => ?_
  obtain ⟨n, hn⟩ := Interner.exists_find? (ht.interned x.key (mem_keys_iff.mpr ⟨id, x, hx, rfl⟩))
  have hkept : (t.interned s).strings.find? x.key = some n :=
    Interner.find?_of_prefix (t.strings.prefix_intern s) hn
  rw [hn, hkept]

/-- **Registering a new symbol for the number of its key** keeps the registry in step. -/
theorem Indexed.push {d : Declaration} {number : Nat}
    (hnumber : t.strings.find? d.key = some number) (hnew : t.find? d.key = none) (table : Nat)
    (c : Option SymbolRef) : (t.push table number d c).2.Indexed := by
  have hlast : t.get? (t.size + 1) = none := by
    rw [← Option.not_isSome_iff_eq_none, isSome_get?_iff]
    omega
  refine ⟨fun key hmem => ?_, fun n id => ?_⟩
  · rw [keys_push, List.mem_append, List.mem_singleton] at hmem
    rcases hmem with hold | rfl
    · exact ht.interned key hold
    · exact Interner.mem_of_find? hnumber
  · show _ ↔ ∃ s, (t.push table number d c).2.get? id = some s ∧ t.strings.find? s.key = some n
    simp only [get?_push, lookup_registry_push]
    by_cases hn : n = number
    · subst hn
      rw [if_pos rfl, Option.some.injEq]
      constructor
      · rintro rfl
        exact ⟨_, if_pos rfl, hnumber⟩
      · rintro ⟨s, hs, hs'⟩
        by_contra hid
        rw [if_neg (Ne.symm hid)] at hs
        -- an old symbol with this number would have the new key
        have hkey : t.find? d.key = some id := by
          rw [find?_of_number hnumber]
          exact (ht.registry n id).mpr ⟨s, hs, hs'⟩
        rw [hnew] at hkey
        cases hkey
    · rw [if_neg hn, ht.registry]
      refine exists_congr fun s => and_congr_left fun hs' => ?_
      by_cases hid : id = t.size + 1
      · subst hid
        rw [if_pos rfl, hlast]
        constructor
        · exact fun h => nomatch h
        · rintro ⟨rfl⟩
          exact absurd (Option.some.inj (hs'.symm.trans hnumber)) hn
      · rw [if_neg hid]

end Indexed

/-- **Declaring keeps the registry in step**, also where it fails. -/
theorem Declaring.indexed {table : Nat} {o : Outline} {i : Nat} {chain : List String} {t t' : Table}
    {res : Except DeclareError SymbolRef} (h : Declaring table o i chain t res t') :
    t.Indexed → t'.Indexed := by
  induction h with
  | nothing | emptyKey => exact fun ht => ht
  | known | circular | ownerNotType => exact fun ht => ht.intern _
  | @outermost i chain t d _ _ hnew =>
      exact fun ht => (ht.intern _).push (t.strings_find?_interned d.key) hnew table none
  | failed _ _ _ _ _ _ _ _ ih => exact fun ht => ih (ht.intern _)
  | inside _ _ hnew _ _ _ _ h ih =>
      exact fun ht => (ih (ht.intern _)).push h.strings_find? (h.find?_inside hnew) table _

/-! ## What one declaration makes known -/

/-- The declaration is met on the way from place `i` outwards. The way goes on through the
containers up to the first key that is among those known. -/
inductive OnWay (o : Outline) (known : List String) : (i : Nat) → Declaration → Prop
  | here {i d} (hd : o.get? i = some d) : OnWay o known i d
  | outwards {i d j d'} (hd : o.get? i = some d) (hnew : d.key ∉ known) (hj : o.owner? i = some j)
      (h : OnWay o known j d') : OnWay o known i d'

/-- The way without known keys is the whole chain of containers. -/
theorem OnWay.whole {o : Outline} {known : List String} {i : Nat} {d : Declaration}
    (h : OnWay o known i d) : OnWay o [] i d := by
  induction h with
  | here hd => exact .here hd
  | outwards hd _ hj _ ih => exact .outwards hd List.not_mem_nil hj ih

theorem OnWay.mem {o : Outline} {known : List String} {i : Nat} {d : Declaration}
    (h : OnWay o known i d) : ∃ item ∈ o.items.toList, item.declaration = d := by
  induction h with
  | here hd => exact Outline.exists_item hd
  | outwards _ _ _ _ ih => exact ih

/-- What is met first is the declaration at the place itself. -/
theorem onWay_iff {o : Outline} {known : List String} {i : Nat} {d d' : Declaration}
    (hd : o.get? i = some d) : OnWay o known i d' ↔
      d' = d ∨ d.key ∉ known ∧ ∃ j, o.owner? i = some j ∧ OnWay o known j d' := by
  constructor
  · intro h
    cases h with
    | here hd' => exact Or.inl (Option.some.inj (hd'.symm.trans hd))
    | outwards hd' hnew hj hout =>
        rw [Option.some.inj (hd'.symm.trans hd)] at hnew
        exact Or.inr ⟨hnew, _, hj, hout⟩
  · rintro (rfl | ⟨hnew, j, hj, hout⟩)
    · exact .here hd
    · exact .outwards hd hnew hj hout

theorem onWay_of_mem {o : Outline} {known : List String} {i : Nat} {d d' : Declaration}
    (hd : o.get? i = some d) (hmem : d.key ∈ known) : OnWay o known i d' ↔ d' = d := by
  rw [onWay_iff hd]
  exact or_iff_left fun h => h.1 hmem

/-- Nor does it where nothing stands at the place of the container. -/
theorem onWay_of_outermost {o : Outline} {known : List String} {i : Nat} {d d' : Declaration}
    (hd : o.get? i = some d) (howner : (o.owner? i).bind o.get? = none) :
    OnWay o known i d' ↔ d' = d := by
  rw [onWay_iff hd]
  refine or_iff_left ?_
  rintro ⟨-, j, hj, hout⟩
  rw [hj, Option.bind_some] at howner
  cases hout with
  | here hd' => rw [howner] at hd'; cases hd'
  | outwards hd' => rw [howner] at hd'; cases hd'

theorem onWay_of_inside {o : Outline} {known : List String} {i j : Nat} {d d' : Declaration}
    (hd : o.get? i = some d) (hnew : d.key ∉ known) (hj : o.owner? i = some j) :
    OnWay o known i d' ↔ d' = d ∨ OnWay o known j d' := by
  simp [onWay_iff hd, hnew, hj]

section Declaring

variable {table : Nat} {o : Outline} {i : Nat} {chain : List String} {t t' : Table}
  {res : Except DeclareError SymbolRef} (h : Declaring table o i chain t res t')

include h

/-- **A declaration that fails adds no symbol and registers no key**, however far it went. -/
theorem Declaring.unchanged_of_error : ∀ {e}, res = .error e →
    t'.symbols = t.symbols ∧ t'.registry = t.registry := by
  induction h with
  | nothing | emptyKey | circular | ownerNotType => exact fun _ => ⟨rfl, rfl⟩
  | known | outermost | inside => rintro e ⟨⟩
  | failed _ _ _ _ _ _ _ _ ih => exact fun he => ih he

/-- A declaration that succeeds answers with the symbol of the key that was asked for. -/
theorem Declaring.answer : ∀ {r}, res = .ok r →
    r.table = table ∧ ∃ d, o.get? i = some d ∧ t'.find? d.key = some r.id := by
  cases h with
  | nothing | emptyKey | circular | ownerNotType | failed => rintro r ⟨⟩
  | known hd _ hn =>
      rintro r ⟨⟩
      exact ⟨rfl, _, hd, hn⟩
  | outermost hd =>
      rintro r ⟨⟩
      exact ⟨rfl, _, hd, find?_push (t.strings_find?_interned _) table none⟩
  | inside hd _ _ _ _ _ _ h =>
      rintro r ⟨⟩
      exact ⟨rfl, _, hd, find?_push h.strings_find? table _⟩

/-- **A declaration that succeeds makes known what is on its way**, and nothing else. -/
theorem Declaring.mem_keys_iff : t.Indexed → ∀ {r}, res = .ok r → ∀ key, key ∈ t'.keys ↔
    key ∈ t.keys ∨ ∃ d, OnWay o t.keys i d ∧ d.key = key := by
  induction h with
  | nothing | emptyKey | circular | ownerNotType | failed => rintro - r ⟨⟩
  | @known i chain t d n hd hkey hn =>
      intro ht r _ key
      have hmem : d.key ∈ t.keys := (ht.intern _).mem_keys_of_find? hn
      simp only [onWay_of_mem hd hmem, exists_eq_left, keys_interned]
      exact (or_iff_left_of_imp fun heq => heq ▸ hmem).symm
  | outermost hd hkey hnew hchain howner =>
      intro _ r _ key
      rw [keys_push, keys_interned, List.mem_append, List.mem_singleton]
      simp only [onWay_of_outermost hd howner, exists_eq_left]
      exact or_congr_right eq_comm
  | @inside i chain t d j owner r t' hd hkey hnew hchain hj howner hkind h ih =>
      intro ht _ _ key
      -- the way goes on outwards, since the key is new
      have hway : ∀ d', OnWay o t.keys i d' ↔ d' = d ∨ OnWay o t.keys j d' := fun _ =>
        onWay_of_inside hd ((ht.intern d.key).find?_eq_none_iff.mp hnew) hj
      rw [keys_push, List.mem_append, List.mem_singleton, ih (ht.intern _) rfl, keys_interned]
      simp only [hway, or_and_right, exists_or, exists_eq_left]
      rw [or_assoc]
      exact or_congr_right (or_comm.trans (or_congr_left eq_comm))

end Declaring

/-! ## What every table satisfies -/

/-- **What every table satisfies** that was filled by declarations of `sources`. -/
structure Sound (table : Nat) (sources : Declaration → Prop) (t : Table) : Prop where
  indexed : t.Indexed
  key_ne : "" ∉ t.keys
  source : ∀ {n s}, t.get? n = some s → sources s.declaration
  containing : ∀ {n s r}, t.get? n = some s → s.containing = some r → r.table = table ∧ r.id < n ∧
    ∃ owner, sources owner ∧ owner.kind = .type ∧ t.find? owner.key = some r.id

section Sound

variable {table : Nat} {sources : Declaration → Prop} {t : Table} (h : Sound table sources t)

include h

theorem Sound.intern (key : String) : Sound table sources (t.interned key) := by
  refine ⟨h.indexed.intern key, h.key_ne, h.source, fun hs hr => ?_⟩
  obtain ⟨htable, hlt, owner, howner, hkind, hfind⟩ := h.containing hs hr
  exact ⟨htable, hlt, owner, howner, hkind, (t.grows_interned key).find? hfind⟩

/-- A new symbol may join once its key is interned and its container is there. -/
theorem Sound.push {d : Declaration} {number : Nat} (hd : sources d) (hkey : d.key ≠ "")
    (hnumber : t.strings.find? d.key = some number) (hnew : t.find? d.key = none)
    {c : Option SymbolRef} (hc : ∀ r, c = some r → r.table = table ∧
      ∃ owner, sources owner ∧ owner.kind = .type ∧ t.find? owner.key = some r.id) :
    Sound table sources (t.push table number d c).2 := by
  have hgrows : t.Grows (t.push table number d c).2 := grows_push hnumber hnew table c
  refine ⟨h.indexed.push hnumber hnew table c, ?_, ?_, ?_⟩
  · rw [keys_push, List.mem_append, List.mem_singleton]
    rintro (hold | heq)
    · exact h.key_ne hold
    · exact hkey heq.symm
  · intro n s hs
    rw [get?_push] at hs
    by_cases hn : n = t.size + 1
    · rw [if_pos hn] at hs
      obtain rfl := Option.some.inj hs
      exact hd
    · rw [if_neg hn] at hs
      exact h.source hs
  · intro n s r hs hr
    rw [get?_push] at hs
    by_cases hn : n = t.size + 1
    · -- the container of the new symbol has been there before
      rw [if_pos hn] at hs
      obtain rfl := Option.some.inj hs
      obtain ⟨htable, owner, hsource, hkind, hfind⟩ := hc r hr
      have hle := (h.indexed.find?_le hfind).2
      exact ⟨htable, by omega, owner, hsource, hkind, hgrows.find? hfind⟩
    · rw [if_neg hn] at hs
      obtain ⟨htable, hlt, owner, hsource, hkind, hfind⟩ := h.containing hs hr
      exact ⟨htable, hlt, owner, hsource, hkind, hgrows.find? hfind⟩

end Sound

/-- **One declaration keeps a table sound.** -/
theorem Declaring.sound {table : Nat} {o : Outline} {i : Nat} {chain : List String} {t t' : Table}
    {res : Except DeclareError SymbolRef} {sources : Declaration → Prop}
    (h : Declaring table o i chain t res t') :
    (∀ d, OnWay o [] i d → sources d) → Sound table sources t → Sound table sources t' := by
  induction h with
  | nothing | emptyKey => exact fun _ hs => hs
  | known | circular | ownerNotType => exact fun _ hs => hs.intern _
  | @outermost i chain t d hd hkey hnew hchain howner =>
      intro hsources hs
      refine (hs.intern d.key).push (hsources d (.here hd)) hkey (t.strings_find?_interned d.key)
        hnew ?_
      rintro r ⟨⟩
  | failed hd hkey hnew hchain hj howner hkind h ih =>
      intro hsources hs
      exact ih (fun d' hway => hsources d' (.outwards hd List.not_mem_nil hj hway)) (hs.intern _)
  | @inside i chain t d j owner r t' hd hkey hnew hchain hj howner hkind h ih =>
      intro hsources hs
      have hs' := ih (fun d' hway => hsources d' (.outwards hd List.not_mem_nil hj hway))
        (hs.intern d.key)
      refine hs'.push (hsources d (.here hd)) hkey h.strings_find? (h.find?_inside hnew) ?_
      -- the symbol it lies in is that of the container
      rintro _ ⟨⟩
      obtain ⟨htable, owner', howner', hfind⟩ := h.answer rfl
      obtain rfl : owner = owner' := Option.some.inj (howner.symm.trans howner')
      have howns : sources owner := hsources owner (.outwards hd List.not_mem_nil hj (.here howner))
      exact ⟨htable, owner, howns, hkind, hfind⟩

section Sound

variable {table : Nat} {sources : Declaration → Prop} {t : Table} (h : Sound table sources t)

include h

/-- A key that is known is answered from the table, which stays as it is. -/
theorem Sound.declare_known {o : Outline} {i : Nat} {d : Declaration} {n : Nat}
    (hd : o.get? i = some d) (hn : t.find? d.key = some n) :
    t.declare table o i = (.ok ⟨table, n⟩, t) := by
  have hmem : d.key ∈ t.keys := h.indexed.mem_keys_of_find? hn
  have hkey : d.key ≠ "" := fun heq => h.key_ne (heq ▸ hmem)
  obtain ⟨number, hnumber⟩ := Interner.exists_find? (h.indexed.interned _ hmem)
  have hsame : t.interned d.key = t := by
    unfold interned Table.intern
    rw [Interner.intern_of_find? hnumber]
  unfold declare
  rw [declareFrom_succ hd hkey, hsame, hn]

end Sound

/-! ## Any number of declarations -/

/-- The table after declaring one entity after the other. A call names an outline and a place in
it. -/
def afterCalls (table : Nat) (calls : List (Outline × Nat)) (t : Table) : Table :=
  calls.foldl (fun t c => (t.declare table c.1 c.2).2) t

@[simp] theorem afterCalls_cons (table : Nat) (c : Outline × Nat) (calls : List (Outline × Nat))
    (t : Table) :
    afterCalls table (c :: calls) t = afterCalls table calls (t.declare table c.1 c.2).2 := rfl

theorem afterCalls_append (table : Nat) (calls later : List (Outline × Nat)) (t : Table) :
    afterCalls table (calls ++ later) t = afterCalls table later (afterCalls table calls t) :=
  List.foldl_append

/-- The declarations that the calls could meet: those asked for, and their containers. -/
def Met (calls : List (Outline × Nat)) (d : Declaration) : Prop :=
  ∃ c ∈ calls, OnWay c.1 [] c.2 d

/-- **The keys that calls made known**: a call that succeeds registers what is on its way from the
entity asked for up to the first key that was known then. -/
inductive Registered (table : Nat) : (calls : List (Outline × Nat)) → Table → (key : String) → Prop
  | now {c calls t r d} (hok : (t.declare table c.1 c.2).1 = .ok r)
    (hway : OnWay c.1 t.keys c.2 d) :
      Registered table (c :: calls) t d.key
  | later {c calls t key} (h : Registered table calls (t.declare table c.1 c.2).2 key) :
      Registered table (c :: calls) t key

theorem grows_afterCalls (table : Nat) (calls : List (Outline × Nat)) :
    ∀ t : Table, t.Grows (afterCalls table calls t) := by
  induction calls with
  | nil => exact Grows.refl
  | cons c calls ih => exact fun t => (grows_declare t table c.1 c.2).trans (ih _)

theorem sound_afterCalls {table : Nat} {sources : Declaration → Prop}
    (calls : List (Outline × Nat)) :
    ∀ t : Table, (∀ d, Met calls d → sources d) → Sound table sources t →
      Sound table sources (afterCalls table calls t) := by
  induction calls with
  | nil => exact fun t _ hs => hs
  | cons c calls ih =>
      intro t hsources hs
      have hstep := (declaring_declare t table c.1 c.2).sound
        (fun d hway => hsources d ⟨c, List.mem_cons_self .., hway⟩) hs
      refine ih _ ?_ hstep
      rintro d ⟨c', hc', hway⟩
      exact hsources d ⟨c', List.mem_cons_of_mem _ hc', hway⟩

/-- A key is in the table exactly if it was there before or a call registered it. -/
theorem mem_keys_afterCalls (table : Nat) (calls : List (Outline × Nat)) (key : String) :
    ∀ t : Table, t.Indexed → (key ∈ (afterCalls table calls t).keys ↔
      key ∈ t.keys ∨ Registered table calls t key) := by
  induction calls with
  | nil =>
      intro t _
      constructor
      · exact Or.inl
      · rintro (hold | hreg)
        · exact hold
        · cases hreg
  | cons c calls ih =>
      intro t ht
      have hstep := declaring_declare t table c.1 c.2
      have ht' := hstep.indexed ht
      rw [afterCalls_cons, ih _ ht']
      constructor
      · rintro (hmem | hreg)
        · -- the first call adds what is on its way if it succeeds, and nothing otherwise
          cases hres : (t.declare table c.1 c.2).1 with
          | error e =>
              unfold keys at hmem
              rw [(hstep.unchanged_of_error hres).1] at hmem
              exact Or.inl hmem
          | ok r =>
              rcases (hstep.mem_keys_iff ht hres key).mp hmem with hold | ⟨d, hway, rfl⟩
              · exact Or.inl hold
              · exact Or.inr (.now hres hway)
        · exact Or.inr (.later hreg)
      · rintro (hold | hreg)
        · -- tables only grow, so an old key is still there
          obtain ⟨n, hn⟩ := Option.isSome_iff_exists.mp (ht.isSome_find?_iff.mpr hold)
          exact Or.inl (ht'.mem_keys_of_find? ((grows_declare t table c.1 c.2).find? hn))
        · cases hreg with
          | now hok hway => exact Or.inl ((hstep.mem_keys_iff ht hok _).mpr (Or.inr ⟨_, hway, rfl⟩))
          | later h => exact Or.inr h

theorem get?_empty (capacity : Int) (n : Nat) : (empty capacity).get? n = none := by
  simp [get?, empty, under]

theorem indexed_empty (capacity : Int) : (empty capacity).Indexed := by
  refine ⟨fun key hkey => absurd hkey List.not_mem_nil, fun number id => ?_⟩
  constructor
  · rintro ⟨⟩
  · rintro ⟨s, hs, -⟩
    rw [get?_empty] at hs
    cases hs

theorem sound_empty (table : Nat) (sources : Declaration → Prop) (capacity : Int) :
    Sound table sources (.empty capacity) := by
  refine ⟨indexed_empty capacity, List.not_mem_nil, ?_, ?_⟩
  · intro n s hs
    rw [get?_empty] at hs
    cases hs
  · intro n s r hs
    rw [get?_empty] at hs
    cases hs

/-- Where equal keys mean equal kinds, containers are types. -/
theorem Sound.containing_type {table : Nat} {sources : Declaration → Prop} {t : Table}
    (h : Sound table sources t)
    (hagree : ∀ d d', sources d → sources d' → d.key = d'.key → d.kind = d'.kind)
    {n : Nat} {s : Symbol} {r : SymbolRef} (hs : t.get? n = some s) (hr : s.containing = some r) :
    ∃ c, t.get? r.id = some c ∧ c.declaration.kind = .type := by
  obtain ⟨-, -, owner, howner, hkind, hfind⟩ := h.containing hs hr
  obtain ⟨c, hc, hkey⟩ := h.indexed.find?_eq_some_iff.mp hfind
  exact ⟨c, hc, (hagree _ _ (h.source hc) howner hkey).trans hkind⟩

/-- **The registry after any declarations**, successful or not, of entities in any chains of
containers. The numbers are `1` to `size`, in the order of the symbols. No key occurs twice, and a
key leads to the symbol that has it, because its interned number is registered for that symbol. The
keys are those that a successful call registered, and each call's answer still stands. A known key
is answered again without a change, and further calls change no symbol. A container is in the table
under a smaller number, and it is a type wherever equal keys mean equal kinds. -/
theorem declared_table (table : Nat) (capacity : Int) (calls : List (Outline × Nat)) :
    let start := Table.empty capacity
    let t := afterCalls table calls start
    (∀ id, (t.get? id).isSome ↔ 1 ≤ id ∧ id ≤ t.size) ∧
    (∀ i, t.get? (i + 1) = t.symbols[i]?) ∧
    t.keys.Nodup ∧
    (∀ key id, t.find? key = some id ↔ ∃ s, t.get? id = some s ∧ s.key = key) ∧
    (∀ key ∈ t.keys, (t.strings.find? key).isSome) ∧
    (∀ number id, t.registry.lookup number = some id ↔
      ∃ s, t.get? id = some s ∧ t.strings.find? s.key = some number) ∧
    (∀ key, (t.find? key).isSome ↔ Registered table calls start key) ∧
    (∀ before c after r, calls = before ++ c :: after →
      ((afterCalls table before start).declare table c.1 c.2).1 = .ok r →
      r.table = table ∧ ∃ d, c.1.get? c.2 = some d ∧ t.find? d.key = some r.id) ∧
    (∀ o i d id, o.get? i = some d → t.find? d.key = some id →
      t.declare table o i = (.ok ⟨table, id⟩, t)) ∧
    (∀ later id s, t.get? id = some s → (afterCalls table later t).get? id = some s) ∧
    (∀ id s r, t.get? id = some s → s.containing = some r →
      r.table = table ∧ r.id < id ∧ (t.get? r.id).isSome) ∧
    ((∀ d d', Met calls d → Met calls d' → d.key = d'.key → d.kind = d'.kind) →
      ∀ id s r, t.get? id = some s → s.containing = some r →
        ∃ c, t.get? r.id = some c ∧ c.kind = .type) := by
  intro start t
  have hs : Sound table (Met calls) t :=
    sound_afterCalls calls start (fun _ hd => hd) (sound_empty table _ capacity)
  refine ⟨t.isSome_get?_iff, fun i => rfl, hs.indexed.nodup_keys,
    fun key id => hs.indexed.find?_eq_some_iff, ?_, hs.indexed.registry, ?_, ?_,
      fun o i d id hd hid => hs.declare_known hd hid,
    fun later id s h => (grows_afterCalls table later t).get?_of_some h, ?_,
    fun hagree id s r h hr => hs.containing_type hagree h hr⟩
  · intro key hkey
    exact Option.isSome_iff_exists.mpr (Interner.exists_find? (hs.indexed.interned key hkey))
  · intro key
    rw [hs.indexed.isSome_find?_iff,
      mem_keys_afterCalls table calls key start (indexed_empty capacity)]
    exact or_iff_right List.not_mem_nil
  · rintro before c after r rfl hok
    -- the call answered with the symbol of its key, and the calls after it keep that
    have hcall := declaring_declare (afterCalls table before start) table c.1 c.2
    obtain ⟨htable, d, hd, hfind⟩ := hcall.answer hok
    refine ⟨htable, d, hd, ?_⟩
    show (afterCalls table (before ++ c :: after) start).find? d.key = some r.id
    rw [afterCalls_append]
    exact (grows_afterCalls table after _).find? hfind
  · intro id s r h hr
    obtain ⟨htable, hlt, owner, -, -, hfind⟩ := hs.containing h hr
    have hle := hs.indexed.find?_le hfind
    exact ⟨htable, hlt, (t.isSome_get?_iff r.id).mpr hle⟩

/-- A method in a type in a type, a type that is declared in itself, and a field that claims a
method for its type. -/
def nestedOutline : Outline where
  items := #[
    { declaration := { key := "A", name := "A", kind := .type } },
    { declaration := { key := "A.B", name := "B", kind := .type }, owner := some 0 },
    { declaration := { key := "A.B.m", name := "m", kind := .method }, owner := some 1 },
    { declaration := { key := "C", name := "C", kind := .type }, owner := some 3 },
    { declaration := { key := "A.B.m.x", name := "x", kind := .field }, owner := some 2 }]

/-- Calls that fail, that overlap and that repeat an earlier one. -/
def nestedCalls : List (Outline × Nat) :=
  [3, 1, 4, 2, 2].map fun i => (nestedOutline, i)

theorem declared_table_nested :
    let t := afterCalls 0 nestedCalls (.empty 0)
    t.keys = ["A", "A.B", "A.B.m"] ∧
    t.strings.strings.toList = ["", "C", "A.B", "A", "A.B.m.x", "A.B.m"] ∧
      t.registry = [(5, 3), (2, 2), (3, 1)] ∧ ∃ c, t.get? 2 = some c ∧ c.kind = .type := by
  have hagree : ∀ d d', Met nestedCalls d → Met nestedCalls d' → d.key = d'.key →
      d.kind = d'.kind := by
    have hitems : ∀ x ∈ nestedOutline.items.toList, ∀ y ∈ nestedOutline.items.toList,
        x.declaration.key = y.declaration.key → x.declaration.kind = y.declaration.kind := by decide
    have hmem : ∀ d, Met nestedCalls d → ∃ x ∈ nestedOutline.items.toList, x.declaration = d := by
      rintro d ⟨c, hc, hway⟩
      obtain ⟨i, -, rfl⟩ := List.mem_map.mp hc
      exact hway.mem
    intro d d' hd hd'
    obtain ⟨x, hx, rfl⟩ := hmem d hd
    obtain ⟨y, hy, rfl⟩ := hmem d' hd'
    exact hitems x hx y hy
  obtain ⟨-, -, -, -, -, -, -, -, -, -, -, htypes⟩ := declared_table 0 0 nestedCalls
  exact ⟨by decide, by decide, by decide, htypes hagree 3 _ ⟨0, 2⟩ rfl rfl⟩

/-- Two declarations of one key that disagree on the kind make a method the container of a field. -/
example :
    let o : Outline := { items := #[
      { declaration := { key := "M", name := "M", kind := .method } },
      { declaration := { key := "M.f", name := "f", kind := .field }, owner := some 2 },
      { declaration := { key := "M", name := "M", kind := .type } }] }
    let t := afterCalls 0 [(o, 0), (o, 1)] (.empty 0)
    (t.symbols.toList.map fun s => (s.kind, s.containing))
      = [(.method, none), (.field, some ⟨0, 1⟩)] := by
  decide

end Table

end SymbolAtlas
