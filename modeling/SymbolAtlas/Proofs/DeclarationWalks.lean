import SymbolAtlas.Proofs.Registry

set_option autoImplicit false

/-! # Declaring, told from the way outwards

A declaration is told here without the table it is made in. `Outline.way` lists the declarations met
on the way from an entity outwards, up to the first one whose key is known. `Fault` says what can be
wrong with one of them. `Declaring.fault` and `Declaring.not_fault` say that a declaration fails
exactly with the first fault on the way, and `Declaring.exists_added` that it otherwise adds what is
new on the way, outermost first. `declare_all_or_nothing` puts this together. -/

namespace SymbolAtlas

namespace Outline

/-- The declaration met after `k` steps outwards from place `i`. The way ends at the first key that
is among those known, and at a declaration that is declared in no other. -/
def way (o : Outline) (known : List String) : (i k : Nat) → Option Declaration
  | i, 0 => o.get? i
  | i, k + 1 => (o.get? i).bind fun d =>
      if d.key ∈ known then none else (o.owner? i).bind fun j => way o known j k

variable {o : Outline} {known : List String} {i j k : Nat} {d : Declaration}

theorem way_eq_none (h : o.get? i = none) (k : Nat) : o.way known i k = none := by
  cases k with
  | zero => exact h
  | succ k => rw [way, h]; rfl

theorem way_succ_of_mem (hd : o.get? i = some d) (hknown : d.key ∈ known) (k : Nat) :
    o.way known i (k + 1) = none := by
  rw [way, hd, Option.bind_some, if_pos hknown]

/-- Past a key that is new the way is that of the container. -/
theorem way_succ (hd : o.get? i = some d) (hnew : d.key ∉ known) (hj : o.owner? i = some j)
    (k : Nat) :
    o.way known i (k + 1) = o.way known j k := by
  rw [way, hd, Option.bind_some, if_neg hnew, hj]
  rfl

/-- The way ends at a declaration that is declared in no other. -/
theorem way_succ_of_outermost (howner : (o.owner? i).bind o.get? = none) (k : Nat) :
    o.way known i (k + 1) = none := by
  rw [way]
  cases o.get? i with
  | none => rfl
  | some d =>
      rw [Option.bind_some]
      split
      · rfl
      · cases hj : o.owner? i with
        | none => rfl
        | some j =>
            rw [hj, Option.bind_some] at howner
            exact way_eq_none howner k

/-- Only a declaration whose key is new has a way past it. -/
theorem exists_way_of_succ (h : o.way known i (k + 1) = some d) :
    ∃ x, o.way known i k = some x ∧ x.key ∉ known := by
  induction k generalizing i with
  | zero =>
      rw [way] at h
      obtain ⟨x, hx, h⟩ := Option.bind_eq_some_iff.mp h
      refine ⟨x, hx, fun hknown => ?_⟩
      rw [if_pos hknown] at h
      cases h
  | succ k ih =>
      rw [way] at h
      obtain ⟨x, hx, h⟩ := Option.bind_eq_some_iff.mp h
      by_cases hknown : x.key ∈ known
      · rw [if_pos hknown] at h
        cases h
      · rw [if_neg hknown] at h
        obtain ⟨j, hj, h⟩ := Option.bind_eq_some_iff.mp h
        rw [way_succ hx hknown hj]
        exact ih h

/-- The keys on the way are new, but for the last one. -/
theorem exists_way_of_lt (hlt : j < k) (h : o.way known i k = some d) :
    ∃ x, o.way known i j = some x ∧ x.key ∉ known := by
  induction k generalizing d with
  | zero => omega
  | succ k ih =>
      obtain ⟨x, hx, hnew⟩ := exists_way_of_succ h
      by_cases hj : j = k
      · exact ⟨x, hj ▸ hx, hnew⟩
      · exact ih (by omega) hx

end Outline

namespace Table

/-! ## Faults -/

/-- **What is wrong with the declaration met after `k` steps**, when the keys in `chain` were met
before the way began. A container has to be a type, keys must not be empty, and none may be met
twice; the first of these that fails is the fault. -/
inductive Fault (o : Outline) (known chain : List String) (i : Nat) :
    (k : Nat) → DeclareError → Prop
  | ownerNotType {k d owner} (hd : o.way known i k = some d)
      (howner : o.way known i (k + 1) = some owner) (hkind : owner.kind ≠ .type) :
      Fault o known chain i (k + 1) (.ownerNotType owner.key d.key)
  | emptyKey {k d} (hd : o.way known i k = some d) (hkind : k = 0 ∨ d.kind = .type)
      (hkey : d.key = "") : Fault o known chain i k .emptyKey
  | containsItself {k d} (hd : o.way known i k = some d) (hkind : k = 0 ∨ d.kind = .type)
      (hkey : d.key ≠ "") (hnew : d.key ∉ known)
      (hseen : d.key ∈ chain ∨ ∃ j < k, ∃ d', o.way known i j = some d' ∧ d'.key = d.key) :
      Fault o known chain i k (.containsItself d.key)

section Fault

variable {o : Outline} {known chain : List String} {i j k : Nat} {d owner : Declaration}
  {e : DeclareError}

/-- Nothing is wrong with a declaration that passes its own checks. -/
theorem not_fault_zero (hd : o.get? i = some d) (hkey : d.key ≠ "") (hchain : d.key ∉ chain) :
    ¬ Fault o known chain i 0 e := by
  intro h
  cases h with
  | emptyKey hd' _ hempty =>
      rw [Option.some.inj (hd.symm.trans hd')] at hkey
      exact hkey hempty
  | containsItself hd' _ _ _ hseen =>
      rw [Option.some.inj (hd.symm.trans hd')] at hchain
      rcases hseen with hin | ⟨j, hj, -⟩
      · exact hchain hin
      · omega

/-- There is nothing wrong where there is nothing. -/
theorem not_fault_of_way_eq_none (h : o.way known i k = none) : ¬ Fault o known chain i k e := by
  rintro (⟨-, howner, -⟩ | ⟨hd, -, -⟩ | ⟨hd, -, -, -, -⟩)
  · rw [h] at howner
    cases howner
  · rw [h] at hd
    cases hd
  · rw [h] at hd
    cases hd

/-- **One step outwards.** What is wrong further out is wrong on the way of the container, when the
key that was left behind counts as met. -/
theorem fault_succ (hd : o.get? i = some d) (hnew : d.key ∉ known) (hj : o.owner? i = some j)
    (howner : o.get? j = some owner) (hkind : owner.kind = .type) :
    Fault o known chain i (k + 1) e ↔ Fault o known (chain ++ [d.key]) j k e := by
  have hway : ∀ k, o.way known i (k + 1) = o.way known j k := Outline.way_succ hd hnew hj
  have hkind' : ∀ {x}, o.way known j k = some x → x.kind = .type ∨ k ≠ 0 := by
    intro x hx
    by_cases hk : k = 0
    · subst hk
      rw [← Option.some.inj (howner.symm.trans hx)]
      exact Or.inl hkind
    · exact Or.inr hk
  constructor
  · rintro (⟨hx, hy, hnot⟩ | ⟨hx, hor, hkey⟩ | ⟨hx, hor, hkey, hnewx, hseen⟩)
    · rw [hway] at hy
      cases k with
      | zero =>
          -- the container at hand is a type
          rcases hkind' hy with htype | hk
          · exact absurd htype hnot
          · exact absurd rfl hk
      | succ k =>
          rw [hway] at hx
          exact .ownerNotType hx hy hnot
    · rw [hway] at hx
      exact .emptyKey hx (Or.inr (hor.resolve_left (Nat.succ_ne_zero k))) hkey
    · rw [hway] at hx
      refine .containsItself hx (Or.inr (hor.resolve_left (Nat.succ_ne_zero k))) hkey hnewx ?_
      rcases hseen with hin | ⟨m, hm, d', hd', heq⟩
      · exact Or.inl (List.mem_append_left _ hin)
      · cases m with
        | zero =>
            rw [← heq, ← Option.some.inj (hd.symm.trans hd')]
            exact Or.inl (List.mem_append_right _ (List.mem_singleton.mpr rfl))
        | succ m =>
            rw [hway] at hd'
            exact Or.inr ⟨m, by omega, d', hd', heq⟩
  · rintro (⟨hx, hy, hnot⟩ | ⟨hx, hor, hkey⟩ | ⟨hx, hor, hkey, hnewx, hseen⟩)
    · exact .ownerNotType ((hway _).trans hx) ((hway _).trans hy) hnot
    · refine .emptyKey ((hway k).trans hx) (Or.inr ?_) hkey
      rcases hkind' hx with htype | hk
      · exact htype
      · exact hor.resolve_left hk
    · refine .containsItself ((hway k).trans hx) (Or.inr ?_) hkey hnewx ?_
      · rcases hkind' hx with htype | hk
        · exact htype
        · exact hor.resolve_left hk
      · rcases hseen with hin | ⟨m, hm, d', hd', heq⟩
        · rcases List.mem_append.mp hin with hin | hin
          · exact Or.inl hin
          · exact Or.inr ⟨0, Nat.succ_pos k, d, hd, (List.mem_singleton.mp hin).symm⟩
        · exact Or.inr ⟨m + 1, by omega, d', (hway m).trans hd', heq⟩

/-- **Something is wrong on the way** exactly if it meets an empty key, a key for the second time,
or a container that is no type. -/
theorem exists_fault_iff : (∃ k e, Fault o known [] i k e) ↔
    ∃ k d, o.way known i k = some d ∧ (d.key = "" ∨
      (∃ j < k, ∃ d', o.way known i j = some d' ∧ d'.key = d.key) ∨ (0 < k ∧ d.kind ≠ .type)) := by
  constructor
  · rintro ⟨k, e, ⟨-, howner, hkind⟩ | ⟨hd, -, hkey⟩ | ⟨hd, -, -, -, hseen⟩⟩
    · exact ⟨_, _, howner, Or.inr (Or.inr ⟨Nat.succ_pos _, hkind⟩)⟩
    · exact ⟨k, _, hd, Or.inl hkey⟩
    · exact ⟨k, _, hd, Or.inr (Or.inl (hseen.resolve_left List.not_mem_nil))⟩
  · rintro ⟨k, d, hd, hwrong⟩
    -- a container that is no type hides what else is wrong with it
    by_cases hkind : 0 < k ∧ d.kind ≠ .type
    · obtain ⟨m, rfl⟩ : ∃ m, k = m + 1 := ⟨k - 1, by omega⟩
      obtain ⟨x, hx, -⟩ := Outline.exists_way_of_succ hd
      exact ⟨m + 1, _, .ownerNotType hx hd hkind.2⟩
    · have hkind' : k = 0 ∨ d.kind = .type := by
        by_cases hk : k = 0
        · exact Or.inl hk
        · exact Or.inr (not_not.mp fun hnot => hkind ⟨by omega, hnot⟩)
      by_cases hkey : d.key = ""
      · exact ⟨k, _, .emptyKey hd hkind' hkey⟩
      · obtain ⟨m, hm, d', hd', heq⟩ :=
          (hwrong.resolve_left hkey).resolve_right hkind
        obtain ⟨x, hx, hnewx⟩ := Outline.exists_way_of_lt hm hd
        have hnew : d.key ∉ known := by
          rwa [Option.some.inj (hx.symm.trans hd'), heq] at hnewx
        exact ⟨k, _, .containsItself hd hkind' hkey hnew (Or.inr ⟨m, hm, d', hd', heq⟩)⟩

end Fault

section Declaring

variable {table : Nat} {o : Outline} {i : Nat} {chain : List String} {t t' : Table}
  {res : Except DeclareError SymbolRef} (h : Declaring table o i chain t res t')

include h

/-- **A declaration that fails reports the first fault on its way.** -/
theorem Declaring.fault (hi : o.get? i ≠ none) : t.Indexed → ∀ {e}, res = .error e →
    ∃ k, Fault o t.keys chain i k e ∧ ∀ j < k, ∀ e', ¬ Fault o t.keys chain i j e' := by
  induction h with
  | nothing hd => exact absurd hd hi
  | emptyKey hd hkey =>
      rintro - e ⟨⟩
      exact ⟨0, .emptyKey hd (Or.inl rfl) hkey, by simp⟩
  | known | outermost | inside => rintro - e ⟨⟩
  | circular hd hkey hnew hchain =>
      rintro ht e ⟨⟩
      have hnew' := (ht.intern _).find?_eq_none_iff.mp hnew
      exact ⟨0, .containsItself hd (Or.inl rfl) hkey hnew' (Or.inl hchain), by simp⟩
  | ownerNotType hd hkey hnew hchain hj howner hkind =>
      rintro ht e ⟨⟩
      have hway := Outline.way_succ hd ((ht.intern _).find?_eq_none_iff.mp hnew) hj 0
      refine ⟨1, .ownerNotType hd (hway.trans howner) hkind, fun j hlt e' => ?_⟩
      obtain rfl : j = 0 := by omega
      exact not_fault_zero hd hkey hchain
  | failed hd hkey hnew hchain hj howner hkind h ih =>
      intro ht e he
      -- nothing is wrong here, so the first fault is one step further out
      obtain ⟨k, hfault, hfirst⟩ := ih (by simp [howner]) (ht.intern _) he
      have hnew' := (ht.intern _).find?_eq_none_iff.mp hnew
      refine ⟨k + 1, (fault_succ hd hnew' hj howner hkind).mpr hfault, fun m hm e' => ?_⟩
      cases m with
      | zero => exact not_fault_zero hd hkey hchain
      | succ m =>
          intro hfault'
          exact hfirst m (by omega) e' ((fault_succ hd hnew' hj howner hkind).mp hfault')

theorem Declaring.not_fault : t.Indexed → ∀ {r}, res = .ok r →
    ∀ k e, ¬ Fault o t.keys chain i k e := by
  induction h with
  | nothing | emptyKey | circular | ownerNotType | failed => rintro - r ⟨⟩
  | @known i chain t d n hd hkey hn =>
      intro ht r _ k e hfault
      have hknown : d.key ∈ t.keys := (ht.intern _).mem_keys_of_find? hn
      -- the way ends with the known key, so only the fault at the place itself is left to rule out
      cases k with
      | zero =>
          cases hfault with
          | emptyKey hd' _ hempty =>
              rw [Option.some.inj (hd.symm.trans hd')] at hkey
              exact hkey hempty
          | containsItself hd' _ _ hnew _ =>
              rw [Option.some.inj (hd.symm.trans hd')] at hknown
              exact hnew hknown
      | succ k => exact not_fault_of_way_eq_none (Outline.way_succ_of_mem hd hknown k) hfault
  | outermost hd hkey hnew hchain howner =>
      intro _ r _ k e
      cases k with
      | zero => exact not_fault_zero hd hkey hchain
      | succ k => exact not_fault_of_way_eq_none (Outline.way_succ_of_outermost howner k)
  | inside hd hkey hnew hchain hj howner hkind h ih =>
      intro ht _ _ k e
      have hnew' := (ht.intern _).find?_eq_none_iff.mp hnew
      -- what is at fault further out would be at fault for the container
      cases k with
      | zero => exact not_fault_zero hd hkey hchain
      | succ k =>
          intro hfault
          exact ih (ht.intern _) rfl k e ((fault_succ hd hnew' hj howner hkind).mp hfault)

/-- Declaring leaves all of a table but its symbols, strings and registry as it was. -/
theorem Declaring.rest_eq :
    t' = { t with symbols := t'.symbols, strings := t'.strings, registry := t'.registry } := by
  induction h with
  | nothing | emptyKey | known | circular | outermost | ownerNotType => rfl
  | failed _ _ _ _ _ _ _ _ ih => rw [ih]; rfl
  | inside _ _ _ _ _ _ _ _ ih => rw [ih]; rfl

/-- A declaration that fails changes nothing but the strings. -/
theorem Declaring.eq_of_error {e : DeclareError} (he : res = .error e) :
    t' = { t with strings := t'.strings } := by
  obtain ⟨hsymbols, hregistry⟩ := h.unchanged_of_error he
  have hrest := h.rest_eq
  rwa [hsymbols, hregistry] at hrest

/-- So every key leads where it led, though more keys may be interned. -/
theorem Declaring.find?_of_error (ht : t.Indexed) {e : DeclareError} (he : res = .error e)
    (key : String) : t'.find? key = t.find? key := by
  have hget : ∀ n, t'.get? n = t.get? n := by
    intro n
    rw [h.eq_of_error he]
    rfl
  refine Option.ext fun n => ?_
  rw [(h.indexed ht).find?_eq_some_iff, ht.find?_eq_some_iff, hget]

end Declaring

/-! ## What is added -/

/-- **The symbols `news` were added to a table**, the innermost named first. They are those of the
declarations on the way whose keys were new. The outermost one has the next number, and so on
inwards, and each one lies in the symbol of the declaration that comes after it on the way. -/
structure Added (table : Nat) (o : Outline) (i : Nat) (t t' : Table) (news : List Symbol) :
    Prop where
  symbols : t'.symbols.toList = t.symbols.toList ++ news.reverse
  met : ∀ k, news[k]?.map Symbol.declaration = (o.way t.keys i k).filter (·.key ∉ t.keys)
  fresh : ∀ s ∈ news, s = .ofDeclaration s.declaration s.containing
  number : ∀ k s, news[k]? = some s → t'.find? s.key = some (t.size + (news.length - k))
  outermost : ∀ k s, news[k]? = some s → o.way t.keys i (k + 1) = none → s.containing = none
  inside : ∀ k s owner, news[k]? = some s → o.way t.keys i (k + 1) = some owner →
    ∃ q, s.containing = some q ∧ q.table = table ∧ t'.find? owner.key = some q.id

namespace Added

variable {table : Nat} {o : Outline} {i j : Nat} {t t' : Table} {d : Declaration}

theorem nil_of_known (hd : o.get? i = some d) (hknown : d.key ∈ t.keys) :
    Added table o i t (t.interned d.key) [] := by
  refine ⟨by simp, fun k => ?_, by simp, by simp, by simp, by simp⟩
  cases k with
  | zero => rw [Outline.way, hd, Option.filter_some, if_neg (by simpa using hknown)]; rfl
  | succ k => rw [Outline.way_succ_of_mem hd hknown]; rfl

theorem singleton (hd : o.get? i = some d) (hnew : d.key ∉ t.keys)
    (howner : (o.owner? i).bind o.get? = none) :
    Added table o i t ((t.interned d.key).push table (t.number d.key) d none).2
      [.ofDeclaration d none] := by
  have hway : ∀ k, o.way t.keys i (k + 1) = none := Outline.way_succ_of_outermost howner
  have hone : ∀ k s, [Symbol.ofDeclaration d none][k]? = some s → k = 0 ∧
      s = .ofDeclaration d none := by
    intro k s hs
    cases k with
    | zero => exact ⟨rfl, (Option.some.inj hs).symm⟩
    | succ k => cases hs
  refine ⟨by simp [push], fun k => ?_, by simp [Symbol.ofDeclaration], ?_, ?_, ?_⟩
  · cases k with
    | zero => rw [Outline.way, hd, Option.filter_some, if_pos (by simpa using hnew)]; rfl
    | succ k => rw [hway]; rfl
  · intro k s hs
    obtain ⟨rfl, rfl⟩ := hone k s hs
    exact find?_push (t.strings_find?_interned d.key) table none
  · intro k s hs _
    rw [(hone k s hs).2]
    rfl
  · intro k s owner _ hsome
    rw [hway] at hsome
    cases hsome

/-- One more symbol, inside those that were added before. -/
theorem cons {owner : Declaration} {r : SymbolRef} {news : List Symbol}
    (h : Added table o j (t.interned d.key) t' news) (hd : o.get? i = some d)
    (hnew : d.key ∉ t.keys) (hnumber : t'.strings.find? d.key = some (t.number d.key))
    (hnew' : t'.find? d.key = none) (hj : o.owner? i = some j)
    (howner : o.get? j = some owner) (htable : r.table = table)
    (hr : t'.find? owner.key = some r.id) :
    Added table o i t (t'.push table (t.number d.key) d (some r)).2
      (.ofDeclaration d (some r) :: news) := by
  have hgrows : t'.Grows (t'.push table (t.number d.key) d (some r)).2 :=
    grows_push hnumber hnew' table (some r)
  have hway : ∀ k, o.way t.keys i (k + 1) = o.way t.keys j k := Outline.way_succ hd hnew hj
  have hsize : t'.size = t.size + news.length := by
    have := congrArg List.length h.symbols
    simpa [size] using this
  refine ⟨?_, fun k => ?_, ?_, ?_, ?_, ?_⟩
  · simp [push, h.symbols]
  · cases k with
    | zero =>
        rw [Outline.way, hd, Option.filter_some, if_pos (by simpa using hnew)]
        rfl
    | succ k =>
        rw [hway]
        exact h.met k
  · intro s hs
    rcases List.mem_cons.mp hs with rfl | hs
    · rfl
    · exact h.fresh s hs
  · intro k s hs
    cases k with
    | zero =>
        obtain rfl := Option.some.inj hs
        have hfind := find?_push hnumber table (some r)
        rwa [hsize, Nat.add_assoc] at hfind
    | succ k =>
        -- what was added before keeps its number
        have hfind := hgrows.find? (h.number k s hs)
        rwa [List.length_cons, Nat.add_sub_add_right]
  · intro k s hs hnone
    cases k with
    | zero =>
        rw [hway, Outline.way, howner] at hnone
        cases hnone
    | succ k => exact h.outermost k s hs ((hway _).symm.trans hnone)
  · intro k s x hs hx
    cases k with
    | zero =>
        obtain rfl := Option.some.inj hs
        rw [hway, Outline.way, howner] at hx
        obtain rfl := Option.some.inj hx
        exact ⟨r, rfl, htable, hgrows.find? hr⟩
    | succ k =>
        obtain ⟨q, hq, hqtable, hfind⟩ := h.inside k s x hs ((hway _).symm.trans hx)
        exact ⟨q, hq, hqtable, hgrows.find? hfind⟩

end Added

/-- **A declaration that succeeds adds what is new on its way.** -/
theorem Declaring.exists_added {table : Nat} {o : Outline} {i : Nat} {chain : List String}
    {t t' : Table} {res : Except DeclareError SymbolRef} (h : Declaring table o i chain t res t') :
    t.Indexed → ∀ {r}, res = .ok r → ∃ news, Added table o i t t' news := by
  induction h with
  | nothing | emptyKey | circular | ownerNotType | failed => rintro - r ⟨⟩
  | known hd hkey hn =>
      exact fun ht _ _ => ⟨[], .nil_of_known hd ((ht.intern _).mem_keys_of_find? hn)⟩
  | outermost hd hkey hnew hchain howner =>
      exact fun ht _ _ => ⟨_, .singleton hd ((ht.intern _).find?_eq_none_iff.mp hnew) howner⟩
  | inside hd hkey hnew hchain hj howner hkind h ih =>
      intro ht _ _
      obtain ⟨news, hnews⟩ := ih (ht.intern _) rfl
      obtain ⟨htable, owner', howner', hq⟩ := h.answer rfl
      obtain rfl := Option.some.inj (howner.symm.trans howner')
      have hout := (ht.intern _).find?_eq_none_iff.mp hnew
      exact ⟨_, hnews.cons hd hout h.strings_find? (h.find?_inside hnew) hj howner htable hq⟩

/-! ## The allowance -/

/-- What a declaration can do, it does with every allowance that is large enough. -/
theorem Declaring.exists_fuel {table : Nat} {o : Outline} {i : Nat} {chain : List String}
    {t t' : Table} {res : Except DeclareError SymbolRef} (h : Declaring table o i chain t res t') :
    ∃ n, ∀ extra, declareFrom table o (extra + n + 1) i chain t = (res, t') := by
  induction h with
  | nothing hd => exact ⟨0, fun extra => by rw [declareFrom, hd]⟩
  | emptyKey hd hkey =>
      refine ⟨0, fun extra => ?_⟩
      rw [declareFrom, hd]
      exact if_pos hkey
  | known hd hkey hn =>
      refine ⟨0, fun extra => ?_⟩
      rw [declareFrom_succ hd hkey, hn]
  | circular hd hkey hnew hchain =>
      refine ⟨0, fun extra => ?_⟩
      rw [declareFrom_succ hd hkey, hnew]
      exact if_pos (List.contains_iff_mem.mpr hchain)
  | outermost hd hkey hnew hchain howner =>
      exact ⟨0, fun extra => declareFrom_outermost hd hkey hnew hchain howner _ _⟩
  | ownerNotType hd hkey hnew hchain hj howner hkind =>
      refine ⟨0, fun extra => ?_⟩
      rw [declareFrom_owner hd hkey hnew hchain hj howner, if_pos hkind]
  | failed hd hkey hnew hchain hj howner hkind h ih =>
      -- one level more than the container needs
      obtain ⟨n, hn⟩ := ih
      refine ⟨n + 1, fun extra => ?_⟩
      rw [declareFrom_owner hd hkey hnew hchain hj howner, if_neg (not_not.mpr hkind),
        ← Nat.add_assoc, hn]
  | inside hd hkey hnew hchain hj howner hkind h ih =>
      obtain ⟨n, hn⟩ := ih
      refine ⟨n + 1, fun extra => ?_⟩
      rw [declareFrom_owner hd hkey hnew hchain hj howner, if_neg (not_not.mpr hkind),
        ← Nat.add_assoc, hn]

/-- **An allowance beyond the number of declarations is never used up**, so a larger one changes
nothing. -/
theorem declareFrom_eq_declare (table : Nat) (o : Outline) {fuel : Nat}
    (hfuel : o.items.size < fuel) (i : Nat) (t : Table) :
    declareFrom table o fuel i [] t = t.declare table o i := by
  rw [← Outline.length_keys] at hfuel
  obtain ⟨n, hn⟩ := (declaring_declareFrom table o fuel i [] t List.nodup_nil (List.nil_subset _)
    hfuel).exists_fuel
  obtain ⟨m, hm⟩ := (declaring_declare t table o i).exists_fuel
  -- both allowances do what one does that is larger than either needs
  calc declareFrom table o fuel i [] t
      = declareFrom table o (m + n + 1) i [] t := (hn m).symm
    _ = declareFrom table o (n + m + 1) i [] t := by rw [Nat.add_comm m n]
    _ = t.declare table o i := hm n

/-! ## One declaration -/

/-- **The tables that come about**: an empty one, a table after a declaration, and a table in which
only what declarations do not decide was changed. -/
inductive Reachable : Table → Prop
  | empty (capacity : Int) : Reachable (.empty capacity)
  | declare {t} (h : Reachable t) (table : Nat) (o : Outline) (i : Nat) :
      Reachable (t.declare table o i).2
  | fill {t t'} (h : Reachable t) (hsame : t'.skeleton = t.skeleton) : Reachable t'

theorem Reachable.indexed {t : Table} (h : t.Reachable) : t.Indexed := by
  induction h with
  | empty capacity => exact indexed_empty capacity
  | declare _ table o i ih => exact (declaring_declare _ table o i).indexed ih
  | fill _ hsame ih => exact ih.congr hsame

/-- **A declaration adds all that is new on its way, or nothing.** It needs no more levels than
there are declarations. It fails exactly if the way from the entity outwards, up to the first key
that is known, meets an empty key, a key for the second time, or a container that is no type, and
the first of these is reported. Then the symbols and the registry are as they were, only strings
were interned, and every key leads where it led. Otherwise the table has one more symbol for each
new key on the way, and its registry is in step with its symbols again. -/
theorem declare_all_or_nothing {t : Table} (ht : t.Reachable) (table : Nat) {o : Outline} {i : Nat}
    {d : Declaration} (hd : o.get? i = some d) :
    (∀ fuel, o.items.size < fuel → declareFrom table o fuel i [] t = t.declare table o i) ∧
    ((∃ e, (t.declare table o i).1 = .error e) ↔
      ∃ k x, o.way t.keys i k = some x ∧ (x.key = "" ∨
        (∃ j < k, ∃ y, o.way t.keys i j = some y ∧ y.key = x.key) ∨ (0 < k ∧ x.kind ≠ .type))) ∧
    (∀ e t', t.declare table o i = (.error e, t') →
      (∃ k, Fault o t.keys [] i k e ∧ ∀ j < k, ∀ e', ¬ Fault o t.keys [] i j e') ∧
      t'.symbols = t.symbols ∧ t'.registry = t.registry ∧ t' = { t with strings := t'.strings } ∧
      t.strings.strings.toList <+: t'.strings.strings.toList ∧
      ∀ key, t'.find? key = t.find? key) ∧
    (∀ r t', t.declare table o i = (.ok r, t') →
      r.table = table ∧ t'.find? d.key = some r.id ∧
      t' = { t with symbols := t'.symbols, strings := t'.strings, registry := t'.registry } ∧
      t'.Indexed ∧ ∃ news, Added table o i t t' news) := by
  have hindexed := ht.indexed
  have hstep := declaring_declare t table o i
  have hsome : o.get? i ≠ none := by simp [hd]
  refine ⟨fun fuel hfuel => declareFrom_eq_declare table o hfuel i t, ?_, ?_, ?_⟩
  · -- a fault on the way rules out success, so the declaration fails exactly if there is one
    rw [← exists_fault_iff]
    constructor
    · rintro ⟨e, he⟩
      obtain ⟨k, hfault, -⟩ := hstep.fault hsome hindexed he
      exact ⟨k, e, hfault⟩
    · rintro ⟨k, e, hfault⟩
      cases hres : (t.declare table o i).1 with
      | error e' => exact ⟨e', rfl⟩
      | ok r => exact absurd hfault (hstep.not_fault hindexed hres k e)
  · intro e t' heq
    rw [heq] at hstep
    obtain ⟨hsymbols, hregistry⟩ := hstep.unchanged_of_error rfl
    exact ⟨hstep.fault hsome hindexed rfl, hsymbols, hregistry, hstep.eq_of_error rfl,
      hstep.strings_prefix, hstep.find?_of_error hindexed rfl⟩
  · intro r t' heq
    rw [heq] at hstep
    obtain ⟨htable, d', hd', hfind⟩ := hstep.answer rfl
    obtain rfl := Option.some.inj (hd.symm.trans hd')
    exact ⟨htable, hfind, hstep.rest_eq, hstep.indexed hindexed, hstep.exists_added hindexed rfl⟩

/-- With the outer type known, a method is declared with the type around it, a type that lies in
itself is refused, and so is a field in a method. -/
theorem declare_all_or_nothing_nested :
    let t := afterCalls 0 [(nestedOutline, 0)] (.empty 0)
    t.keys = ["A"] ∧
    (∃ r t' news, t.declare 0 nestedOutline 2 = (.ok r, t') ∧ t'.keys = ["A", "A.B", "A.B.m"] ∧
      t'.registry = [(2, 3), (3, 2), (1, 1)] ∧ Added 0 nestedOutline 2 t t' news) ∧
    (∃ t', t.declare 0 nestedOutline 3 = (.error (.containsItself "C"), t') ∧
      t'.registry = [(1, 1)] ∧ t' = { t with strings := t'.strings } ∧
      (t'.strings.find? "C").isSome ∧ t'.find? "C" = none) ∧
    ∃ t', t.declare 0 nestedOutline 4 = (.error (.ownerNotType "A.B.m" "A.B.m.x"), t') ∧
      t' = { t with strings := t'.strings } ∧ (t'.strings.find? "A.B.m.x").isSome := by
  intro t
  have ht : t.Reachable := .declare (.empty 0) 0 nestedOutline 0
  have hinner : t.declare 0 nestedOutline 2 = (.ok ⟨0, 3⟩, (t.declare 0 nestedOutline 2).2) :=
    Prod.ext (by decide) rfl
  have hcircle : t.declare 0 nestedOutline 3
      = (.error (.containsItself "C"), (t.declare 0 nestedOutline 3).2) := Prod.ext (by decide) rfl
  have hfield : t.declare 0 nestedOutline 4
      = (.error (.ownerNotType "A.B.m" "A.B.m.x"), (t.declare 0 nestedOutline 4).2) :=
    Prod.ext (by decide) rfl
  obtain ⟨-, -, -, hadded⟩ := declare_all_or_nothing ht 0 (o := nestedOutline) (i := 2) rfl
  obtain ⟨-, -, hself, -⟩ := declare_all_or_nothing ht 0 (o := nestedOutline) (i := 3) rfl
  obtain ⟨-, -, hkind, -⟩ := declare_all_or_nothing ht 0 (o := nestedOutline) (i := 4) rfl
  obtain ⟨-, -, -, -, news, hnews⟩ := hadded _ _ hinner
  obtain ⟨-, -, hregistry, hcircular, -, hfind⟩ := hself _ _ hcircle
  obtain ⟨-, -, -, hrefused, -⟩ := hkind _ _ hfield
  refine ⟨by decide, ⟨_, _, news, hinner, by decide, by decide, hnews⟩,
    ⟨_, hcircle, ?_, hcircular, by decide, ?_⟩, _, hfield, hrefused, by decide⟩
  · rw [hregistry]
    decide
  · rw [hfind]
    decide

end Table

end SymbolAtlas
