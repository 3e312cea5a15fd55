import SymbolAtlas.Proofs.RunFindings

set_option autoImplicit false

/-! # The hierarchy that a run builds

A symbol names the member that it overrides, and it lists the symbols that implement it. A type is
listed by its base and by its interfaces, and a member by what it overrides, so the entries in a
list were made by other entries, in whatever order these were bound. `Hierarchy` says what the links
are, by the entries of the manifest alone. `mem_script_link` reads off a script which links its
entry makes, and `run_hierarchy` says that a run that succeeds leaves these links and no others,
with and without workers. -/

namespace SymbolAtlas

namespace Manifest

/-- The entry names another one of its kind that may be overridden. -/
def Program.Overrides (p : Program) (e b : Entry) : Prop :=
  ¬ e.External ∧ e.kind ≠ .type ∧ e.draft.overrides = b.key ∧ b.key ≠ e.key ∧ b.kind = e.kind ∧
    p.Overridable b

def Entry.Extends (e b : Entry) : Prop :=
  ¬ e.External ∧ e.kind = .type ∧ e.draft.base = b.key

/-- The entry is a type that names the other one, an interface, among those it implements. -/
def Entry.Implements (e b : Entry) : Prop :=
  ¬ e.External ∧ e.kind = .type ∧ b.key ∈ e.draft.implements ∧
    b.draft.flags.meets .interface = true

instance (p : Program) (e b : Entry) : Decidable (p.Overrides e b) :=
  inferInstanceAs (Decidable (_ ∧ _ ∧ _ ∧ _ ∧ _ ∧ _))

instance (e b : Entry) : Decidable (e.Extends b) :=
  inferInstanceAs (Decidable (_ ∧ _ ∧ _))

instance (e b : Entry) : Decidable (e.Implements b) :=
  inferInstanceAs (Decidable (_ ∧ _ ∧ _ ∧ _))

end Manifest

namespace Binding

open Manifest

/-- **The links between the symbols of a program.** Every symbol is that of an entry and every entry
has one. A symbol overrides what its entry does, and it is implemented by the symbols that override
it and by those whose entries extend or implement its own, itself apart. -/
structure Hierarchy (p : Program) (a : Atlas) : Prop where
  symbol_of : ∀ e ∈ p.entries.toList, ∃ r s, a.find? table e.key = some r ∧ a.symbol? r = some s
  entry_of : ∀ r s, a.symbol? r = some s → ∃ e ∈ p.entries.toList, a.find? table e.key = some r
  overridden : ∀ e ∈ p.entries.toList, ∀ r s, a.find? table e.key = some r → a.symbol? r = some s →
    ∀ q, s.overridden = some q ↔
      ∃ b ∈ p.entries.toList, a.find? table b.key = some q ∧ p.Overrides e b
  implementations : ∀ e ∈ p.entries.toList, ∀ r s, a.find? table e.key = some r →
    a.symbol? r = some s → ∀ q, q ∈ s.implementations ↔
      q ≠ r ∧ ∃ x ∈ p.entries.toList, a.find? table x.key = some q ∧
        ((a.symbol? q).bind Symbol.overridden = some r ∨ x.Extends e ∨ x.Implements e)
  nodup : ∀ r s, a.symbol? r = some s → s.implementations.Nodup

/-! ## What scripts link -/

def Effect.IsLink : Effect → Prop
  | .overridden _ _ | .implementation _ _ => True
  | .report _ | .attributes _ _ | .dependencies _ _ | .template _ _ | .bound _ => False

section Scripts

variable {p : Program} {a : Atlas} {e : Entry} {r : SymbolRef} {x : Effect}

/-- An entry with a body makes links, and it makes them in one part of its script. -/
theorem link_mem_script_iff (hd : Declared p a) (hm : (e, r) ∈ roster p a) (hx : x.IsLink) :
    x ∈ script a e r ↔ ¬ e.External ∧ x ∈ hierarchyScript a e r := by
  -- the other parts of a script report, or write what is no link
  have hreports : ∀ ds : List Diagnostic, x ∉ ds.map Effect.report := by
    intro ds hmem
    obtain ⟨d, -, rfl⟩ := List.mem_map.mp hmem
    exact hx
  have hattach : x ∉ attachScript e r := by
    unfold attachScript
    rw [List.mem_append, List.mem_singleton]
    rintro (hmem | rfl)
    · exact hreports _ hmem
    · exact hx
  unfold script
  rw [List.mem_append, or_iff_right hattach]
  by_cases hext : e.External
  · rw [if_pos ((any_bound_iff hd hm).mpr hext)]
    exact iff_of_false List.not_mem_nil fun h => h.1 hext
  · rw [if_neg (mt (any_bound_iff hd hm).mp hext), List.mem_append, or_iff_right (hreports _),
      List.mem_append, List.mem_append, List.mem_singleton, List.mem_singleton]
    constructor
    · rintro (rfl | hmem | rfl)
      · exact absurd hx id
      · exact ⟨hext, hmem⟩
      · exact absurd hx id
    · exact fun h => Or.inr (Or.inl h.2)

/-- The symbol of a key that is written down is the symbol of an entry with that key. -/
theorem find?_eq_some_iff_entry (hl : Layout p a) {key : String} {q : SymbolRef} :
    a.find? table key = some q ↔
      ∃ b ∈ p.entries.toList, a.find? table b.key = some q ∧ key = b.key := by
  constructor
  · intro hq
    obtain ⟨b, hb, rfl⟩ := hl.exists_entry hq
    exact ⟨b, hb, hq, rfl⟩
  · rintro ⟨b, -, hq, rfl⟩
    exact hq

theorem mem_implementScript (hl : Layout p a) (hx : x.IsLink) (key : String) :
    x ∈ implementScript a e r key ↔ ∃ b ∈ p.entries.toList, ∃ q, a.find? table b.key = some q ∧
      key = b.key ∧ b.draft.flags.meets .interface = true ∧ x = .implementation q r := by
  unfold implementScript
  -- an unknown key is not linked, and neither is an entry that is no interface
  cases hq : a.find? table key with
  | none =>
      refine iff_of_false List.not_mem_nil ?_
      rintro ⟨b, -, q, hb, rfl, -⟩
      rw [hq] at hb
      cases hb
  | some q =>
      dsimp only
      constructor
      · intro hmem
        obtain ⟨b, hb, hbq, rfl⟩ := (find?_eq_some_iff_entry hl).mp hq
        rw [any_isInterface_iff hl (mem_roster.mpr ⟨hb, hbq⟩)] at hmem
        by_cases hi : b.draft.flags.meets .interface = true
        · rw [if_pos hi, List.mem_singleton] at hmem
          exact ⟨b, hb, q, hbq, rfl, hi, hmem⟩
        · rw [if_neg hi, List.mem_singleton] at hmem
          rw [hmem] at hx
          exact absurd hx id
      · rintro ⟨b, hb, q', hbq, rfl, hi, rfl⟩
        obtain rfl := Option.some.inj (hq.symm.trans hbq)
        rw [any_isInterface_iff hl (mem_roster.mpr ⟨hb, hbq⟩), if_pos hi]
        exact List.mem_singleton_self _

/-- **A type is listed by its base and by the interfaces among what it implements.** -/
theorem mem_hierarchyScript_type (hl : Layout p a) (hm : (e, r) ∈ roster p a)
    (hkind : e.kind = .type) (hx : x.IsLink) :
    x ∈ hierarchyScript a e r ↔ ∃ b ∈ p.entries.toList, ∃ q, a.find? table b.key = some q ∧
      (e.draft.base = b.key ∨
        b.key ∈ e.draft.implements ∧ b.draft.flags.meets .interface = true) ∧
      x = .implementation q r := by
  obtain ⟨s, hs, -⟩ := hl.indexed.symbol?_of_find? (mem_roster.mp hm).2
  have htype : (a.symbol? r).any (·.kind = .type) = true := by
    rw [hs, Option.any_some, kind_symbol hl hm hs]
    exact decide_eq_true hkind
  unfold hierarchyScript
  rw [if_pos htype, List.mem_append, List.mem_map, List.mem_flatMap]
  constructor
  · rintro (⟨q, hq, rfl⟩ | ⟨key, hkey, hmem⟩)
    · rw [Option.mem_toList] at hq
      obtain ⟨b, hb, hbq, heq⟩ := (find?_eq_some_iff_entry hl).mp hq
      exact ⟨b, hb, q, hbq, Or.inl heq, rfl⟩
    · obtain ⟨b, hb, q, hbq, rfl, hi, rfl⟩ := (mem_implementScript hl hx key).mp hmem
      exact ⟨b, hb, q, hbq, Or.inr ⟨hkey, hi⟩, rfl⟩
  · rintro ⟨b, hb, q, hbq, hbase | ⟨hkey, hi⟩, rfl⟩
    · exact Or.inl ⟨q, Option.mem_toList.mpr (hbase ▸ hbq), rfl⟩
    · exact Or.inr ⟨b.key, hkey,
        (mem_implementScript hl hx b.key).mpr ⟨b, hb, q, hbq, rfl, hi, rfl⟩⟩

theorem overrideRefusal?_eq_none_iff (hp : p.WellFormed) (hl : Layout p a)
    (hm : (e, r) ∈ roster p a) :
    overrideRefusal? a e r (a.find? table e.draft.overrides) = none ↔ ¬ p.OverridesBadly e := by
  have heq := overrideRefusal?_eq hp hl hm
  by_cases hbad : p.OverridesBadly e
  · rw [if_pos hbad] at heq
    obtain ⟨reason, hreason, -⟩ := Option.map_eq_some_iff.mp heq
    simp [hreason, hbad]
  · rw [if_neg hbad, Option.map_eq_none_iff] at heq
    simp [heq, hbad]

/-- **A member that may override another one names it and is listed by it.** -/
theorem mem_hierarchyScript_member (hp : p.WellFormed) (hl : Layout p a)
    (hm : (e, r) ∈ roster p a) (hkind : e.kind ≠ .type) (hx : x.IsLink) :
    x ∈ hierarchyScript a e r ↔ ∃ b ∈ p.entries.toList, ∃ q, a.find? table b.key = some q ∧
      (e.draft.overrides = b.key ∧ b.key ≠ e.key ∧ b.kind = e.kind ∧ p.Overridable b) ∧
      (x = .overridden r q ∨ x = .implementation q r) := by
  obtain ⟨s, hs, -⟩ := hl.indexed.symbol?_of_find? (mem_roster.mp hm).2
  have hmember : ¬ (a.symbol? r).any (·.kind = .type) = true := by
    rw [hs, Option.any_some, kind_symbol hl hm hs]
    exact fun h => hkind (of_decide_eq_true h)
  -- what is wrong with the override of an entry that is there
  have hbad : ∀ b ∈ p.entries.toList, e.draft.overrides = b.key → (¬ p.OverridesBadly e ↔
      b.key ≠ e.key ∧ b.kind = e.kind ∧ p.Overridable b) := by
    intro b hb hkey
    rw [overridesBadly_iff hp hb hkey.symm, not_or, not_or, not_not, not_not]
  unfold hierarchyScript
  rw [if_neg hmember]
  by_cases hempty : e.draft.overrides = ""
  · rw [if_pos hempty]
    refine iff_of_false List.not_mem_nil ?_
    rintro ⟨b, hb, q, -, ⟨hkey, -⟩, -⟩
    exact hp.distinct.key_ne b hb (hkey.symm.trans hempty)
  · rw [if_neg hempty]
    cases hrefused : overrideRefusal? a e r (a.find? table e.draft.overrides) with
    | some reason =>
        have hwrong : p.OverridesBadly e := by
          by_contra hgood
          rw [(overrideRefusal?_eq_none_iff hp hl hm).mpr hgood] at hrefused
          cases hrefused
        refine iff_of_false ?_ ?_
        · rw [List.mem_singleton]
          rintro rfl
          exact hx
        · rintro ⟨b, hb, q, -, ⟨hkey, hgood⟩, -⟩
          exact (hbad b hb hkey).mpr hgood hwrong
    | none =>
        have hgood := (overrideRefusal?_eq_none_iff hp hl hm).mp hrefused
        dsimp only
        rw [List.mem_flatMap]
        constructor
        · rintro ⟨q, hq, hmem⟩
          rw [Option.mem_toList] at hq
          obtain ⟨b, hb, hbq, hkey⟩ := (find?_eq_some_iff_entry hl).mp hq
          exact ⟨b, hb, q, hbq, ⟨hkey, (hbad b hb hkey).mp hgood⟩, by simpa using hmem⟩
        · rintro ⟨b, -, q, hbq, ⟨hkey, -⟩, hmem⟩
          exact ⟨q, Option.mem_toList.mpr (hkey ▸ hbq), by simpa using hmem⟩

/-- **The links that an entry makes**: with what it overrides, both ways, and with what it extends
or implements, one way. -/
theorem mem_script_link (hp : p.WellFormed) (hd : Declared p a) (hm : (e, r) ∈ roster p a)
    (hx : x.IsLink) :
    x ∈ script a e r ↔ ∃ b ∈ p.entries.toList, ∃ q, a.find? table b.key = some q ∧
      (p.Overrides e b ∧ (x = .overridden r q ∨ x = .implementation q r) ∨
        (e.Extends b ∨ e.Implements b) ∧ x = .implementation q r) := by
  rw [link_mem_script_iff hd hm hx]
  -- types extend and implement, members override
  by_cases hkind : e.kind = .type
  · rw [mem_hierarchyScript_type hd.layout hm hkind hx]
    constructor
    · rintro ⟨hext, b, hb, q, hq, hbase | ⟨hkey, hi⟩, rfl⟩
      · exact ⟨b, hb, q, hq, Or.inr ⟨Or.inl ⟨hext, hkind, hbase⟩, rfl⟩⟩
      · exact ⟨b, hb, q, hq, Or.inr ⟨Or.inr ⟨hext, hkind, hkey, hi⟩, rfl⟩⟩
    · rintro ⟨b, hb, q, hq, ⟨⟨-, hnot, -⟩, -⟩ | ⟨⟨hext, -, hbase⟩ | ⟨hext, -, hkey, hi⟩, rfl⟩⟩
      · exact absurd hkind hnot
      · exact ⟨hext, b, hb, q, hq, Or.inl hbase, rfl⟩
      · exact ⟨hext, b, hb, q, hq, Or.inr ⟨hkey, hi⟩, rfl⟩
  · rw [mem_hierarchyScript_member hp hd.layout hm hkind hx]
    constructor
    · rintro ⟨hext, b, hb, q, hq, hgood, hlink⟩
      exact ⟨b, hb, q, hq, Or.inl ⟨⟨hext, hkind, hgood⟩, hlink⟩⟩
    · rintro ⟨b, hb, q, hq, ⟨⟨hext, -, hgood⟩, hlink⟩ | ⟨⟨-, htype, -⟩ | ⟨-, htype, -⟩, -⟩⟩
      · exact ⟨hext, b, hb, q, hq, hgood, hlink⟩
      · exact absurd htype hkind
      · exact absurd htype hkind

end Scripts

/-! ## What a plan links -/

section Plan

variable {p : Program} (hp : p.WellFormed) {a : Atlas} (hd : Declared p a) {e : Entry}
  {r : SymbolRef} (hm : (e, r) ∈ roster p a)

include hp hd hm

theorem overridden_mem_plan {q : SymbolRef} :
    .overridden r q ∈ plan p a ↔
      ∃ b ∈ p.entries.toList, a.find? table b.key = some q ∧ p.Overrides e b := by
  have hscript : .overridden r q ∈ plan p a ↔ .overridden r q ∈ script a e r :=
    ⟨fun h => mem_script_of_mem_plan hp hd.layout hm h rfl (by decide), mem_plan_of_mem_script hm⟩
  rw [hscript, mem_script_link (x := .overridden r q) hp hd hm trivial]
  constructor
  · rintro ⟨b, hb, q', hq, ⟨hover, heq | heq⟩ | ⟨-, heq⟩⟩
    · obtain ⟨-, rfl⟩ := Effect.overridden.inj heq
      exact ⟨b, hb, hq, hover⟩
    · cases heq
    · cases heq
  · rintro ⟨b, hb, hq, hover⟩
    exact ⟨b, hb, q, hq, Or.inl ⟨hover, Or.inl rfl⟩⟩

theorem implementation_mem_plan {q : SymbolRef} :
    .implementation r q ∈ plan p a ↔ ∃ x, (x, q) ∈ roster p a ∧
      (p.Overrides x e ∨ x.Extends e ∨ x.Implements e) := by
  constructor
  · intro hmem
    rcases List.mem_append.mp hmem with hmem | hmem
    · -- linking templates lists nothing
      obtain ⟨m, -, hmem⟩ := List.mem_flatMap.mp hmem
      unfold templateScript at hmem
      split at hmem
      · cases hmem
      · split at hmem <;> cases List.mem_singleton.mp hmem
    · obtain ⟨⟨x, q'⟩, hm', hmem⟩ := List.mem_flatMap.mp hmem
      obtain ⟨b, hb, r', hr', hlink⟩ :=
        (mem_script_link (x := .implementation r q) hp hd hm' trivial).mp hmem
      have hsame : ∀ {r' q'}, Effect.implementation r q = .implementation r' q' → r = r' ∧ q = q' :=
        fun h => Effect.implementation.inj h
      -- the entry that lists is told by its symbol
      have hentry : r = r' → b = e := by
        rintro rfl
        exact entry_eq_of_key hp hb (mem_roster.mp hm).1
          (hd.layout.key_inj hr' (mem_roster.mp hm).2)
      rcases hlink with ⟨hover, heq | heq⟩ | ⟨hother, heq⟩
      · cases heq
      · obtain ⟨hr, rfl⟩ := hsame heq
        rw [hentry hr] at hover
        exact ⟨x, hm', Or.inl hover⟩
      · obtain ⟨hr, rfl⟩ := hsame heq
        rw [hentry hr] at hother
        exact ⟨x, hm', Or.inr hother⟩
  · rintro ⟨x, hm', hlink⟩
    obtain ⟨he, hr⟩ := mem_roster.mp hm
    refine mem_plan_of_mem_script hm'
      ((mem_script_link (x := .implementation r q) hp hd hm' trivial).mpr ⟨e, he, r, hr, ?_⟩)
    rcases hlink with hover | hother
    · exact Or.inl ⟨hover, Or.inr rfl⟩
    · exact Or.inr ⟨hother, rfl⟩

end Plan

/-- Closing a symbol leaves its links as the plan has written them. -/
theorem Closing.exists_written {p : Program} {a b c : Atlas} (hb : BoundFrom p a b)
    {done : List SymbolRef} (hc : Closing b done c) {r : SymbolRef} {s : Symbol}
    (hs : c.symbol? r = some s) :
    ∃ s₀, Written (plan p a) r s₀ ∧ s₀.overridden = s.overridden ∧
      s₀.implementations = s.implementations := by
  obtain ⟨s₀, hs₀, hbare⟩ := hc.same.symm.symbol hs
  have hover : s₀.bare.overridden = s.bare.overridden := by rw [hbare]
  have himpl : s₀.bare.implementations = s.bare.implementations := by rw [hbare]
  exact ⟨s₀, hb.written r s₀ hs₀, hover, himpl⟩

/-- **A program that was bound and closed has the links of its entries.** -/
theorem Closing.hierarchy {p : Program} (hp : p.WellFormed) {a b c : Atlas} (hd : Declared p a)
    (hb : BoundFrom p a b) {done : List SymbolRef} (hc : Closing b done c) : Hierarchy p c := by
  have hsk : c.skeleton = a.skeleton := hc.skeleton.trans hb.skeleton
  have hl : Layout p c := hd.layout.congr hsk
  have hfind : ∀ key, c.find? table key = a.find? table key := Atlas.find?_eq_of_skeleton hsk table
  have hoverridden : ∀ e ∈ p.entries.toList, ∀ r s, c.find? table e.key = some r →
      c.symbol? r = some s → ∀ q, s.overridden = some q ↔
        ∃ x ∈ p.entries.toList, c.find? table x.key = some q ∧ p.Overrides e x := by
    intro e he r s hr hs q
    obtain ⟨s₀, hw, hover, -⟩ := hc.exists_written hb hs
    rw [hfind] at hr
    rw [← hover, hw.overridden, overridden_mem_plan hp hd (mem_roster.mpr ⟨he, hr⟩)]
    simp only [hfind]
  refine ⟨?_, fun r s hs => hl.entry_of hs, hoverridden, ?_, ?_⟩
  · intro e he
    obtain ⟨r, s, hr, hs, -⟩ := hl.symbol_of e he
    exact ⟨r, s, hr, hs⟩
  · intro e he r s hr hs q
    obtain ⟨s₀, hw, -, himpl⟩ := hc.exists_written hb hs
    have hm : (e, r) ∈ roster p a := mem_roster.mpr ⟨he, (hfind _).symm.trans hr⟩
    rw [← himpl, hw.implementations, implementation_mem_plan hp hd hm]
    -- overriding an entry shows in the symbol that overrides
    have hover : ∀ x ∈ p.entries.toList, c.find? table x.key = some q →
        ((c.symbol? q).bind Symbol.overridden = some r ↔ p.Overrides x e) := by
      intro x hx hq
      obtain ⟨t, ht, -⟩ := hl.indexed.symbol?_of_find? hq
      rw [ht, Option.bind_some, hoverridden x hx q t hq ht]
      constructor
      · rintro ⟨b, hb, hbr, h⟩
        rwa [entry_eq_of_key hp hb he (hl.key_inj hbr hr)] at h
      · exact fun h => ⟨e, he, hr, h⟩
    refine and_congr_right fun _ => ?_
    constructor
    · rintro ⟨x, hm', hlink⟩
      obtain ⟨hx, hq⟩ := mem_roster.mp hm'
      rw [← hfind] at hq
      exact ⟨x, hx, hq, hlink.imp_left (hover x hx hq).mpr⟩
    · rintro ⟨x, hx, hq, hlink⟩
      exact ⟨x, mem_roster.mpr ⟨hx, (hfind _).symm.trans hq⟩, hlink.imp_left (hover x hx hq).mp⟩
  · intro r s hs
    obtain ⟨s₀, hw, -, himpl⟩ := hc.exists_written hb hs
    rw [← himpl]
    exact hw.nodup_implementations

/-! ## Whole runs -/

/-- **Workers that succeed have carried out the plan and closed every symbol**, under every
schedule. -/
theorem exists_closed_of_runUnder {p : Program} (hp : p.WellFormed) {o : Options} {trace : Trace}
    {binds closes : List Nat} {f : Run} (h : runUnder p o trace binds closes = some f)
    (hok : f.error = none) : ∃ a b, Declared p a ∧ BoundFrom p a b ∧
      Closing b ((roster p b).map Prod.snd) f.atlas := by
  obtain ⟨m, hm, hf⟩ := Option.bind_eq_some_iff.mp h
  have herror := Work.error_eq_none_of_stageUnder hm (Work.error_eq_none_of_stageUnder hf hok)
  have hself := template_ne_key_of_declareAll hp herror
  obtain ⟨a, refs, hd, hdeclare⟩ := exists_declared hp o.filterCache
  have hat := stage_declareAll hp hself hd hdeclare (start_at p o trace)
  cases hcanceled : o.canceled with
  | false =>
      rw [hcanceled] at hat
      obtain ⟨done, rfl, -, hb⟩ := bound_of_stageUnder hp hself hd hat hm
      set d := stage "declare" declareAll (start p o trace)
      obtain ⟨c, rfl, hc⟩ :=
        stageUnder_closing hp (d := d.enact done) hat.program hat.canceled hat.error
        (hd.layout.congr hb.skeleton) (hb.closing hp hd) hf
      exact ⟨a, _, hd, hb, hc⟩
  | true =>
      -- a run that is canceled succeeds only if there is nothing to bind
      rw [hcanceled] at hat
      obtain ⟨hatlas, -, hcanceled'⟩ := Work.stageUnder_canceled hm hat.canceled
      obtain ⟨hatlas', -, -⟩ := Work.stageUnder_canceled hf hcanceled'
      have hroster := Work.roster_eq_nil_of_canceled hm hat.canceled herror
        (Work.error_eq_none_of_stageUnder hf hok)
      rw [hat.program, hat.atlas, roster_eq_of_skeleton (skeleton_changeAll _ a)] at hroster
      obtain ⟨hlink, -, hb, hc⟩ := closed_of_roster_eq_nil hp hd hroster
      have hsame : f.atlas = a := by
        rw [hatlas', hatlas, hat.atlas, hlink]
        rfl
      refine ⟨a, a, hd, hb, ?_⟩
      rw [hsame]
      exact hc

/-- **The hierarchy that a run builds.** If a program that was read is run with success, each symbol
overrides what its entry names, where that is another entry of its kind that may be overridden. It
is implemented by the symbols that override it, by the types whose base it is and, if it is an
interface, by the types that name it as one, each listed once. External entries make no links.
Workers that succeed leave the same links under every schedule. -/
theorem run_hierarchy {fs : FileSet} {id : UInt32} {p : Program} {reports : List Diagnostic}
    (h : decodeFile fs id = (.ok p, reports)) (o : Options) (trace : Trace) :
    ((run p o trace).error = none → Hierarchy p (run p o trace).atlas) ∧
    ∀ binds closes f, runUnder p o trace binds closes = some f → f.error = none →
      Hierarchy p f.atlas := by
  have hp := wellFormed_of_decodeFile h
  constructor
  · intro hok
    obtain ⟨a, b, c, hd, hb, hc, hat⟩ := exists_closed_of_success hp hok
    rw [hat.atlas]
    exact hc.hierarchy hp hd hb
  · intro binds closes f hf hok
    obtain ⟨a, b, hd, hb, hc⟩ := exists_closed_of_runUnder hp hf hok
    exact hc.hierarchy hp hd hb

/-- An interface with a method, a type that has it for its base and implements it too, and a method
of that type that overrides the one of the interface. -/
def shapesManifest : String :=
  "[[symbol]]\nkey = \"I\"\nkind = \"type\"\ninterface = true\n" ++
  "[[symbol]]\nkey = \"C\"\nkind = \"type\"\nbase = \"I\"\nimplements = [\"I\"]\n" ++
  "[[symbol]]\nkey = \"I.m\"\nkind = \"method\"\ncontaining = \"I\"\n" ++
  "[[symbol]]\nkey = \"C.m\"\nkind = \"method\"\ncontaining = \"C\"\noverrides = \"I.m\"\n"

def shapesFiles : FileSet :=
  (FileSet.addVirtual {} "shapes.toml" (Text.Utf8.encode shapesManifest)).2

/-- Some entry overrides another one, and some entry extends one that it also implements. -/
def Linked (p : Program) : Prop :=
  (∃ e ∈ p.entries.toList, ∃ b ∈ p.entries.toList, p.Overrides e b) ∧
    ∃ e ∈ p.entries.toList, ∃ b ∈ p.entries.toList, e.Extends b ∧ e.Implements b

instance (p : Program) : Decidable (Linked p) :=
  inferInstanceAs (Decidable ((∃ e ∈ p.entries.toList, ∃ b ∈ p.entries.toList, _) ∧
    ∃ e ∈ p.entries.toList, ∃ b ∈ p.entries.toList, _))

theorem decodeFile_shapes : ∃ p reports, decodeFile shapesFiles 1 = (.ok p, reports) ∧
    (∀ e ∈ p.entries.toList, e.draft.template ≠ e.key) ∧ Linked p := by
  have hdecode : (decodeFile shapesFiles 1).1.toOption.map (fun p =>
      decide ((∀ e ∈ p.entries.toList, e.draft.template ≠ e.key) ∧ Linked p)) = some true := by
    decide +kernel
  rcases h : decodeFile shapesFiles 1 with ⟨_ | p, reports⟩
  · rw [h] at hdecode
    cases hdecode
  · rw [h] at hdecode
    exact ⟨p, reports, rfl, of_decide_eq_true (Option.some.inj hdecode)⟩

theorem run_hierarchy_shapes : ∃ p reports, decodeFile shapesFiles 1 = (.ok p, reports) ∧ Linked p ∧
    (run p {} ⟨.nop, 0, 0, {}⟩).error = none ∧ Hierarchy p (run p {} ⟨.nop, 0, 0, {}⟩).atlas ∧
    ∃ binds closes f, runUnder p {} ⟨.nop, 0, 0, {}⟩ binds closes = some f ∧ f.error = none ∧
      Hierarchy p f.atlas := by
  obtain ⟨p, reports, h, hself, hlinked⟩ := decodeFile_shapes
  have hp := wellFormed_of_decodeFile h
  obtain ⟨a, refs, hd, hdeclare⟩ := exists_declared hp ({} : Options).filterCache
  obtain ⟨b, c, -, -, hat⟩ := run_at hp hself (o := {}) rfl ⟨.nop, 0, 0, {}⟩ hd hdeclare
  have hdeclared := stage_declareAll hp hself hd hdeclare (start_at p {} ⟨.nop, 0, 0, {}⟩)
  obtain ⟨binds, closes, m, f, hm, hf⟩ := exists_stages hp hself hd hdeclared
  have hunder : runUnder p {} ⟨.nop, 0, 0, {}⟩ binds closes = some f :=
    Option.bind_eq_some_iff.mpr ⟨m, hm, hf⟩
  have herror := (runUnder_agrees_run h hself (o := {}) (le_refl 0) rfl hunder).1
  obtain ⟨halone, hworkers⟩ := run_hierarchy h {} ⟨.nop, 0, 0, {}⟩
  exact ⟨p, reports, h, hlinked, hat.error, halone hat.error, binds, closes, f, hunder, herror,
    hworkers binds closes f hunder herror⟩

end Binding

end SymbolAtlas
