import SymbolAtlas.Proofs.Admission
import SymbolAtlas.Proofs.SuccessfulRuns

set_option autoImplicit false

/-! # What a run reports

What a run has to say about an entry can be read off the manifest: `Program.findings` lists it
without symbols, one finding for each occurrence of a fault. `run_findings` says that the reports of
a run that succeeds are these and no others. The code looks a key up several times, once to report
it and again to link it, so the proof goes through the scripts of the entries: what a script reports
is what is found in its entry (`reports_templateScript`, `reports_script`). -/

namespace SymbolAtlas

/-! ## Flags -/

namespace Flags

theorem meets_comm (f g : Flags) : f.meets g = g.meets f := by
  unfold meets
  rw [UInt16.and_comm]

theorem meets_union (f g h : Flags) : f.meets (g.union h) = (f.meets g || f.meets h) := by
  have hzero : ∀ a b c : UInt16, a &&& (b ||| c) = 0 ↔ a &&& b = 0 ∧ a &&& c = 0 := by
    intro a b c
    have hdistrib : a &&& (b ||| c) = (a &&& b) ||| (a &&& c) := by
      apply UInt16.eq_of_toBitVec_eq
      simp only [UInt16.toBitVec_and, UInt16.toBitVec_or]
      exact BitVec.and_or_distrib_left
    rw [hdistrib, UInt16.or_eq_zero_iff]
  unfold union meets
  rw [Bool.eq_iff_iff]
  simp only [bne_iff_ne, ne_eq, Bool.or_eq_true, ← not_and_or, not_iff_not]
  exact hzero _ _ _

end Flags

/-- A symbol has the flags of its declaration, apart from the mark of external ones. -/
theorem Symbol.meets_ofDeclaration (d : Declaration) (c : Option SymbolRef) {g : Flags}
    (hg : g.meets .external = false) :
    (Symbol.ofDeclaration d c).flags.meets g = d.flags.meets g := by
  unfold Symbol.ofDeclaration
  dsimp only
  split
  · rw [Flags.meets_comm, Flags.meets_union, hg, Bool.or_false, Flags.meets_comm]
  · rfl

namespace Manifest

/-! ## Faults of a manifest -/

instance (e : Entry) : Decidable e.External :=
  inferInstanceAs (Decidable (_ ∨ _))

instance (p : Program) (key : String) : Decidable (p.Declares key) :=
  inferInstanceAs (Decidable (∃ e ∈ p.entries.toList, e.key = key))

/-- The keys in the fields that are read for an entry of its kind. -/
def Entry.keyFields (e : Entry) : List String :=
  let d := e.draft
  match e.kind with
  | .type => d.base :: (d.implements ++ d.references)
  | .method => d.returns :: (d.params ++ d.references)
  | .field | .property | .localVariable | .parameter => d.type :: d.references
  | .invalid | .external => []

/-- A key that is given but names no entry. -/
def Program.Undeclared (p : Program) (key : String) : Prop :=
  key ≠ "" ∧ ¬ p.Declares key

def Program.NoInterface (p : Program) (key : String) : Prop :=
  ∃ t ∈ p.entries.toList, t.key = key ∧ t.draft.flags.meets .interface = false

def Program.owner? (p : Program) (e : Entry) : Option Entry :=
  e.owner.bind fun i => p.entries[i]?

/-- The entry is virtual, abstract or declared in an interface. -/
def Program.Overridable (p : Program) (e : Entry) : Prop :=
  e.draft.flags.meets .virtual = true ∨ e.draft.flags.meets .abstract = true ∨
    (p.owner? e).any (·.draft.flags.meets .interface) = true

/-- What an entry overrides is not declared, is itself, is of another kind, or may not be
overridden. -/
def Program.OverridesBadly (p : Program) (e : Entry) : Prop :=
  ¬ p.Declares e.draft.overrides ∨ e.draft.overrides = e.key ∨
    ∃ b ∈ p.entries.toList, b.key = e.draft.overrides ∧ (b.kind ≠ e.kind ∨ ¬ p.Overridable b)

/-- An order that is no number of 64 bits, or a callback without a target. -/
def Annotation.Malformed (a : Annotation) : Prop :=
  (a.name = "execution_order" ∧ (Text.Numeral.decimal (a.args.headD "0")).isOk = false) ∨
    (a.name = "field_callback" ∧ a.args.headD "" = "")

instance (p : Program) (key : String) : Decidable (p.Undeclared key) :=
  inferInstanceAs (Decidable (_ ∧ _))

instance (p : Program) (key : String) : Decidable (p.NoInterface key) :=
  inferInstanceAs
    (Decidable (∃ t ∈ p.entries.toList, t.key = key ∧ t.draft.flags.meets .interface = false))

instance (p : Program) (e : Entry) : Decidable (p.Overridable e) :=
  inferInstanceAs (Decidable (_ ∨ _ ∨ _))

instance (p : Program) (e : Entry) : Decidable (p.OverridesBadly e) :=
  inferInstanceAs (Decidable (_ ∨ _ ∨ ∃ b ∈ p.entries.toList, _ ∧ (_ ∨ _)))

instance (a : Annotation) : Decidable a.Malformed :=
  inferInstanceAs (Decidable ((_ ∧ _) ∨ (_ ∧ _)))

/-! ## Findings -/

namespace Entry

def undeclaredTemplate (e : Entry) : Diagnostic :=
  .error .unresolvedReference e.span e.key
    (Text.quote e.key ++ " is constructed from undeclared symbol " ++ Text.quote e.draft.template)

def undeclaredKey (e : Entry) (key : String) : Diagnostic :=
  .error .unresolvedReference e.span e.key
    (Text.quote e.key ++ " references undeclared symbol " ++ Text.quote key)

def notInterface (e : Entry) (key : String) : Diagnostic :=
  .error .notInterface e.span e.key
    (Text.quote e.key ++ " implements " ++ Text.quote key ++ ", which is not an interface")

/-- The report on a malformed annotation tells what is wrong with its argument. -/
def malformedAnnotation (e : Entry) (a : Annotation) : Diagnostic :=
  let order := a.args.headD "0"
  let reason :=
    if a.name = "field_callback" then "missing target property"
    else "order must be an integer: " ++
      (match Text.Numeral.decimal order with
        | .error refusal => refusal.message "Atoi" order
        | .ok _ => "")
  .warning .manifestParse e.span e.key
    ("attribute " ++ Text.quote a.name ++ " on " ++ Text.quote e.key ++ ": " ++ reason)

end Entry

/-- The report on a bad override tells the first thing that is wrong with it. -/
def Program.badOverride (p : Program) (e : Entry) : Diagnostic :=
  .error .badOverride e.span e.key
    (match p.get? e.draft.overrides with
      | none => Text.quote e.key ++ " overrides unknown member " ++ Text.quote e.draft.overrides
      | some b =>
        if b.key = e.key ∨ b.kind ≠ e.kind then
          e.kind.name ++ " " ++ Text.quote e.key ++ " cannot override " ++ b.kind.name ++ " " ++
            Text.quote e.draft.overrides
        else
          Text.quote e.key ++ " overrides " ++ Text.quote e.draft.overrides ++
            ", which is neither virtual nor abstract")

/-- **Everything that is to be found in an entry.** External entries have a template and
annotations, and what else they name is not looked at. -/
def Program.findings (p : Program) (e : Entry) : List Diagnostic :=
  (if p.Undeclared e.draft.template then [e.undeclaredTemplate] else []) ++
    ((e.draft.annotations.filter fun a => a.Malformed).map e.malformedAnnotation ++
      if e.External then []
      else
        (e.keyFields.filter fun key => p.Undeclared key).map e.undeclaredKey ++
          if e.kind = .type then
            (e.draft.implements.filter fun key => p.NoInterface key).map e.notInterface
          else if e.draft.overrides ≠ "" ∧ p.OverridesBadly e then [p.badOverride e]
          else [])

/-- **Findings point at their entry.** -/
theorem Program.about_findings {p : Program} {e : Entry} {d : Diagnostic} (h : d ∈ p.findings e) :
    d.span = e.span ∧ d.subject = e.key := by
  unfold Program.findings at h
  rcases List.mem_append.mp h with h | h
  · split at h
    · rw [List.mem_singleton.mp h]
      exact ⟨rfl, rfl⟩
    · cases h
  · rcases List.mem_append.mp h with h | h
    · obtain ⟨a, -, rfl⟩ := List.mem_map.mp h
      exact ⟨rfl, rfl⟩
    · split at h
      · cases h
      · rcases List.mem_append.mp h with h | h
        · obtain ⟨key, -, rfl⟩ := List.mem_map.mp h
          exact ⟨rfl, rfl⟩
        · split at h
          · obtain ⟨key, -, rfl⟩ := List.mem_map.mp h
            exact ⟨rfl, rfl⟩
          · split at h
            · rw [List.mem_singleton.mp h]
              exact ⟨rfl, rfl⟩
            · cases h

end Manifest

namespace Binding

open Manifest

/-! ## Annotations -/

/-- An annotation is refused exactly if it is malformed. -/
theorem readAnnotation_eq_ok {a : Annotation} (h : ¬ a.Malformed) :
    ∃ attr, readAnnotation a = .ok attr := by
  unfold readAnnotation
  dsimp only
  split
  · exact ⟨_, rfl⟩
  · exact ⟨_, rfl⟩
  · rename_i hname
    split
    · exact ⟨_, rfl⟩
    · rename_i refusal hdecimal
      exact absurd (Or.inl ⟨hname, by rw [hdecimal]; rfl⟩) h
  · rename_i hname
    rw [if_neg fun harg => h (Or.inr ⟨hname, harg⟩)]
    exact ⟨_, rfl⟩
  · exact ⟨_, rfl⟩
  · exact ⟨_, rfl⟩

theorem readAnnotation_malformed {a : Annotation} (h : a.Malformed) (e : Entry) :
    ∃ reason, readAnnotation a = .error reason ∧
      Diagnostic.warning .manifestParse e.span e.key
        ("attribute " ++ Text.quote a.name ++ " on " ++ Text.quote e.key ++ ": " ++ reason)
        = e.malformedAnnotation a := by
  rcases h with ⟨hname, harg⟩ | ⟨hname, harg⟩
  · cases hdecimal : Text.Numeral.decimal (a.args.headD "0") with
    | ok order =>
        rw [hdecimal] at harg
        cases harg
    | error refusal =>
        refine ⟨"order must be an integer: " ++ refusal.message "Atoi" (a.args.headD "0"), ?_, ?_⟩
        · unfold readAnnotation
          rw [hname]
          simp only [hdecimal]
        · unfold Entry.malformedAnnotation
          simp only [hname, hdecimal]
          rfl
  · refine ⟨"missing target property", ?_, ?_⟩
    · unfold readAnnotation
      rw [hname]
      simp only [harg, if_true]
    · unfold Entry.malformedAnnotation
      simp only [hname, if_true]

/-- The reports on annotations are those on the malformed ones. -/
theorem attributeReports_eq (e : Entry) :
    attributeReports e
      = (e.draft.annotations.filter fun a => a.Malformed).map e.malformedAnnotation := by
  unfold attributeReports
  rw [← List.filterMap_eq_map, List.filterMap_filter]
  apply List.filterMap_congr
  intro a _
  by_cases ha : a.Malformed
  · obtain ⟨reason, hread, hreport⟩ := readAnnotation_malformed ha e
    rw [hread]
    simp [ha, hreport]
  · obtain ⟨attr, hread⟩ := readAnnotation_eq_ok ha
    rw [hread]
    simp [ha]

/-! ## What scripts report -/

/-- What is wrong with overriding an entry that is declared. -/
theorem overridesBadly_iff {p : Program} (hp : p.WellFormed) {e b : Entry}
    (hb : b ∈ p.entries.toList) (hkey : b.key = e.draft.overrides) :
    p.OverridesBadly e ↔ b.key = e.key ∨ b.kind ≠ e.kind ∨ ¬ p.Overridable b := by
  unfold Program.OverridesBadly
  constructor
  · rintro (hnot | hsame | ⟨b', hb', hkey', hwrong⟩)
    · exact absurd ⟨b, hb, hkey⟩ hnot
    · exact Or.inl (hkey.trans hsame)
    · rw [← entry_eq_of_key hp hb' hb (hkey'.trans hkey.symm)]
      exact Or.inr hwrong
  · rintro (hsame | hwrong)
    · exact Or.inr (Or.inl (hkey.symm.trans hsame))
    · exact Or.inr (Or.inr ⟨b, hb, hkey, hwrong⟩)

/-- Two symbols are one exactly if their entries have one key. -/
theorem eq_iff_key_eq {p : Program} {a : Atlas} (hl : Layout p a) {e b : Entry} {r q : SymbolRef}
    (hm : (e, r) ∈ roster p a) (hbm : (b, q) ∈ roster p a) : q = r ↔ b.key = e.key := by
  have hr := (mem_roster.mp hm).2
  have hq := (mem_roster.mp hbm).2
  constructor
  · rintro rfl
    exact hl.key_inj hq hr
  · intro hsame
    rw [hsame] at hq
    exact Option.some.inj (hq.symm.trans hr)

section Scripts

variable {p : Program} (hp : p.WellFormed) {a : Atlas} (hl : Layout p a)

include hl

/-- A key leads to a symbol exactly if it is declared. -/
theorem find?_isSome_iff {key : String} : (a.find? table key).isSome ↔ p.Declares key := by
  constructor
  · intro h
    obtain ⟨r, hr⟩ := Option.isSome_iff_exists.mp h
    exact hl.exists_entry hr
  · rintro ⟨e, he, rfl⟩
    obtain ⟨r, -, hr, -⟩ := hl.symbol_of e he
    simp [hr]

theorem find?_eq_none_iff {key : String} : a.find? table key = none ↔ ¬ p.Declares key := by
  rw [← find?_isSome_iff hl, Option.not_isSome_iff_eq_none]

/-- The symbol of an entry has the flags that the entry has. -/
theorem meets_symbol {e : Entry} {r : SymbolRef} (hm : (e, r) ∈ roster p a) {s : Symbol}
    (hs : a.symbol? r = some s) {g : Flags} (hg : g.meets .external = false) :
    s.flags.meets g = e.draft.flags.meets g := by
  obtain ⟨he, hr⟩ := mem_roster.mp hm
  have hflags : s.flags = (Symbol.ofDeclaration e.declaration
      ((p.ownerKey? e).bind (a.find? table))).flags :=
    congrArg (fun sk => sk.2.1) (hl.skeleton_eq he hr hs)
  rw [hflags, Symbol.meets_ofDeclaration _ _ hg]
  rfl

theorem kind_symbol {e : Entry} {r : SymbolRef} (hm : (e, r) ∈ roster p a) {s : Symbol}
    (hs : a.symbol? r = some s) : s.kind = e.kind := by
  obtain ⟨he, hr⟩ := mem_roster.mp hm
  exact congrArg Declaration.kind (hl.declaration_eq he hr hs)

/-- A declared key leads to an entry and its symbol. -/
theorem exists_member_of_find? {key : String} {q : SymbolRef} (hq : a.find? table key = some q) :
    ∃ t s, (t, q) ∈ roster p a ∧ t.key = key ∧ a.symbol? q = some s := by
  obtain ⟨t, ht, rfl⟩ := hl.exists_entry hq
  obtain ⟨s, hs, -⟩ := hl.indexed.symbol?_of_find? hq
  exact ⟨t, s, mem_roster.mpr ⟨ht, hq⟩, rfl, hs⟩

/-- **Linking a template reports it if it is not declared.** -/
theorem reports_templateScript (e : Entry) (r : SymbolRef) :
    (templateScript a e r).flatMap Effect.reports
      = if p.Undeclared e.draft.template then [e.undeclaredTemplate] else [] := by
  unfold templateScript
  by_cases hempty : e.draft.template = ""
  · have hgiven : ¬ p.Undeclared e.draft.template := fun h => h.1 hempty
    rw [if_pos hempty, if_neg hgiven]
    rfl
  · rw [if_neg hempty]
    cases hfind : a.find? table e.draft.template with
    | none =>
        have hundeclared : p.Undeclared e.draft.template :=
          ⟨hempty, (find?_eq_none_iff hl).mp hfind⟩
        rw [if_pos hundeclared]
        rfl
    | some q =>
        have hdeclared : ¬ p.Undeclared e.draft.template := fun h => h.2 (hl.exists_entry hfind)
        rw [if_neg hdeclared]
        rfl

/-- **Every key without a symbol is reported**, as often as it occurs. The containing type is no key
field, and it is never reported. -/
theorem filterMap_unresolved? (e : Entry) :
    (needs e).filterMap (unresolved? a e)
      = (e.keyFields.filter fun key => p.Undeclared key).map e.undeclaredKey := by
  have hkey : ∀ key, unresolved? a e (.key key)
      = if p.Undeclared key then some (e.undeclaredKey key) else none := by
    intro key
    have hnot : (key = "" ∨ (a.find? table key).isSome) ↔ ¬ p.Undeclared key := by
      unfold Program.Undeclared
      rw [find?_isSome_iff hl, not_and_or, not_not, not_not]
    unfold unresolved?
    simp only [hnot, ite_not]
    rfl
  have hkeys : ∀ keys : List String, (keys.map Need.key).filterMap (unresolved? a e)
      = (keys.filter fun key => p.Undeclared key).map e.undeclaredKey := by
    intro keys
    rw [List.filterMap_map, ← List.filterMap_eq_map, List.filterMap_filter]
    apply List.filterMap_congr
    intro key _
    simp [hkey]
  have hcontaining : unresolved? a e .containing = none := rfl
  unfold needs Entry.keyFields
  rw [← hkeys]
  cases e.kind <;> simp [List.filterMap_append, List.filterMap_cons, hcontaining]

/-- The type of an entry is an interface exactly if its entry is marked so. -/
theorem any_isInterface_iff {t : Entry} {q : SymbolRef} (hm : (t, q) ∈ roster p a) :
    (a.symbol? q).any Symbol.isInterface = t.draft.flags.meets .interface := by
  obtain ⟨s, hs, -⟩ := hl.indexed.symbol?_of_find? (mem_roster.mp hm).2
  rw [hs, Option.any_some]
  exact meets_symbol hl hm hs (by decide)

/-- Whether a member may be overridden can be read off its entry and the one that it is declared
in. -/
theorem isOverridable_iff {b : Entry} {q : SymbolRef} (hm : (b, q) ∈ roster p a) {t : Symbol}
    (ht : a.symbol? q = some t) : a.isOverridable t = true ↔ p.Overridable b := by
  obtain ⟨hb, hq⟩ := mem_roster.mp hm
  have hflags : t.flags.meets (.union .virtual .abstract)
      = (b.draft.flags.meets .virtual || b.draft.flags.meets .abstract) := by
    rw [meets_symbol hl hm ht (by decide), Flags.meets_union]
  have hcontaining : t.containing = ((p.owner? b).map Entry.key).bind (a.find? table) := by
    have hkey : p.ownerKey? b = (p.owner? b).map Entry.key := Option.map_bind.symm
    rw [← hkey]
    exact congrArg (fun sk => sk.2.2) (hl.skeleton_eq hb hq ht)
  have howner : (t.containing.bind a.symbol?).any Symbol.isInterface
      = (p.owner? b).any (·.draft.flags.meets .interface) := by
    rw [hcontaining]
    cases ho : p.owner? b with
    | none => rfl
    | some o =>
        obtain ⟨i, -, hi⟩ := Option.bind_eq_some_iff.mp ho
        have hmem : o ∈ p.entries.toList := Array.mem_toList_iff.mpr (Array.mem_of_getElem? hi)
        obtain ⟨r, -, hr, -⟩ := hl.symbol_of o hmem
        rw [Option.map_some, Option.bind_some, hr, Option.bind_some, Option.any_some]
        exact any_isInterface_iff hl (mem_roster.mpr ⟨hmem, hr⟩)
  unfold Atlas.isOverridable Program.Overridable
  rw [hflags, howner, Bool.or_eq_true, Bool.or_eq_true, or_assoc]

/-- The refusal of an override of a declared entry, told by the entries. -/
theorem overrideRefusal?_some {e b : Entry} {r q : SymbolRef} (hm : (e, r) ∈ roster p a)
    (hbm : (b, q) ∈ roster p a) : overrideRefusal? a e r (some q) =
      if b.key = e.key ∨ b.kind ≠ e.kind then
        some (e.kind.name ++ " " ++ Text.quote e.key ++ " cannot override " ++ b.kind.name ++ " " ++
          Text.quote e.draft.overrides)
      else if p.Overridable b then none
      else some (Text.quote e.key ++ " overrides " ++ Text.quote e.draft.overrides ++
        ", which is neither virtual nor abstract") := by
  obtain ⟨s, hs, -⟩ := hl.indexed.symbol?_of_find? (mem_roster.mp hm).2
  obtain ⟨t, ht, -⟩ := hl.indexed.symbol?_of_find? (mem_roster.mp hbm).2
  rw [overrideRefusal?, hs, ht]
  dsimp only
  rw [kind_symbol hl hm hs, kind_symbol hl hbm ht]
  simp only [eq_iff_key_eq hl hm hbm]
  by_cases hover : p.Overridable b
  · rw [(isOverridable_iff hl hbm ht).mpr hover, if_pos hover]
    rfl
  · have hno : a.isOverridable t = false := by
      rw [← Bool.not_eq_true, isOverridable_iff hl hbm ht]
      exact hover
    rw [hno, if_neg hover]
    rfl

include hp

/-- **Implementing an entry that is no interface is reported**, as often as it occurs. -/
theorem reports_implementScript (e : Entry) (r : SymbolRef) (keys : List String) :
    (keys.flatMap (implementScript a e r)).flatMap Effect.reports
      = (keys.filter fun key => p.NoInterface key).map e.notInterface := by
  -- one key is reported once or not at all; the entries of several are reported in order
  have hone : ∀ key, (implementScript a e r key).flatMap Effect.reports
      = if p.NoInterface key then [e.notInterface key] else [] := by
    intro key
    unfold implementScript
    cases hfind : a.find? table key with
    | none =>
        have hno : ¬ p.NoInterface key := by
          rintro ⟨t, ht, rfl, -⟩
          exact (find?_eq_none_iff hl).mp hfind ⟨t, ht, rfl⟩
        rw [if_neg hno]
        rfl
    | some q =>
        obtain ⟨t, s, hm, rfl, hs⟩ := exists_member_of_find? hl hfind
        have hno : p.NoInterface t.key ↔ t.draft.flags.meets .interface = false := by
          constructor
          · rintro ⟨t', ht', hkey, hflag⟩
            rw [← entry_eq_of_key hp ht' (mem_roster.mp hm).1 hkey]
            exact hflag
          · exact fun hflag => ⟨t, (mem_roster.mp hm).1, rfl, hflag⟩
        dsimp only
        rw [any_isInterface_iff hl hm]
        cases hflag : t.draft.flags.meets .interface with
        | true =>
            rw [if_pos rfl, if_neg (by simp [hno, hflag])]
            rfl
        | false =>
            rw [if_neg (by decide), if_pos (hno.mpr hflag)]
            rfl
  induction keys with
  | nil => rfl
  | cons key keys ih =>
      rw [List.flatMap_cons, List.flatMap_append, ih, hone]
      by_cases hno : p.NoInterface key
      · simp [hno]
      · simp [hno]

/-- **A member cannot override** what is not declared, itself, what is of another kind, and what may
not be overridden. -/
theorem overrideRefusal?_eq {e : Entry} {r : SymbolRef} (hm : (e, r) ∈ roster p a) :
    (overrideRefusal? a e r (a.find? table e.draft.overrides)).map
    (.error .badOverride e.span e.key)
      = if p.OverridesBadly e then some (p.badOverride e) else none := by
  cases hfind : a.find? table e.draft.overrides with
  | none =>
      have hnot := (find?_eq_none_iff hl).mp hfind
      have hget : p.get? e.draft.overrides = none := by
        rw [Option.eq_none_iff_forall_ne_some]
        intro b hb
        exact hnot ⟨b, (Program.get?_eq_some_iff hp.distinct).mp hb⟩
      have hbad : p.OverridesBadly e := Or.inl hnot
      rw [if_pos hbad]
      unfold Program.badOverride
      rw [hget]
      rfl
  | some q =>
      obtain ⟨b, t, hbm, hkey, -⟩ := exists_member_of_find? hl hfind
      have hb := (mem_roster.mp hbm).1
      have hget : p.get? e.draft.overrides = some b :=
        (Program.get?_eq_some_iff hp.distinct).mpr ⟨hb, hkey⟩
      have hbad := overridesBadly_iff hp hb hkey
      rw [overrideRefusal?_some hl hm hbm]
      unfold Program.badOverride
      rw [hget]
      dsimp only
      -- itself and other kinds are refused before the flags of the member are read
      by_cases hfirst : b.key = e.key ∨ b.kind ≠ e.kind
      · have hwrong : p.OverridesBadly e := hbad.mpr (or_assoc.mp (Or.inl hfirst))
        rw [if_pos hfirst, if_pos hfirst, if_pos hwrong]
        rfl
      · rw [if_neg hfirst, if_neg hfirst]
        by_cases hover : p.Overridable b
        · have hgood : ¬ p.OverridesBadly e := by
            rw [hbad, ← or_assoc]
            rintro (h | h)
            · exact hfirst h
            · exact h hover
          rw [if_pos hover, if_neg hgood]
          rfl
        · have hwrong : p.OverridesBadly e := hbad.mpr (Or.inr (Or.inr hover))
          rw [if_neg hover, if_pos hwrong]
          rfl

/-- What linking an entry with what it overrides or implements reports. -/
theorem reports_hierarchyScript {e : Entry} {r : SymbolRef} (hm : (e, r) ∈ roster p a) :
    (hierarchyScript a e r).flatMap Effect.reports
      = if e.kind = .type then
          (e.draft.implements.filter fun key => p.NoInterface key).map e.notInterface
        else if e.draft.overrides ≠ "" ∧ p.OverridesBadly e then [p.badOverride e]
        else [] := by
  obtain ⟨s, hs, -⟩ := hl.indexed.symbol?_of_find? (mem_roster.mp hm).2
  unfold hierarchyScript
  rw [hs, Option.any_some, kind_symbol hl hm hs]
  simp only [decide_eq_true_eq]
  -- types report on their interfaces, members on what they override
  by_cases hkind : e.kind = .type
  · rw [if_pos hkind, if_pos hkind, List.flatMap_append, reports_implementScript hp hl]
    cases a.find? table e.draft.base with
    | none => rfl
    | some b => rfl
  · rw [if_neg hkind, if_neg hkind]
    by_cases hempty : e.draft.overrides = ""
    · rw [if_pos hempty, if_neg fun h => h.1 hempty]
      rfl
    · rw [if_neg hempty]
      have heq := overrideRefusal?_eq hp hl hm
      by_cases hbad : p.OverridesBadly e
      · rw [if_pos hbad] at heq
        obtain ⟨reason, hreason, hreport⟩ := Option.map_eq_some_iff.mp heq
        rw [if_pos ⟨hempty, hbad⟩, hreason, ← hreport]
        rfl
      · rw [if_neg hbad, Option.map_eq_none_iff] at heq
        rw [if_neg fun h => hbad h.2, heq]
        cases a.find? table e.draft.overrides with
        | none => rfl
        | some b => rfl

end Scripts

theorem flatMap_reports_map (ds : List Diagnostic) :
    (ds.map Effect.report).flatMap Effect.reports = ds := by
  induction ds with
  | nil => rfl
  | cons d ds ih => exact congrArg (d :: ·) ih

/-- **Linking and binding an entry reports what is found in it.** -/
theorem reports_entry {p : Program} (hp : p.WellFormed) {a : Atlas} (hd : Declared p a) {e : Entry}
    {r : SymbolRef} (hm : (e, r) ∈ roster p a) :
    (templateScript a e r).flatMap Effect.reports ++ (script a e r).flatMap Effect.reports
      = p.findings e := by
  unfold Program.findings
  rw [reports_templateScript hd.layout, ← attributeReports_eq]
  congr 1
  unfold script attachScript
  rw [List.flatMap_append, List.flatMap_append, flatMap_reports_map, List.flatMap_singleton]
  show attributeReports e ++ [] ++ _ = _
  rw [List.append_nil]
  congr 1
  by_cases hext : e.External
  · rw [if_pos ((any_bound_iff hd hm).mpr hext), if_pos hext]
    rfl
  · have hfree : ¬ (a.symbol? r).any Symbol.bound = true :=
      fun h => hext ((any_bound_iff hd hm).mp h)
    rw [if_neg hfree, if_neg hext, List.flatMap_append, flatMap_reports_map,
      filterMap_unresolved? hd.layout, List.flatMap_append, List.flatMap_append,
      reports_hierarchyScript hp hd.layout hm]
    show _ ++ ([] ++ (_ ++ [])) = _
    rw [List.nil_append, List.append_nil]

/-! ## A whole run -/

/-- **The reports of a run are what is found in the manifest.** Templates are linked in one stage
and the rest is done in another, so the findings of an entry are not reported together. -/
theorem reports_plan {p : Program} (hp : p.WellFormed) {a : Atlas} (hd : Declared p a) :
    ((plan p a).flatMap Effect.reports).Perm (p.entries.toList.flatMap p.findings) := by
  have hentries : p.entries.toList.flatMap p.findings
      = (roster p a).flatMap fun m => (templateScript a m.1 m.2).flatMap Effect.reports ++
          (script a m.1 m.2).flatMap Effect.reports := by
    rw [← roster_entries hd.layout, List.flatMap_map]
    apply List.flatMap_congr
    intro m hm
    exact (reports_entry hp hd hm).symm
  unfold plan linkPlan bindPlan
  rw [List.flatMap_append, List.flatMap_assoc, List.flatMap_assoc, hentries]
  exact List.flatMap_append_perm _ _ _

/-- **What a run reports.** If a program that was read is run with success and without a limit on
reports, the reports are the findings of its entries, in some order: an undeclared template of any
entry; for an entry with a body each occurrence of an undeclared key in the fields that its kind
has, each occurrence of an implemented entry that is no interface, and a bad override; and each
malformed annotation of any entry. Each report points at its entry. -/
theorem run_findings {fs : FileSet} {id : UInt32} {p : Program} {reports : List Diagnostic}
    (h : decodeFile fs id = (.ok p, reports)) {o : Options} (ho : o.maxDiagnostics ≤ 0)
    {trace : Trace} (hok : (run p o trace).error = none) :
    (run p o trace).bag.items.Perm (p.entries.toList.flatMap p.findings) ∧
    ∀ e ∈ p.entries.toList, ∀ d ∈ p.findings e, d.span = e.span ∧ d.subject = e.key := by
  have hp := wellFormed_of_decodeFile h
  obtain ⟨a, b, c, hd, -, -, hat⟩ := exists_closed_of_success hp hok
  refine ⟨?_, fun e _ d hmem => Program.about_findings hmem⟩
  rw [hat.bag, Bag.addAll_unlimited (limit_empty ho)]
  exact reports_plan hp hd

/-- A type that implements itself, names a key that is nowhere twice and is made from nothing, and a
field that overrides the type and has a callback without a target. -/
def faultyManifest : String :=
  "[[symbol]]\nkey = \"T\"\nkind = \"type\"\n" ++
  "implements = [\"T\", \"x\", \"x\"]\noriginal = \"y\"\n" ++
  "[[symbol]]\nkey = \"f\"\nkind = \"field\"\noverrides = \"T\"\n" ++
  "[[symbol.attribute]]\nname = \"field_callback\"\n"

def faultyFiles : FileSet :=
  (FileSet.addVirtual {} "faulty.toml" (Text.Utf8.encode faultyManifest)).2

/-- The reports that the manifest deserves, and their subjects. -/
def faultyFindings : List (Code × String) :=
  [(.unresolvedReference, "T"), (.unresolvedReference, "T"), (.unresolvedReference, "T"),
    (.notInterface, "T"), (.manifestParse, "f"), (.badOverride, "f")]

theorem decodeFile_faulty : ∃ p reports, decodeFile faultyFiles 1 = (.ok p, reports) ∧
    (∀ e ∈ p.entries.toList, e.draft.template ≠ e.key) ∧
    (p.entries.toList.flatMap p.findings).map (fun d => (d.code, d.subject)) = faultyFindings := by
  have hdecode : (decodeFile faultyFiles 1).1.toOption.map (fun p =>
      (decide (∀ e ∈ p.entries.toList, e.draft.template ≠ e.key),
        (p.entries.toList.flatMap p.findings).map fun d => (d.code, d.subject)))
      = some (true, faultyFindings) := by
    decide +kernel
  rcases h : decodeFile faultyFiles 1 with ⟨_ | p, reports⟩
  · rw [h] at hdecode
    cases hdecode
  · rw [h] at hdecode
    obtain ⟨hself, hfindings⟩ := Prod.mk.inj (Option.some.inj hdecode)
    exact ⟨p, reports, rfl, of_decide_eq_true hself, hfindings⟩

theorem run_findings_faulty : ∃ p reports, decodeFile faultyFiles 1 = (.ok p, reports) ∧
    (run p {} ⟨.nop, 0, 0, {}⟩).error = none ∧
    ((run p {} ⟨.nop, 0, 0, {}⟩).bag.items.map fun d =>
      (d.code, d.subject)).Perm faultyFindings := by
  obtain ⟨p, reports, h, hself, hfindings⟩ := decodeFile_faulty
  have hp := wellFormed_of_decodeFile h
  obtain ⟨a, refs, hd, hdeclare⟩ := exists_declared hp ({} : Options).filterCache
  obtain ⟨b, c, -, -, hat⟩ := run_at hp hself (o := {}) rfl ⟨.nop, 0, 0, {}⟩ hd hdeclare
  have hperm := (run_findings h (le_refl (0 : Int)) hat.error).1
  refine ⟨p, reports, h, hat.error, ?_⟩
  rw [← hfindings]
  exact hperm.map _

end Binding

end SymbolAtlas
