import SymbolAtlas.Proofs.CloseStage

set_option autoImplicit false

/-! # The graph that a run builds

A manifest describes a graph on keys: `Edge` reads it off the entries, without symbols. A run builds
a graph of symbols. `dependsOn_iff_edge` says that the two are the same graph, so the closures that
a run leaves are the reachable keys of the manifest (`run_closures`). -/

namespace SymbolAtlas

/-! ## The graph of a manifest -/

namespace Manifest

/-- Whether the body of an entry is outside the program. -/
def Entry.External (e : Entry) : Prop :=
  e.kind = .external ∨ e.draft.flags.meets .external = true

/-- The keys that an entry names as its dependencies, that of its containing type among them. -/
def Program.named (p : Program) (e : Entry) : List String :=
  let d := e.draft
  match e.kind with
  | .type => d.base :: d.implements ++ (p.ownerKey? e).toList ++ d.references
  | .method => d.returns :: d.params ++ d.references ++ (p.ownerKey? e).toList
  | .field | .property | .localVariable | .parameter => d.type :: d.references
  | .invalid | .external => []

def Program.Declares (p : Program) (key : String) : Prop :=
  ∃ e ∈ p.entries.toList, e.key = key

/-- **The edges of the graph** leave entries with a body and lead to declared keys. -/
def Program.Edge (p : Program) (x y : String) : Prop :=
  ∃ e ∈ p.entries.toList, e.key = x ∧ ¬ e.External ∧ y ∈ p.named e ∧ p.Declares y

end Manifest

/-! ## External symbols -/

theorem Flags.meets_union_self (f : Flags) : (f.union .external).meets .external = true := by
  unfold Flags.union Flags.meets Flags.external
  have h : (f.bits ||| 2) &&& 2 = 2 := by
    apply UInt16.eq_of_toBitVec_eq
    ext i hi
    simp only [UInt16.toBitVec_and, UInt16.toBitVec_or, UInt16.toBitVec_ofNat, BitVec.getElem_and,
      BitVec.getElem_or, Bool.and_eq_right_iff_imp, Bool.or_eq_true]
    exact Or.inr
  rw [h]
  decide

theorem Symbol.isExternal_ofDeclaration (d : Declaration) (c : Option SymbolRef) :
    (Symbol.ofDeclaration d c).isExternal = true ↔
      d.kind = .external ∨ d.flags.meets .external = true := by
  unfold Symbol.isExternal Symbol.ofDeclaration
  by_cases hk : d.kind = .external
  · simp [hk, Flags.meets_union_self]
  · simp [hk]

namespace Binding

open Manifest

/-! ## What the plan writes -/

/-- Everything that a run does to a declared program before it closes it. -/
def plan (p : Program) (a : Atlas) : List Effect :=
  linkPlan p a ++ bindPlan p a

/-- What fills a slot of a symbol, other than its template, comes from the script of its entry. -/
theorem mem_script_of_mem_plan {p : Program} (hp : p.WellFormed) {a : Atlas} (hl : Layout p a)
    {e : Entry} {r : SymbolRef} (hm : (e, r) ∈ roster p a) {x : Effect} (hx : x ∈ plan p a)
    {k : Slot} (hslot : x.slot? = some (k, r)) (hk : k ≠ .template) : x ∈ script a e r := by
  have hmem : ∀ xs : List Effect, x ∈ xs → (k, r) ∈ xs.filterMap Effect.slot? :=
    fun xs h => List.mem_filterMap.mpr ⟨x, h, hslot⟩
  rcases List.mem_append.mp hx with hx | hx
  · obtain ⟨m, -, hx⟩ := List.mem_flatMap.mp hx
    have := List.mem_singleton.mp ((slots_templateScript a m.1 m.2).subset (hmem _ hx))
    exact absurd (congrArg Prod.fst this) hk
  · obtain ⟨m, hm', hx⟩ := List.mem_flatMap.mp hx
    have hsnd : r = m.2 := by
      have := (slots_script a m.1 m.2).subset (hmem _ hx)
      simp only [List.mem_cons, Prod.mk.injEq, List.not_mem_nil, or_false] at this
      rcases this with h | h | h | h <;> exact h.2
    obtain rfl : m = (e, r) :=
      List.inj_on_of_nodup_map (nodup_roster hp hl) hm' hm hsnd.symm
    exact hx

theorem dependencies_mem_script {a : Atlas} {e : Entry} {r : SymbolRef}
    {deps : List (Option SymbolRef)} :
    .dependencies r deps ∈ script a e r ↔
      (a.symbol? r).any Symbol.bound = false ∧ deps = (targets a e r).map some := by
  have hhier : Effect.dependencies r deps ∉ hierarchyScript a e r := by
    intro h
    have := (slots_hierarchyScript a e r).subset (List.mem_filterMap.mpr ⟨_, h, rfl⟩)
    simp at this
  unfold script attachScript
  cases (a.symbol? r).any Symbol.bound <;> simp [hhier]

theorem mem_plan_of_mem_script {p : Program} {a : Atlas} {e : Entry} {r : SymbolRef}
    (hm : (e, r) ∈ roster p a) {x : Effect} (hx : x ∈ script a e r) : x ∈ plan p a :=
  List.mem_append_right _ (List.mem_flatMap.mpr ⟨(e, r), hm, hx⟩)

/-- **The program is bound**: everything in the plan has been done to the declared atlas `a`. -/
structure BoundFrom (p : Program) (a b : Atlas) : Prop where
  skeleton : b.skeleton = a.skeleton
  written : WrittenBy (plan p a) b
  count : (b.stats table).1 = 0

theorem mem_targets {a : Atlas} {e : Entry} {r q : SymbolRef} :
    q ∈ targets a e r ↔ ∃ need ∈ needs e, target? a r need = some q := by
  -- what was found before is left out, but it is still there
  have hfold : ∀ (ds found : List SymbolRef), q ∈ ds.foldl addNew found ↔ q ∈ found ∨ q ∈ ds := by
    intro ds
    induction ds with
    | nil => simp
    | cons d ds ih =>
        intro found
        rw [List.foldl_cons, ih, List.mem_cons]
        unfold addNew
        split
        · constructor
          · rintro (h | h)
            · exact Or.inl h
            · exact Or.inr (Or.inr h)
          · rintro (h | rfl | h)
            · exact Or.inl h
            · exact Or.inl (by assumption)
            · exact Or.inr h
        · rw [List.mem_append, List.mem_singleton, or_assoc]
  unfold targets
  rw [hfold, List.mem_filterMap]
  simp

section Graph

variable {p : Program} (hp : p.WellFormed) {a b : Atlas} (hd : Declared p a)
  {e : Entry} {r : SymbolRef} (hm : (e, r) ∈ roster p a)

include hd hm

/-- The symbol of an entry is external exactly if the entry is. -/
theorem isExternal_iff {s : Symbol} (hs : a.symbol? r = some s) :
    s.isExternal = true ↔ e.External := by
  obtain ⟨he, hr⟩ := mem_roster.mp hm
  have hsk := hd.layout.skeleton_eq he hr hs
  have hflags : s.flags = (Symbol.ofDeclaration e.declaration
      ((p.ownerKey? e).bind (a.find? table))).flags := congrArg (fun sk => sk.2.1) hsk
  have h := Symbol.isExternal_ofDeclaration e.declaration ((p.ownerKey? e).bind (a.find? table))
  unfold Symbol.isExternal at h ⊢
  rw [hflags]
  exact h

theorem any_bound_iff : (a.symbol? r).any Symbol.bound = true ↔ e.External := by
  obtain ⟨s, hs, -⟩ := hd.layout.indexed.symbol?_of_find? (mem_roster.mp hm).2
  rw [any_bound_eq hd.fresh (r := r) List.not_mem_nil, hs, Option.any_some, isExternal_iff hd hm hs]

include hp

/-- **The targets of an entry are the symbols of the keys that it names.** -/
theorem mem_targets_iff {q : SymbolRef} :
    q ∈ targets a e r ↔ ∃ y ∈ p.named e, a.find? table y = some q := by
  obtain ⟨he, hr⟩ := mem_roster.mp hm
  obtain ⟨s, hs, -⟩ := hd.layout.indexed.symbol?_of_find? hr
  -- no symbol has the empty key
  have hempty : a.find? table "" = none := by
    cases h : a.find? table "" with
    | none => rfl
    | some q =>
        obtain ⟨e', he', hkey⟩ := hd.layout.exists_entry h
        exact absurd hkey (hp.distinct.key_ne e' he')
  have hkey : ∀ k, target? a r (.key k) = some q ↔ a.find? table k = some q := by
    intro k
    rw [target?]
    by_cases hk : k = ""
    · simp [hk, hempty]
    · rw [if_neg hk]
  have hcont : target? a r .containing = some q
      ↔ ∃ y ∈ (p.ownerKey? e).toList, a.find? table y = some q := by
    have hsk := hd.layout.skeleton_eq he hr hs
    have hc : s.containing = (p.ownerKey? e).bind (a.find? table) := congrArg (fun sk => sk.2.2) hsk
    rw [target?, hs, Option.bind_some, hc, Option.bind_eq_some_iff]
    simp [Option.mem_toList]
  rw [mem_targets]
  unfold needs Program.named
  cases e.kind <;> simp [hkey, hcont, or_and_right, exists_or]

end Graph

namespace BoundFrom

variable {p : Program} (hp : p.WellFormed) {a b : Atlas} (hd : Declared p a) (h : BoundFrom p a b)

include hd h

theorem exists_member {r : SymbolRef} {s : Symbol} (hs : b.symbol? r = some s) :
    ∃ e, (e, r) ∈ roster p a := by
  obtain ⟨s', hs', -⟩ := Atlas.exists_symbol_of_skeleton h.skeleton hs
  obtain ⟨e, he, hr⟩ := hd.layout.entry_of hs'
  exact ⟨e, mem_roster.mpr ⟨he, hr⟩⟩

/-- Every symbol is bound: external ones from the start, the others by their scripts. -/
theorem bound {r : SymbolRef} {s : Symbol} (hs : b.symbol? r = some s) : s.bound = true := by
  obtain ⟨e, hm⟩ := h.exists_member hd hs
  rw [(h.written r s hs).bound]
  by_cases hb : (a.symbol? r).any Symbol.bound = true
  · left
    obtain ⟨s', hs', hsk⟩ := Atlas.exists_symbol_of_skeleton h.skeleton hs
    have hflags : s.flags = s'.flags := congrArg (fun sk => sk.2.1) hsk
    unfold Symbol.isExternal
    rw [hflags]
    exact (isExternal_iff hd hm hs').mpr ((any_bound_iff hd hm).mp hb)
  · right
    exact mem_plan_of_mem_script hm (bound_mem_script.mpr (Bool.not_eq_true _ ▸ hb))

include hp

/-- **What the symbol of an entry depends on.** -/
theorem dependsOn_iff {e : Entry} {r q : SymbolRef} (hm : (e, r) ∈ roster p a) :
    b.DependsOn r q ↔ ¬ e.External ∧ ∃ y ∈ p.named e, a.find? table y = some q := by
  obtain ⟨s₀, hs₀, -⟩ := hd.layout.indexed.symbol?_of_find? (mem_roster.mp hm).2
  obtain ⟨s, hs, -⟩ := Atlas.exists_symbol_of_skeleton h.skeleton.symm hs₀
  have hw := h.written r s hs
  -- the dependencies that were written are those of the entry's own script
  rw [← mem_targets_iff hp hd hm, ← any_bound_iff hd hm, Bool.not_eq_true]
  constructor
  · rintro ⟨s', hs', hq⟩
    obtain rfl : s = s' := Option.some.inj (hs.symm.trans hs')
    unfold Symbol.direct at hq
    cases hdeps : s.dependencies with
    | none => simp [hdeps] at hq
    | some deps =>
        have hx := mem_script_of_mem_plan hp hd.layout hm ((hw.dependencies deps).mp hdeps) rfl
          (by decide)
        obtain ⟨hb, rfl⟩ := dependencies_mem_script.mp hx
        rw [hdeps] at hq
        exact ⟨hb, by simpa using hq⟩
  · rintro ⟨hb, hq⟩
    have hx := mem_plan_of_mem_script hm (dependencies_mem_script.mpr ⟨hb, rfl⟩)
    have hdeps := (hw.dependencies _).mpr hx
    refine ⟨s, hs, ?_⟩
    unfold Symbol.direct
    rw [hdeps]
    simpa using hq

/-- **The graph of the symbols is the graph of the manifest.** -/
theorem dependsOn_iff_edge {x y : String} {r q : SymbolRef} (hr : a.find? table x = some r)
    (hq : a.find? table y = some q) : b.DependsOn r q ↔ p.Edge x y := by
  obtain ⟨e, he, rfl⟩ := hd.layout.exists_entry hr
  have hm : (e, r) ∈ roster p a := mem_roster.mpr ⟨he, hr⟩
  rw [h.dependsOn_iff hp hd hm]
  constructor
  · rintro ⟨hext, y', hy', hq'⟩
    obtain rfl : y' = y := hd.layout.key_inj hq' hq
    exact ⟨e, he, rfl, hext, hy', hd.layout.exists_entry hq⟩
  · rintro ⟨e', he', hkey, hext, hy, -⟩
    obtain rfl : e' = e := entry_eq_of_key hp he' he hkey
    exact ⟨hext, y, hy, hq⟩

theorem reaches_iff {x y : String} {r q : SymbolRef} (hr : a.find? table x = some r)
    (hq : a.find? table y = some q) : b.Reaches r q ↔ Relation.TransGen p.Edge x y := by
  constructor
  · intro hreach
    -- every symbol on the way has a key
    have hall : ∀ {q}, b.Reaches r q → ∃ z, a.find? table z = some q ∧
        Relation.TransGen p.Edge x z := by
      intro q hq
      have hkey : ∀ {u v}, b.DependsOn u v → ∀ {w}, a.find? table w = some u →
          ∃ z, a.find? table z = some v ∧ p.Edge w z := by
        intro u v hd' w hw
        obtain ⟨e, he, rfl⟩ := hd.layout.exists_entry hw
        obtain ⟨hext, z, hz, hv⟩ := (h.dependsOn_iff hp hd (mem_roster.mpr ⟨he, hw⟩)).mp hd'
        exact ⟨z, hv, e, he, rfl, hext, hz, hd.layout.exists_entry hv⟩
      induction hq with
      | single hd' =>
          obtain ⟨z, hz, hedge⟩ := hkey hd' hr
          exact ⟨z, hz, .single hedge⟩
      | tail _ hd' ih =>
          obtain ⟨w, hw, hpath⟩ := ih
          obtain ⟨z, hz, hedge⟩ := hkey hd' hw
          exact ⟨z, hz, hpath.tail hedge⟩
    obtain ⟨z, hz, hpath⟩ := hall hreach
    obtain rfl : z = y := hd.layout.key_inj hz hq
    exact hpath
  · intro hpath
    induction hpath generalizing q with
    | single hedge => exact .single ((h.dependsOn_iff_edge hp hd hr hq).mpr hedge)
    | @tail y z _ hedge ih =>
        -- an edge leaves a declared key
        obtain ⟨e, he, rfl, -⟩ := id hedge
        obtain ⟨u, -, hu, -⟩ := hd.layout.symbol_of e he
        exact (ih hu).tail ((h.dependsOn_iff_edge hp hd hu hq).mpr hedge)

theorem closing : Closing b [] b := by
  refine ⟨Atlas.SameButClosures.refl b, rfl, ⟨⟨?_, ?_, ?_⟩, fun hs => h.bound hd hs⟩, ?_, h.count⟩
  · intro x y hxy
    obtain ⟨s, hs, -⟩ := id hxy
    obtain ⟨e, hm⟩ := h.exists_member hd hs
    obtain ⟨-, z, -, hz⟩ := (h.dependsOn_iff hp hd hm).mp hxy
    obtain ⟨sy, hsy, -⟩ := hd.layout.indexed.symbol?_of_find? hz
    obtain ⟨sy', hsy', -⟩ := Atlas.exists_symbol_of_skeleton h.skeleton.symm hsy
    simp [hsy']
  · intro r s c hs hc
    rw [(h.written r s hs).closure] at hc
    simp at hc
  · intro r s c hs hc
    rw [(h.written r s hs).closure] at hc
    simp at hc
  · intro q s hs
    simp [(h.written q s hs).closure]

end BoundFrom

/-! ## A manifest -/

/-- A type in a circle with another one, and a method of the first that is made from the second. One
reference leads nowhere. -/
def circularManifest : String :=
  "[[symbol]]\nkey = \"A\"\nkind = \"type\"\nreferences = [\"B\", \"nowhere\"]\n" ++
  "[[symbol]]\nkey = \"A.m\"\nkind = \"method\"\ncontaining = \"A\"\noriginal = \"B\"\n" ++
  "[[symbol]]\nkey = \"B\"\nkind = \"type\"\nbase = \"A\"\n"

def circularFiles : FileSet :=
  (FileSet.addVirtual {} "circular.toml" (Text.Utf8.encode circularManifest)).2

def circularProgram : Program :=
  match (decodeFile circularFiles 1).1 with
  | .ok p => p
  | .error _ => ⟨"", 0, [], #[]⟩

theorem decodeFile_circular :
    decodeFile circularFiles 1 = (.ok circularProgram, (decodeFile circularFiles 1).2) := by
  have hok : (decodeFile circularFiles 1).1.isOk = true := by decide +kernel
  unfold circularProgram
  rcases h : decodeFile circularFiles 1 with ⟨_ | p, reports⟩
  · rw [h] at hok
    simp [Except.isOk, Except.toBool] at hok
  · rfl

theorem template_ne_key_circular :
    ∀ e ∈ circularProgram.entries.toList, e.draft.template ≠ e.key := by
  decide +kernel

/-! ## A whole run -/

/-- **Carrying out the plan, in any order, binds the program.** -/
theorem boundFrom_of_perm {p : Program} (hp : p.WellFormed) {a : Atlas} (hd : Declared p a)
    {xs : List Effect} (hperm : xs.Perm (plan p a)) : BoundFrom p a (changeAll xs a) where
  skeleton := skeleton_changeAll _ _
  written := by
    have hcompatible : Compatible [] xs :=
      (hperm.symm.filterMap Effect.slot?).nodup_iff.mp (compatible_plan hp hd.layout)
    intro r s hs
    exact (hd.fresh.changeAll hcompatible r s hs).congr fun x => hperm.mem_iff
  count := by rw [stats_changeAll, hd.closures]

theorem start_at (p : Program) (o : Options) (trace : Trace) :
    (start p o trace).At p o.canceled ⟨#[.empty o.filterCache]⟩ (.empty o.maxDiagnostics) :=
  ⟨rfl, rfl, rfl, rfl, rfl⟩

/-- **A run of a well-formed program** carries out the plan and then closes every symbol. -/
theorem run_at {p : Program} (hp : p.WellFormed)
    (hself : ∀ e ∈ p.entries.toList, e.draft.template ≠ e.key) {o : Options}
    (ho : o.canceled = false) (trace : Trace) {a : Atlas} (hd : Declared p a)
    {refs : List SymbolRef}
    (hdeclare : ∀ run : Run, run.atlas = ⟨#[.empty o.filterCache]⟩ →
      exec (declareFrom p.outline p.entries.toList 0) run = (.ok refs, { run with atlas := a })) :
    ∃ b c, BoundFrom p a b ∧ Closing b ((roster p b).map Prod.snd) c ∧
      (run p o trace).At p false c
        ((Bag.empty o.maxDiagnostics).addAll ((plan p a).flatMap Effect.reports)) := by
  have hready := ready_plan hp hself hd
  have hdeclared := stage_declareAll hp hself hd hdeclare (start_at p o trace)
  rw [ho] at hdeclared
  have hbound := stage_bindAll hd hdeclared (skeleton_changeAll _ a) hready.right
  have hfrom := boundFrom_of_perm hp hd (.refl (plan p a))
  rw [plan, changeAll_append] at hfrom
  obtain ⟨c, hclosed, hc⟩ := stage_closeAll hp hbound
    (hd.layout.congr hfrom.skeleton) (hfrom.closing hp hd)
  refine ⟨_, c, hfrom, hc, ?_⟩
  unfold plan
  rw [run_eq, List.flatMap_append, Bag.addAll_append]
  exact hclosed.finish

/-- **The keys in a closure** are the other keys that paths of the manifest lead to. -/
theorem mem_closure_keys {p : Program} (hp : p.WellFormed) {a b c : Atlas} (hd : Declared p a)
    (hb : BoundFrom p a b) {closed : List SymbolRef} (hc : Closing b closed c) {x : String}
    {r : SymbolRef} (hr : c.find? table x = some r) {closure : List SymbolRef}
    (hexact : c.IsClosure r closure) (y : String) :
    some y ∈ closure.map c.key? ↔ x ≠ y ∧ Relation.TransGen p.Edge x y := by
  have hsk : c.skeleton = a.skeleton := hc.skeleton.trans hb.skeleton
  have hl : Layout p c := hd.layout.congr hsk
  -- the graph of the symbols is that of the keys
  have hreaches : ∀ {z : String} {q : SymbolRef}, c.find? table z = some q →
      (c.Reaches r q ↔ Relation.TransGen p.Edge x z) := by
    intro z q hq
    rw [Atlas.find?_eq_of_skeleton hsk] at hr hq
    rw [hc.same.reaches_iff, hb.reaches_iff hp hd hr hq]
  rw [List.mem_map]
  constructor
  · rintro ⟨q, hq, hkey⟩
    obtain ⟨hne, hreach⟩ := (hexact.mem_iff q).mp hq
    obtain ⟨sq, hsq, hy⟩ := Option.map_eq_some_iff.mp hkey
    obtain ⟨e, he, hq'⟩ := hl.entry_of hsq
    obtain rfl : e.key = y := by
      obtain ⟨s', hs', hk⟩ := hl.indexed.symbol?_of_find? hq'
      rw [← hk, ← hy, Option.some.inj (hsq.symm.trans hs')]
    refine ⟨?_, (hreaches hq').mp hreach⟩
    rintro rfl
    exact hne (Option.some.inj (hq'.symm.trans hr))
  · rintro ⟨hne, hpath⟩
    obtain ⟨e, he, rfl⟩ : p.Declares y := by
      cases hpath with
      | single hedge => exact hedge.choose_spec.2.2.2.2
      | tail _ hedge => exact hedge.choose_spec.2.2.2.2
    obtain ⟨q, sq, hq, hsq, -⟩ := hl.symbol_of e he
    refine ⟨q, (hexact.mem_iff q).mpr ⟨?_, (hreaches hq).mpr hpath⟩, ?_⟩
    · rintro rfl
      exact hne (hl.key_inj hr hq)
    · obtain ⟨s', hs', hk⟩ := hl.indexed.symbol?_of_find? hq
      simp [Atlas.key?, hs', hk]

/-- **What a run leaves.** The run of a program that was read and in which no entry names itself as
its template does not fail. There is one symbol for each entry, every symbol is bound and has its
closure, as many closures were computed as there are symbols, and the closure of a key holds the
other keys that paths of the manifest lead to. -/
theorem run_closures {fs : FileSet} {id : UInt32} {p : Program} {reports : List Diagnostic}
    (h : decodeFile fs id = (.ok p, reports))
    (hself : ∀ e ∈ p.entries.toList, e.draft.template ≠ e.key) {o : Options}
    (ho : o.canceled = false) (trace : Trace) :
    let a := (run p o trace).atlas
    (run p o trace).error = none ∧
    ((a.members table).map a.key?).Perm (p.entries.toList.map fun e => some e.key) ∧
    (∀ r ∈ a.members table, ∃ s, a.symbol? r = some s ∧ s.bound = true ∧ s.closure.isSome) ∧
    (a.stats table).1 = (a.members table).length ∧
    ∀ e ∈ p.entries.toList, ∃ r c, a.find? table e.key = some r ∧
      exec (AtlasM.allDependencies r) a = (.ok c, a) ∧
      ∀ y, some y ∈ c.map a.key? ↔ e.key ≠ y ∧ Relation.TransGen p.Edge e.key y := by
  have hp := wellFormed_of_decodeFile h
  obtain ⟨a, refs, hd, hdeclare⟩ := exists_declared hp o.filterCache
  obtain ⟨b, c, hb, hc, hat⟩ := run_at hp hself ho trace hd hdeclare
  dsimp only
  rw [hat.atlas]
  have hsk : c.skeleton = a.skeleton := hc.skeleton.trans hb.skeleton
  have hl : Layout p c := hd.layout.congr hsk
  have hroster : roster p b = roster p c := roster_eq_of_skeleton hc.skeleton.symm
  have hperm := roster_perm_members hp hl
  rw [hroster] at hc
  -- every symbol of the table was closed in the last stage
  have hclosed : ∀ {r s}, c.symbol? r = some s → s.closure.isSome := by
    intro r s hs
    rw [hc.closed_iff hs, mem_roster_symbols hl, hs]
    rfl
  refine ⟨hat.error, keys_perm_entries hp hl, ?_, ?_, ?_⟩
  · intro r hr
    obtain ⟨s, hs⟩ := Option.isSome_iff_exists.mp (Atlas.mem_members.mp hr).2
    exact ⟨s, hs, hc.settled.bound hs, hclosed hs⟩
  · rw [hc.count, hperm.length_eq]
  · intro e he
    obtain ⟨r, s, hr, hs, -⟩ := hl.symbol_of e he
    obtain ⟨closure, hclosure⟩ := Option.isSome_iff_exists.mp (hclosed hs)
    have hexact := hc.settled.coherent.isClosure hs hclosure
    exact ⟨r, closure, hr, AtlasM.exec_allDependencies_kept hs hclosure,
      mem_closure_keys hp hd hb hc hr hexact⟩

theorem run_closures_circular :
    decodeFile circularFiles 1 = (.ok circularProgram, (decodeFile circularFiles 1).2) ∧
    (∀ e ∈ circularProgram.entries.toList, e.draft.template ≠ e.key) ∧
    (run circularProgram {} ⟨.nop, 0, 0, {}⟩).error = none ∧
    ∀ e ∈ circularProgram.entries.toList, ∃ r c,
      (run circularProgram {} ⟨.nop, 0, 0, {}⟩).atlas.find? table e.key = some r ∧
      exec (AtlasM.allDependencies r) (run circularProgram {} ⟨.nop, 0, 0, {}⟩).atlas
        = (.ok c, (run circularProgram {} ⟨.nop, 0, 0, {}⟩).atlas) ∧
      ∀ y, some y ∈ c.map (run circularProgram {} ⟨.nop, 0, 0, {}⟩).atlas.key? ↔
        e.key ≠ y ∧ Relation.TransGen circularProgram.Edge e.key y := by
  obtain ⟨herror, -, -, -, hclosures⟩ :=
    run_closures decodeFile_circular template_ne_key_circular (o := {}) rfl ⟨.nop, 0, 0, {}⟩
  exact ⟨decodeFile_circular, template_ne_key_circular, herror, hclosures⟩

end Binding

end SymbolAtlas
