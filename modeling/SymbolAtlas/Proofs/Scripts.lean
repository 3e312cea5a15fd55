import SymbolAtlas.Proofs.DeclareStage
import SymbolAtlas.Proofs.Effects

set_option autoImplicit false

/-! # What linking and binding an entry does

Linking and binding an entry read keys, kinds, flags and containing types, which are fixed once the
program is declared, and the mark of the entry's own symbol. So what they will do can be listed
beforehand: `templateScript` and `script` are lists of effects, and the steps of a run perform them
in order (`exec_linkTemplate`, `exec_bindEntry`). -/

namespace SymbolAtlas.Binding

open Manifest

/-! ## The scripts -/

/-- The effects of linking an entry with its template. -/
def templateScript (a : Atlas) (e : Entry) (r : SymbolRef) : List Effect :=
  if e.draft.template = "" then []
  else
    match a.find? table e.draft.template with
    | none =>
      [.report (.error .unresolvedReference e.span e.key
        (Text.quote e.key ++ " is constructed from undeclared symbol " ++
          Text.quote e.draft.template))]
    | some o => [.template r o]

def target? (a : Atlas) (r : SymbolRef) : Need → Option SymbolRef
  | .key k => if k = "" then none else a.find? table k
  | .containing => (a.symbol? r).bind Symbol.containing

/-- What is reported about a dependency that names no symbol. -/
def unresolved? (a : Atlas) (e : Entry) : Need → Option Diagnostic
  | .key k =>
    if k = "" ∨ (a.find? table k).isSome then none
    else
      some (.error .unresolvedReference e.span e.key
        (Text.quote e.key ++ " references undeclared symbol " ++ Text.quote k))
  | .containing => none

/-- Adds a symbol that is new. -/
def addNew (found : List SymbolRef) (d : SymbolRef) : List SymbolRef :=
  if d ∈ found then found else found ++ [d]

def targets (a : Atlas) (e : Entry) (r : SymbolRef) : List SymbolRef :=
  ((needs e).filterMap (target? a r)).foldl addNew []

/-- The effects of naming an interface that a type implements. -/
def implementScript (a : Atlas) (e : Entry) (r : SymbolRef) (key : String) : List Effect :=
  match a.find? table key with
  | none => []
  | some target =>
    if (a.symbol? target).any Symbol.isInterface then [.implementation target r]
    else
      [.report (.error .notInterface e.span e.key
        (Text.quote e.key ++ " implements " ++ Text.quote key ++ ", which is not an interface"))]

/-- The effects of linking a symbol with the symbols it overrides or implements. -/
def hierarchyScript (a : Atlas) (e : Entry) (r : SymbolRef) : List Effect :=
  if (a.symbol? r).any (·.kind = .type) then
    (a.find? table e.draft.base).toList.map (.implementation · r) ++
      e.draft.implements.flatMap (implementScript a e r)
  else if e.draft.overrides = "" then []
  else
    match overrideRefusal? a e r (a.find? table e.draft.overrides) with
    | some reason => [.report (.error .badOverride e.span e.key reason)]
    | none =>
      (a.find? table e.draft.overrides).toList.flatMap fun b =>
        [.overridden r b, .implementation b r]

def attachScript (e : Entry) (r : SymbolRef) : List Effect :=
  (attributeReports e).map .report ++ [.attributes r (attributes e)]

/-- The effects of binding an entry. -/
def script (a : Atlas) (e : Entry) (r : SymbolRef) : List Effect :=
  attachScript e r ++
    if (a.symbol? r).any Symbol.bound then []
    else
      ((needs e).filterMap (unresolved? a e)).map .report ++
        ([.dependencies r ((targets a e r).map some)] ++ (hierarchyScript a e r ++ [.bound r]))

/-! ## Scripts depend on fixed things only -/

section Congruence

variable {a b : Atlas} (hsk : b.skeleton = a.skeleton)

include hsk

theorem any_eq_of_skeleton {f : Declaration × Flags × Option SymbolRef → Bool} (r : SymbolRef) :
    (b.symbol? r).any (fun s => f s.skeleton) = (a.symbol? r).any fun s => f s.skeleton := by
  have h := Atlas.symbol?_skeleton_eq hsk r
  have hany : ∀ o : Option Symbol, o.any (fun s => f s.skeleton)
      = (o.map Symbol.skeleton).any f := by
    intro o
    cases o <;> rfl
  rw [hany, hany, h]

theorem templateScript_congr (e : Entry) (r : SymbolRef) :
    templateScript b e r = templateScript a e r := by
  unfold templateScript
  rw [Atlas.find?_eq_of_skeleton hsk]

theorem target?_congr (r : SymbolRef) (need : Need) : target? b r need = target? a r need := by
  cases need with
  | key k =>
      rw [target?, target?, Atlas.find?_eq_of_skeleton hsk]
  | containing =>
      have hmap : ∀ o : Option Symbol, o.bind Symbol.containing
          = (o.map Symbol.skeleton).bind fun sk => sk.2.2 := by
        intro o
        cases o <;> rfl
      rw [target?, target?, hmap, hmap, Atlas.symbol?_skeleton_eq hsk r]

theorem unresolved?_congr (e : Entry) (need : Need) :
    unresolved? b e need = unresolved? a e need := by
  cases need with
  | key k =>
      rw [unresolved?, unresolved?, Atlas.find?_eq_of_skeleton hsk]
  | containing => rfl

theorem implementScript_congr (e : Entry) (r : SymbolRef) (key : String) :
    implementScript b e r key = implementScript a e r key := by
  have hany : ∀ t, (b.symbol? t).any Symbol.isInterface = (a.symbol? t).any Symbol.isInterface :=
    any_eq_of_skeleton hsk (f := fun sk => sk.2.1.meets .interface)
  unfold implementScript
  rw [Atlas.find?_eq_of_skeleton hsk]
  simp only [hany]

/-- Whether a member may be overridden depends on its flags and on its containing type. -/
theorem isOverridable_congr {t t' : Symbol} (h : t.skeleton = t'.skeleton) :
    b.isOverridable t = a.isOverridable t' := by
  have hflags : t.flags = t'.flags := congrArg (fun sk => sk.2.1) h
  have hcont : t.containing = t'.containing := congrArg (fun sk => sk.2.2) h
  unfold Atlas.isOverridable
  rw [hflags, hcont]
  cases t'.containing with
  | none => rfl
  | some c =>
      have hany := any_eq_of_skeleton hsk (f := fun sk => sk.2.1.meets .interface) c
      exact congrArg _ hany

/-- Why a member cannot override another depends on kinds, flags and containing types. -/
theorem overrideRefusal?_congr (e : Entry) (r : SymbolRef) (base : Option SymbolRef) :
    overrideRefusal? b e r base = overrideRefusal? a e r base := by
  cases base with
  | none => rfl
  | some q =>
      rw [overrideRefusal?, overrideRefusal?]
      -- both states know the same symbols
      have hr := Atlas.symbol?_skeleton_eq hsk r
      have hq := Atlas.symbol?_skeleton_eq hsk q
      cases hbr : b.symbol? r with
      | none =>
          rw [hbr] at hr
          rw [Option.map_eq_none_iff.mp hr.symm]
      | some s =>
          obtain ⟨s', hs', hss⟩ := Atlas.exists_symbol_of_skeleton hsk hbr
          rw [hs']
          cases hbq : b.symbol? q with
          | none =>
              rw [hbq] at hq
              rw [Option.map_eq_none_iff.mp hq.symm]
          | some t =>
              obtain ⟨t', ht', htt⟩ := Atlas.exists_symbol_of_skeleton hsk hbq
              rw [ht']
              have hkind : s.kind = s'.kind := congrArg (fun sk => sk.1.kind) hss
              have hkind' : t.kind = t'.kind := congrArg (fun sk => sk.1.kind) htt
              simp only [hkind, hkind', isOverridable_congr hsk htt]

theorem hierarchyScript_congr (e : Entry) (r : SymbolRef) :
    hierarchyScript b e r = hierarchyScript a e r := by
  have hany : (b.symbol? r).any (·.kind = .type) = (a.symbol? r).any (·.kind = .type) :=
    any_eq_of_skeleton hsk (f := fun sk => sk.1.kind = .type) r
  have himpl : implementScript b e r = implementScript a e r :=
    funext (implementScript_congr hsk e r)
  unfold hierarchyScript
  rw [hany, himpl, Atlas.find?_eq_of_skeleton hsk, Atlas.find?_eq_of_skeleton hsk,
    overrideRefusal?_congr hsk]

/-- **The script of an entry is fixed** until its symbol is marked bound. -/
theorem script_congr (e : Entry) (r : SymbolRef)
    (hbound : (b.symbol? r).any Symbol.bound = (a.symbol? r).any Symbol.bound) :
    script b e r = script a e r := by
  unfold script targets
  rw [hbound, hierarchyScript_congr hsk, funext (target?_congr hsk r),
    funext (unresolved?_congr hsk e)]

end Congruence

/-! ## Steps perform their scripts -/

/-- **A loop whose rounds perform scripts performs them all.** The scripts are taken from an atlas
with the same skeletons as the run's. -/
theorem exec_forIn_enact {γ : Type} {a : Atlas} {f : γ → List Effect}
    {body : γ → PUnit → RunM (ForInStep PUnit)}
    (hbody : ∀ x run, run.atlas.skeleton = a.skeleton → Ready (f x) run.atlas →
      exec (body x ⟨⟩) run = (.ok (.yield ⟨⟩), run.enact (f x))) (xs : List γ) :
    ∀ {run : Run}, run.atlas.skeleton = a.skeleton → Ready (xs.flatMap f) run.atlas →
      exec (forIn xs ⟨⟩ body) run = (.ok ⟨⟩, run.enact (xs.flatMap f)) := by
  induction xs with
  | nil => intro run _ _; rfl
  | cons x xs ih =>
      intro run hsk h
      rw [List.flatMap_cons] at h ⊢
      have hnext : (run.enact (f x)).atlas.skeleton = a.skeleton :=
        (skeleton_changeAll (f x) run.atlas).trans hsk
      rw [List.forIn_cons, exec_bind_ok (hbody x run hsk h.left), enact_append]
      exact ih hnext h.enact

theorem enact_reports (ds : List Diagnostic) (run : Run) :
    run.enact (ds.map .report) = { run with bag := run.bag.addAll ds } := by
  have hatlas : ∀ a : Atlas, changeAll (ds.map .report) a = a := by
    intro a
    induction ds with
    | nil => rfl
    | cons d ds ih => exact ih
  have hbag : (ds.map Effect.report).flatMap Effect.reports = ds := by
    rw [List.flatMap_map]
    exact List.flatMap_pure_eq_map id ds |>.trans (List.map_id ds)
  unfold Run.enact
  rw [hatlas, hbag]

theorem exec_attach {e : Entry} {r : SymbolRef} {run : Run}
    (h : Ready (attachScript e r) run.atlas) :
    exec (attach e r) run = (.ok (), run.enact (attachScript e r)) := by
  unfold attachScript at h ⊢
  rw [List.map_eq_flatMap] at h ⊢
  have hloop : exec (forIn (attributeReports e) PUnit.unit fun d _ => do
      RunM.report d
      pure (.yield PUnit.unit)) run
      = (.ok ⟨⟩, run.enact ((attributeReports e).flatMap fun d => [.report d])) :=
    exec_forIn_enact (a := run.atlas) (fun d run _ _ => rfl) (attributeReports e) rfl h.left
  unfold attach
  rw [exec_bind_ok hloop, enact_append]
  exact h.enact.perform

theorem exec_needed {e : Entry} {r : SymbolRef} {run : Run} (hr : (run.atlas.symbol? r).isSome)
    (need : Need) :
    exec (needed e r need) run = (.ok (target? run.atlas r need),
      { run with bag := run.bag.addAll (unresolved? run.atlas e need).toList }) := by
  cases need with
  | key k =>
      rw [needed, resolve, target?, unresolved?]
      by_cases hk : k = ""
      · simp [hk, Bag.addAll]
      · simp only [hk, if_false, false_or]
        rw [exec_bind_ok (RunM.exec_find? k run)]
        cases run.atlas.find? table k with
        | some q => rfl
        | none => rfl
  | containing =>
      obtain ⟨s, hs⟩ := Option.isSome_iff_exists.mp hr
      rw [needed, exec_bind_ok (RunM.exec_onAtlas_ok (AtlasM.exec_read hs)), target?, hs]
      rfl

/-- The dependencies of an entry are collected, and what names no symbol is reported. -/
theorem exec_dependencies {e : Entry} {r : SymbolRef} (ns : List Need) :
    ∀ {run : Run} {found : List SymbolRef}, (run.atlas.symbol? r).isSome →
      exec (dependencies e r ns found) run
        = (.ok ((ns.filterMap (target? run.atlas r)).foldl addNew found),
            { run with bag := run.bag.addAll (ns.filterMap (unresolved? run.atlas e)) }) := by
  induction ns with
  | nil => intro run found _; rfl
  | cons n ns ih =>
      intro run found hr
      have hbag : run.bag.addAll ((n :: ns).filterMap (unresolved? run.atlas e))
          = (run.bag.addAll (unresolved? run.atlas e n).toList).addAll
              (ns.filterMap (unresolved? run.atlas e)) := by
        rw [← Bag.addAll_append]
        cases hn : unresolved? run.atlas e n with
        | none => rw [List.filterMap_cons_none hn]; rfl
        | some d => rw [List.filterMap_cons_some hn]; rfl
      rw [dependencies, exec_bind_ok (exec_needed hr n), hbag]
      cases hn : target? run.atlas r n with
      | none =>
          rw [List.filterMap_cons_none hn]
          exact ih hr
      | some d =>
          rw [List.filterMap_cons_some hn]
          exact ih hr

theorem exec_implement {e : Entry} {r : SymbolRef} {key : String} {run : Run}
    (hi : run.atlas.Indexed) (h : Ready (implementScript run.atlas e r key) run.atlas) :
    exec (implement e r key) run = (.ok (), run.enact (implementScript run.atlas e r key)) := by
  unfold implementScript at h ⊢
  unfold implement
  rw [exec_bind_ok (RunM.exec_find? key run)]
  cases hkey : run.atlas.find? table key with
  | none => rfl
  | some t =>
      obtain ⟨s, hs, -⟩ := hi.symbol?_of_find? hkey
      simp only [hkey, hs, Option.any_some] at h ⊢
      rw [exec_bind_ok (RunM.exec_onAtlas_ok (AtlasM.exec_read hs))]
      by_cases hi : s.isInterface = true
      · simp only [hi, if_true] at h ⊢
        exact h.perform
      · simp only [hi, Bool.false_eq_true, if_false] at h ⊢
        exact h.perform

/-- Overriding is a write to the symbol followed by an entry with the overridden one. -/
theorem setOverridden_eq {r b : SymbolRef} (hne : b ≠ r) :
    AtlasM.setOverridden (some r) (some b)
      = recordOverridden r b >>= fun _ => AtlasM.addImplementation b (some r) := by
  have hne' : ¬ (some b = some r) := fun heq => hne (Option.some.inj heq)
  unfold AtlasM.setOverridden recordOverridden
  simp only [hne', if_false, AtlasM.receiver, pure_bind, bind_assoc]
  congr 1
  funext s
  by_cases ho : s.overridden.isSome = true
  · simp only [ho, if_true, bind_assoc]
  · simp only [ho, Bool.false_eq_true, if_false]

theorem exec_setOverridden {r b : SymbolRef} {run : Run} (hne : b ≠ r)
    (h : Ready [.overridden r b, .implementation b r] run.atlas) :
    exec (RunM.onAtlas (AtlasM.setOverridden (some r) (some b))) run
      = (.ok (), run.enact [.overridden r b, .implementation b r]) := by
  have hpair : Ready ([.overridden r b] ++ [.implementation b r]) run.atlas := h
  have hfirst : exec (RunM.onAtlas (recordOverridden r b)) run
      = (.ok (), run.enact [.overridden r b]) := hpair.left.perform
  rw [setOverridden_eq hne, RunM.exec_onAtlas_bind, exec_bind_ok hfirst]
  exact hpair.enact.perform

/-- A member that may be overridden is another symbol. -/
theorem ne_of_overrideRefusal? {a : Atlas} {e : Entry} {r b : SymbolRef} {s t : Symbol}
    (hs : a.symbol? r = some s) (ht : a.symbol? b = some t)
    (h : overrideRefusal? a e r (some b) = none) : b ≠ r := by
  intro heq
  rw [overrideRefusal?, hs, ht] at h
  simp [heq] at h

/-- Linking with every interface in turn. Only the fixed part of the atlas decides what is done, so
the scripts of the start are those of every round. -/
theorem exec_forIn_implement {a : Atlas} {e : Entry} {r : SymbolRef} {run : Run}
    (ha : a.Indexed) (hsk : run.atlas.skeleton = a.skeleton)
    (h : Ready (e.draft.implements.flatMap (implementScript a e r)) run.atlas) :
    exec (forIn e.draft.implements PUnit.unit fun key _ => do
      implement e r key
      pure (.yield PUnit.unit)) run
      = (.ok ⟨⟩, run.enact (e.draft.implements.flatMap (implementScript a e r))) := by
  refine exec_forIn_enact (a := a) ?_ e.draft.implements hsk h
  intro key run' hsk' hready
  rw [← implementScript_congr hsk'] at hready ⊢
  rw [exec_bind_ok (exec_implement (ha.congr hsk') hready)]
  rfl

/-- **Linking a symbol with the symbols it overrides or implements.** -/
theorem exec_linkHierarchy {e : Entry} {r : SymbolRef} {run : Run} (hi : run.atlas.Indexed)
    (hr : (run.atlas.symbol? r).isSome) (h : Ready (hierarchyScript run.atlas e r) run.atlas) :
    exec (linkHierarchy e r) run = (.ok (), run.enact (hierarchyScript run.atlas e r)) := by
  obtain ⟨s, hs⟩ := Option.isSome_iff_exists.mp hr
  unfold hierarchyScript at h ⊢
  unfold linkHierarchy
  rw [exec_bind_ok (RunM.exec_onAtlas_ok (AtlasM.exec_read hs))]
  simp only [hs, Option.any_some, decide_eq_true_eq] at h ⊢
  by_cases hkind : s.kind = .type
  · -- a type is listed by its base and by its interfaces
    simp only [hkind, if_true] at h ⊢
    rw [exec_bind_ok (RunM.exec_find? e.draft.base run)]
    cases hbase : run.atlas.find? table e.draft.base with
    | none =>
        rw [hbase] at h
        dsimp only
        rw [exec_bind_ok (exec_forIn_implement hi rfl h)]
        rfl
    | some b =>
        have hsplit : Ready ([.implementation b r] ++
            e.draft.implements.flatMap (implementScript run.atlas e r)) run.atlas := by
          rw [hbase] at h
          exact h
        have hfirst : exec (RunM.onAtlas (AtlasM.addImplementation b (some r))) run
            = (.ok (), run.enact [.implementation b r]) := hsplit.left.perform
        have hskeleton := skeleton_changeAll [.implementation b r] run.atlas
        dsimp only
        rw [exec_bind_ok hfirst, exec_bind_ok (exec_forIn_implement hi hskeleton hsplit.enact)]
        show _ = (Except.ok (), run.enact ([.implementation b r] ++ _))
        rw [enact_append]
        rfl
  · -- a member names what it overrides
    simp only [hkind, if_false] at h ⊢
    by_cases ho : e.draft.overrides = ""
    · simp only [ho, if_true]
      rfl
    · simp only [ho, if_false] at h ⊢
      rw [exec_bind_ok (RunM.exec_find? e.draft.overrides run), exec_bind_ok (exec_get run)]
      cases hbase : run.atlas.find? table e.draft.overrides with
      | none =>
          rw [hbase] at h
          exact h.perform
      | some b =>
          rw [hbase] at h
          obtain ⟨t, ht, -⟩ := hi.symbol?_of_find? hbase
          cases hrefused : overrideRefusal? run.atlas e r (some b) with
          | some reason =>
              simp only [hrefused] at h ⊢
              exact h.perform
          | none =>
              simp only [hrefused, Option.toList_some, List.flatMap_singleton] at h ⊢
              exact exec_setOverridden (ne_of_overrideRefusal? hs ht hrefused) h

/-- **Binding an entry performs its script.** -/
theorem exec_bindEntry {e : Entry} {r : SymbolRef} {run : Run} (hi : run.atlas.Indexed)
    (hr : (run.atlas.symbol? r).isSome)
    (h : Ready (script run.atlas e r) run.atlas) :
    exec (bindEntry e r) run = (.ok (), run.enact (script run.atlas e r)) := by
  obtain ⟨s, hs⟩ := Option.isSome_iff_exists.mp hr
  unfold script at h ⊢
  unfold bindEntry
  rw [exec_bind_ok (RunM.exec_onAtlas_ok (AtlasM.exec_read hs)), exec_bind_ok (exec_attach h.left),
    enact_append]
  replace h := h.enact
  have hsk : (run.enact (attachScript e r)).atlas.skeleton = run.atlas.skeleton :=
    skeleton_changeAll _ _
  simp only [hs, Option.any_some] at h ⊢
  cases hb : s.bound with
  | true => rfl
  | false =>
      simp only [hb, Bool.false_eq_true, if_false, Bool.not_false, if_true] at h ⊢
      -- the symbol is still there, and keys lead where they led before
      set run₁ := run.enact (attachScript e r) with hrun₁
      have hr₁ : (run₁.atlas.symbol? r).isSome := by
        obtain ⟨s₁, hs₁, -⟩ := Atlas.exists_symbol_of_skeleton hsk.symm hs
        simp [hs₁]
      have hdeps : exec (dependencies e r (needs e) []) run₁ = (.ok (targets run.atlas e r),
          run₁.enact (((needs e).filterMap (unresolved? run.atlas e)).map .report)) := by
        rw [exec_dependencies (needs e) hr₁, enact_reports, funext (target?_congr hsk r),
          funext (unresolved?_congr hsk e)]
        rfl
      rw [exec_bind_ok hdeps, enact_append]
      replace h := h.enact
      set run₂ := run₁.enact (((needs e).filterMap (unresolved? run.atlas e)).map .report)
      have hset : exec (RunM.onAtlas (AtlasM.setDependencies r ((targets run.atlas e r).map some)))
          run₂ = (.ok (), run₂.enact [.dependencies r ((targets run.atlas e r).map some)]) :=
        h.left.perform
      rw [exec_bind_ok hset, enact_append]
      replace h := h.enact
      set run₃ := run₂.enact [.dependencies r ((targets run.atlas e r).map some)]
      have hsk₃ : run₃.atlas.skeleton = run.atlas.skeleton := by
        simp only [run₃, run₂, Run.enact, skeleton_changeAll]
        exact hsk
      have hr₃ : (run₃.atlas.symbol? r).isSome := by
        obtain ⟨s₃, hs₃, -⟩ := Atlas.exists_symbol_of_skeleton hsk₃.symm hs
        simp [hs₃]
      rw [← hierarchyScript_congr hsk₃] at h ⊢
      rw [exec_bind_ok (exec_linkHierarchy (hi.congr hsk₃) hr₃ h.left), enact_append]
      exact h.enact.perform

/-- Linking an entry with its template performs its script. -/
theorem exec_linkTemplate {e : Entry} {r : SymbolRef} {run : Run}
    (h : Ready (templateScript run.atlas e r) run.atlas) :
    exec (linkTemplate e r) run = (.ok (), run.enact (templateScript run.atlas e r)) := by
  unfold templateScript at h ⊢
  unfold linkTemplate
  by_cases ht : e.draft.template = ""
  · simp only [ht, if_true]
    rfl
  · simp only [ht, if_false] at h ⊢
    rw [exec_bind_ok (RunM.exec_find? e.draft.template run)]
    cases hfind : run.atlas.find? table e.draft.template with
    | none =>
        simp only [hfind] at h ⊢
        exact h.perform
    | some o =>
        simp only [hfind] at h ⊢
        exact RunM.exec_guarded_ok h.perform e

/-! ## What scripts write -/

theorem filterMap_slot?_reports (ds : List Diagnostic) :
    (ds.map Effect.report).filterMap Effect.slot? = [] := by
  induction ds with
  | nil => rfl
  | cons d ds ih => exact ih

theorem slots_templateScript (a : Atlas) (e : Entry) (r : SymbolRef) :
    ((templateScript a e r).filterMap Effect.slot?).Sublist [(.template, r)] := by
  unfold templateScript
  split
  · exact List.nil_sublist _
  · split
    · exact List.nil_sublist _
    · exact List.Sublist.refl _

theorem slots_implementScript (a : Atlas) (e : Entry) (r : SymbolRef) (key : String) :
    (implementScript a e r key).filterMap Effect.slot? = [] := by
  unfold implementScript
  split
  · rfl
  · split <;> rfl

theorem slots_hierarchyScript (a : Atlas) (e : Entry) (r : SymbolRef) :
    ((hierarchyScript a e r).filterMap Effect.slot?).Sublist [(.overridden, r)] := by
  unfold hierarchyScript
  split
  · -- only entries in lists of implementations and reports
    have hnone : (e.draft.implements.flatMap (implementScript a e r)).filterMap Effect.slot?
        = [] := by
      rw [List.filterMap_flatMap, List.flatMap_eq_nil_iff]
      exact fun key _ => slots_implementScript a e r key
    rw [List.filterMap_append, hnone, List.append_nil]
    cases a.find? table e.draft.base <;> exact List.nil_sublist _
  · split
    · exact List.nil_sublist _
    · split
      · exact List.nil_sublist _
      · cases a.find? table e.draft.overrides with
        | none => exact List.nil_sublist _
        | some b => exact List.Sublist.refl _

/-- **Binding an entry fills each slot of its symbol at most once**, and no other slot. -/
theorem slots_script (a : Atlas) (e : Entry) (r : SymbolRef) :
    ((script a e r).filterMap Effect.slot?).Sublist
      [(.attributes, r), (.dependencies, r), (.overridden, r), (.bound, r)] := by
  unfold script attachScript
  simp only [List.filterMap_append, filterMap_slot?_reports, List.nil_append]
  refine (List.Sublist.refl [(Slot.attributes, r)]).append ?_
  split
  · exact List.nil_sublist _
  · simp only [List.filterMap_append, filterMap_slot?_reports, List.nil_append]
    exact (List.Sublist.refl [(Slot.dependencies, r)]).append
      ((slots_hierarchyScript a e r).append (List.Sublist.refl [(Slot.bound, r)]))

theorem fits_templateScript {a : Atlas} {e : Entry} {r : SymbolRef} (hr : (a.symbol? r).isSome)
    (hself : a.find? table e.draft.template ≠ some r) :
    ∀ x ∈ templateScript a e r, x.Fits a := by
  intro x hx
  unfold templateScript at hx
  split at hx
  · simp at hx
  · split at hx
    · obtain rfl := List.mem_singleton.mp hx
      exact ⟨by simp [Effect.target?], by simp⟩
    · rename_i o ho
      obtain rfl := List.mem_singleton.mp hx
      refine ⟨fun q hq => ?_, fun q hq => ?_⟩
      · rw [← Option.some.inj hq]
        exact hr
      · obtain ⟨rfl, rfl⟩ := Effect.template.inj hq
        exact hself ho

theorem fits_implementation {a : Atlas} (ha : a.Indexed) {key : String} {t : SymbolRef}
    (ht : a.find? table key = some t) (r : SymbolRef) : (Effect.implementation t r).Fits a := by
  refine ⟨fun q hq => ?_, by simp⟩
  obtain ⟨s, hs, -⟩ := ha.symbol?_of_find? ht
  rw [← Option.some.inj hq, hs]
  rfl

theorem fits_implementScript {a : Atlas} (ha : a.Indexed) (e : Entry) (r : SymbolRef)
    (key : String) :
    ∀ x ∈ implementScript a e r key, x.Fits a := by
  intro x hx
  unfold implementScript at hx
  split at hx
  · simp at hx
  · rename_i t ht
    split at hx
    · rw [List.mem_singleton.mp hx]
      exact fits_implementation ha ht r
    · rw [List.mem_singleton.mp hx]
      exact ⟨by simp [Effect.target?], by simp⟩

theorem fits_hierarchyScript {a : Atlas} (ha : a.Indexed) {e : Entry} {r : SymbolRef}
    (hr : (a.symbol? r).isSome) :
    ∀ x ∈ hierarchyScript a e r, x.Fits a := by
  intro x hx
  unfold hierarchyScript at hx
  split at hx
  · -- a type writes to its base and to its interfaces, all of which were found
    rcases List.mem_append.mp hx with hx | hx
    · obtain ⟨b, hb, rfl⟩ := List.mem_map.mp hx
      exact fits_implementation ha (Option.mem_toList.mp hb) r
    · obtain ⟨key, -, hx⟩ := List.mem_flatMap.mp hx
      exact fits_implementScript ha e r key x hx
  · split at hx
    · simp at hx
    · split at hx
      · rw [List.mem_singleton.mp hx]
        exact ⟨by simp [Effect.target?], by simp⟩
      · -- a member writes to itself and to what it overrides
        obtain ⟨b, hb, hx⟩ := List.mem_flatMap.mp hx
        rcases List.mem_cons.mp hx with rfl | hx
        · exact ⟨fun q hq => by rw [← Option.some.inj hq]; exact hr, by simp⟩
        · rw [List.mem_singleton.mp hx]
          exact fits_implementation ha (Option.mem_toList.mp hb) r

/-- The symbols that binding an entry writes to are there. -/
theorem fits_script {a : Atlas} (ha : a.Indexed) {e : Entry} {r : SymbolRef}
    (hr : (a.symbol? r).isSome) :
    ∀ x ∈ script a e r, x.Fits a := by
  have hreport : ∀ (ds : List Diagnostic), ∀ x ∈ ds.map Effect.report, x.Fits a := by
    intro ds x hx
    obtain ⟨d, -, rfl⟩ := List.mem_map.mp hx
    exact ⟨by simp [Effect.target?], by simp⟩
  have hown : ∀ x : Effect, x.target? = some r → (∀ q, x ≠ .template q q) → x.Fits a := by
    intro x hx hne
    refine ⟨fun q hq => ?_, hne⟩
    rw [hx] at hq
    rw [← Option.some.inj hq]
    exact hr
  -- apart from the links to other symbols, a script reports and writes to its own symbol
  intro x hx
  unfold script attachScript at hx
  rcases List.mem_append.mp hx with hx | hx
  · rcases List.mem_append.mp hx with hx | hx
    · exact hreport _ x hx
    · rw [List.mem_singleton.mp hx]
      exact hown _ rfl (by simp)
  · split at hx
    · simp at hx
    · rcases List.mem_append.mp hx with hx | hx
      · exact hreport _ x hx
      · rcases List.mem_append.mp hx with hx | hx
        · rw [List.mem_singleton.mp hx]
          exact hown _ rfl (by simp)
        · rcases List.mem_append.mp hx with hx | hx
          · exact fits_hierarchyScript ha hr x hx
          · rw [List.mem_singleton.mp hx]
            exact hown _ rfl (by simp)

end SymbolAtlas.Binding
