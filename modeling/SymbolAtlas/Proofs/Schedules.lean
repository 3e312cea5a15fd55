import SymbolAtlas.Proofs.BagOrder
import SymbolAtlas.Proofs.WorkerPools

set_option autoImplicit false

/-! # What a run leaves does not depend on the schedule

Under every schedule the workers carry out the same plan and compute the same closures. So two runs
that end leave the same graph, up to the order of implementations and closures (`schedules_agree`).
Their bags hold the same reports. Every report is about one entry, whose key and place it names, so
sorting puts the reports into the same order. -/

namespace SymbolAtlas

/-- The two symbols are the same, up to the order of implementations and of the closure. -/
structure Symbol.Agrees (s t : Symbol) : Prop where
  skeleton : s.skeleton = t.skeleton
  attributes : s.attributes = t.attributes
  dependencies : s.dependencies = t.dependencies
  template : s.template = t.template
  overridden : s.overridden = t.overridden
  bound : s.bound = t.bound
  implementations : ∀ i, i ∈ s.implementations ↔ i ∈ t.implementations
  closure : Option.Rel (fun c d => ∀ q, q ∈ c ↔ q ∈ d) s.closure t.closure

theorem Symbol.Agrees.refl (s : Symbol) : s.Agrees s where
  skeleton := rfl
  attributes := rfl
  dependencies := rfl
  template := rfl
  overridden := rfl
  bound := rfl
  implementations := fun _ => Iff.rfl
  closure := by
    cases s.closure with
    | none => exact .none
    | some c => exact .some fun _ => Iff.rfl

/-- A symbol is what it is without its closure, with its closure. -/
theorem Symbol.eq_of_bare {s t : Symbol} (h : s.bare = t.bare) :
    s = { t with closure := s.closure } :=
  calc s = { s.bare with closure := s.closure } := rfl
    _ = { t.bare with closure := s.closure } := by rw [h]
    _ = { t with closure := s.closure } := rfl

/-- Symbols agree if they do without their closures, and their closures do. -/
theorem Symbol.Agrees.of_bare {s t s₀ t₀ : Symbol} (h : s₀.Agrees t₀) (hs : s₀.bare = s.bare)
    (ht : t₀.bare = t.bare)
    (hclosure : Option.Rel (fun c d => ∀ q, q ∈ c ↔ q ∈ d) s.closure t.closure) : s.Agrees t := by
  have hagrees : { s₀ with closure := s.closure }.Agrees { t₀ with closure := t.closure } :=
    ⟨h.skeleton, h.attributes, h.dependencies, h.template, h.overridden, h.bound, h.implementations,
      hclosure⟩
  rwa [← Symbol.eq_of_bare hs.symm, ← Symbol.eq_of_bare ht.symm] at hagrees

namespace Binding

open Manifest

/-- **The two runs leave the same results**: the symbols agree, as many closures were computed, and
the sorted reports are the same. -/
structure Run.Agrees (f g : Run) : Prop where
  symbols : ∀ r, Option.Rel Symbol.Agrees (f.atlas.symbol? r) (g.atlas.symbol? r)
  closures : (f.atlas.stats table).1 = (g.atlas.stats table).1
  reports : f.bag.sort.items = g.bag.sort.items

theorem Run.Agrees.of_eq {f g : Run} (hatlas : f.atlas = g.atlas) (hbag : f.bag = g.bag) :
    f.Agrees g := by
  refine ⟨fun r => ?_, by rw [hatlas], by rw [hbag]⟩
  rw [hatlas]
  cases g.atlas.symbol? r with
  | none => exact .none
  | some s => exact .some (.refl s)

/-! ## Reports -/

/-- The finding is about the entry: it names its key and its place, has no notes, and blames the
manifest. -/
structure About (e : Entry) (d : Diagnostic) : Prop where
  span : d.span = e.span
  subject : d.subject = e.key
  notes : d.notes = []
  code : d.code ≠ .internalError

theorem About.error {e : Entry} {code : Code} {message : String} (h : code ≠ .internalError) :
    About e (.error code e.span e.key message) :=
  ⟨rfl, rfl, rfl, h⟩

theorem About.warning {e : Entry} {code : Code} {message : String} (h : code ≠ .internalError) :
    About e (.warning code e.span e.key message) :=
  ⟨rfl, rfl, rfl, h⟩

/-- Reports on entries that compare equal are the same report. -/
theorem About.eq_of_compareItems {p : Program} (hp : p.WellFormed) {e e' : Entry}
    (he : e ∈ p.entries.toList) (he' : e' ∈ p.entries.toList) {d d' : Diagnostic} (hd : About e d)
    (hd' : About e' d') (heq : Bag.compareItems d d' = .eq) : d = d' := by
  obtain ⟨-, -, hseverity, hcode, hsubject, hmessage⟩ := Bag.compareItems_eq_iff.mp heq
  obtain rfl : e = e' := entry_eq_of_key hp he he' (by rw [← hd.subject, hsubject, hd'.subject])
  have hspan : d.span = d'.span := hd.span.trans hd'.span.symm
  have hnotes : d.notes = d'.notes := hd.notes.trans hd'.notes.symm
  cases d
  cases d'
  rw [Diagnostic.mk.injEq]
  exact ⟨hseverity, hcode, hmessage, hspan, hsubject, hnotes⟩

/-- Everything that the effects report is about the entry. -/
def Tells (e : Entry) (xs : List Effect) : Prop :=
  ∀ x ∈ xs, ∀ d ∈ x.reports, About e d

namespace Tells

variable {e : Entry}

theorem append {xs ys : List Effect} (hx : Tells e xs) (hy : Tells e ys) : Tells e (xs ++ ys) := by
  intro x h
  rcases List.mem_append.mp h with h | h
  · exact hx x h
  · exact hy x h

theorem flatMap {γ : Type} {keys : List γ} {f : γ → List Effect} (hf : ∀ k, Tells e (f k)) :
    Tells e (keys.flatMap f) := by
  intro x h
  obtain ⟨k, -, hx⟩ := List.mem_flatMap.mp h
  exact hf k x hx

theorem silent {xs : List Effect} (hx : ∀ x ∈ xs, x.reports = []) : Tells e xs := by
  intro x h d hd
  rw [hx x h] at hd
  cases hd

theorem reports {ds : List Diagnostic} (hd : ∀ d ∈ ds, About e d) : Tells e (ds.map .report) := by
  intro x h d hx
  obtain ⟨d', hd', rfl⟩ := List.mem_map.mp h
  obtain rfl : d = d' := List.mem_singleton.mp hx
  exact hd d hd'

theorem report {d : Diagnostic} (hd : About e d) : Tells e [.report d] := by
  have hall : ∀ x ∈ [d], About e x := by
    intro x hx
    rw [List.mem_singleton.mp hx]
    exact hd
  exact reports hall

end Tells

theorem tells_templateScript (a : Atlas) (e : Entry) (r : SymbolRef) :
    Tells e (templateScript a e r) := by
  unfold templateScript
  split
  · exact .silent (by simp)
  · split
    · exact .report (.error (by decide))
    · exact .silent (by simp [Effect.reports])

theorem tells_hierarchyScript (a : Atlas) (e : Entry) (r : SymbolRef) :
    Tells e (hierarchyScript a e r) := by
  have himplement : ∀ key, Tells e (implementScript a e r key) := by
    intro key
    unfold implementScript
    split
    · exact .silent (by simp)
    · split
      · exact .silent (by simp [Effect.reports])
      · exact .report (.error (by decide))
  unfold hierarchyScript
  split
  · exact (Tells.silent (by simp [Effect.reports])).append (.flatMap himplement)
  · split
    · exact .silent (by simp)
    · split
      · exact .report (.error (by decide))
      · exact .flatMap fun b => .silent (by simp [Effect.reports])

/-- **Binding an entry reports about that entry only.** -/
theorem tells_script (a : Atlas) (e : Entry) (r : SymbolRef) : Tells e (script a e r) := by
  have hattributes : ∀ d ∈ attributeReports e, About e d := by
    intro d hd
    obtain ⟨_, -, h⟩ := List.mem_filterMap.mp hd
    split at h
    · cases h
    · obtain rfl := Option.some.inj h
      exact .warning (by decide)
  have hunresolved : ∀ d ∈ (needs e).filterMap (unresolved? a e), About e d := by
    intro d hd
    obtain ⟨need, -, h⟩ := List.mem_filterMap.mp hd
    cases need with
    | containing => cases h
    | key k =>
        rw [unresolved?] at h
        split at h
        · cases h
        · obtain rfl := Option.some.inj h
          exact .error (by decide)
  -- the script in its parts, of which only three report
  unfold script attachScript
  refine ((Tells.reports hattributes).append (.silent (by simp [Effect.reports]))).append ?_
  split
  · exact .silent (by simp)
  · exact (Tells.reports hunresolved).append ((Tells.silent (by simp [Effect.reports])).append
      ((tells_hierarchyScript a e r).append (.silent (by simp [Effect.reports]))))

/-- What the plan reports is about entries of the program. -/
theorem about_plan {p : Program} {a : Atlas} {d : Diagnostic}
    (hd : d ∈ (plan p a).flatMap Effect.reports) : ∃ e ∈ p.entries.toList, About e d := by
  obtain ⟨x, hx, hd⟩ := List.mem_flatMap.mp hd
  rcases List.mem_append.mp hx with hx | hx
  · obtain ⟨m, hm, hx⟩ := List.mem_flatMap.mp hx
    exact ⟨m.1, (mem_roster.mp hm).1, tells_templateScript a m.1 m.2 x hx d hd⟩
  · obtain ⟨m, hm, hx⟩ := List.mem_flatMap.mp hx
    exact ⟨m.1, (mem_roster.mp hm).1, tells_script a m.1 m.2 x hx d hd⟩

/-! ## Results -/

/-- Two symbols that the same effects have written to agree. -/
theorem Written.agrees {done : List Effect} {r : SymbolRef} {s t : Symbol} (hs : Written done r s)
    (ht : Written done r t) (hsk : s.skeleton = t.skeleton) : s.Agrees t where
  skeleton := hsk
  attributes := Option.ext fun v => (hs.attributes v).trans (ht.attributes v).symm
  dependencies := Option.ext fun v => (hs.dependencies v).trans (ht.dependencies v).symm
  template := Option.ext fun v => (hs.template v).trans (ht.template v).symm
  overridden := Option.ext fun v => (hs.overridden v).trans (ht.overridden v).symm
  bound := by
    have hflags : s.flags = t.flags := congrArg (fun sk => sk.2.1) hsk
    rw [Bool.eq_iff_iff, hs.bound, ht.bound, Symbol.isExternal, Symbol.isExternal, hflags]
  implementations := fun i => (hs.implementations i).trans (ht.implementations i).symm
  closure := by
    rw [hs.closure, ht.closure]
    exact .none

/-- **What a run of a program leaves**, if `a` is the atlas of the declared program: everything in
the plan was done, then every closure was computed once, and the bag holds what the plan reports. -/
structure Outcome (p : Program) (a : Atlas) (f : Run) : Prop where
  closed : ∃ b, BoundFrom p a b ∧ Closing b ((roster p b).map Prod.snd) f.atlas
  reports : f.bag.items.Perm ((plan p a).flatMap Effect.reports)
  error : f.error = none

section Agreement

variable {p : Program} {a : Atlas}

/-- Bound atlases of a program have the same graph. -/
theorem BoundFrom.dependsOn {b b' : Atlas} (hb : BoundFrom p a b) (hb' : BoundFrom p a b')
    {x y : SymbolRef} (h : b.DependsOn x y) : b'.DependsOn x y := by
  obtain ⟨s, hs, hy⟩ := h
  obtain ⟨t, ht, hsk⟩ := Atlas.exists_symbol_of_skeleton (hb.skeleton.trans hb'.skeleton.symm) hs
  have hdeps := ((hb.written x s hs).agrees (hb'.written x t ht) hsk).dependencies
  refine ⟨t, ht, ?_⟩
  unfold Symbol.direct at hy ⊢
  rwa [← hdeps]

theorem BoundFrom.reaches {b b' : Atlas} (hb : BoundFrom p a b) (hb' : BoundFrom p a b')
    {x y : SymbolRef} (h : b.Reaches x y) : b'.Reaches x y :=
  Relation.TransGen.mono (fun _ _ hd => hb.dependsOn hb' hd) x y h

/-- The closures of a symbol hold the same symbols. -/
theorem closure_agrees {b b' c c' : Atlas} (hb : BoundFrom p a b) (hb' : BoundFrom p a b')
    (hl : Layout p b) (hl' : Layout p b') (hc : Closing b ((roster p b).map Prod.snd) c)
    (hc' : Closing b' ((roster p b').map Prod.snd) c') {r : SymbolRef} {s t : Symbol}
    (hs : c.symbol? r = some s) (ht : c'.symbol? r = some t) :
    Option.Rel (fun c d => ∀ q, q ∈ c ↔ q ∈ d) s.closure t.closure := by
  have hkept : ∀ {b c : Atlas} {s : Symbol}, Layout p b → Closing b ((roster p b).map Prod.snd) c →
      c.symbol? r = some s → ∃ k, s.closure = some k ∧ ∀ q, q ∈ k ↔ q ≠ r ∧ b.Reaches r q := by
    intro b c s hl hc hs
    obtain ⟨s₀, hs₀, -⟩ := hc.same.symm.symbol hs
    have hsome : s.closure.isSome := by
      rw [hc.closed_iff hs, mem_roster_symbols hl, hs₀]
      rfl
    obtain ⟨k, hk⟩ := Option.isSome_iff_exists.mp hsome
    refine ⟨k, hk, fun q => ?_⟩
    rw [(hc.settled.coherent.isClosure hs hk).mem_iff, hc.same.reaches_iff]
  obtain ⟨k, hk, hmem⟩ := hkept hl hc hs
  obtain ⟨k', hk', hmem'⟩ := hkept hl' hc' ht
  rw [hk, hk']
  refine .some fun q => ?_
  rw [hmem, hmem']
  exact and_congr_right fun _ => ⟨hb.reaches hb', hb'.reaches hb⟩

variable (hp : p.WellFormed) (hd : Declared p a) {f g : Run} (hf : Outcome p a f)
    (hg : Outcome p a g)

include hp hd hf hg

/-- **Results of the same program agree.** -/
theorem Outcome.agrees : f.Agrees g := by
  obtain ⟨b, hb, hc⟩ := hf.closed
  obtain ⟨b', hb', hc'⟩ := hg.closed
  have hsk : b.skeleton = b'.skeleton := hb.skeleton.trans hb'.skeleton.symm
  refine ⟨fun r => ?_, ?_, ?_⟩
  · have hboth : (f.atlas.symbol? r).map Symbol.skeleton
        = (g.atlas.symbol? r).map Symbol.skeleton :=
      Atlas.symbol?_skeleton_eq (hc.skeleton.trans (hsk.trans hc'.skeleton.symm)) r
    cases hs : f.atlas.symbol? r with
    | none =>
        rw [hs] at hboth
        rw [Option.map_eq_none_iff.mp hboth.symm]
        exact .none
    | some s =>
        rw [hs] at hboth
        obtain ⟨t, ht, hst⟩ := Option.map_eq_some_iff.mp hboth.symm
        rw [ht]
        -- before the closures were computed, the plan had written to the symbol
        obtain ⟨s₀, hs₀, hbare⟩ := hc.same.symm.symbol hs
        obtain ⟨t₀, ht₀, hbare'⟩ := hc'.same.symm.symbol ht
        have hskeleton : s₀.bare.skeleton = t₀.bare.skeleton := by
          rw [hbare, hbare']
          exact hst.symm
        have hbefore := (hb.written r s₀ hs₀).agrees (hb'.written r t₀ ht₀) hskeleton
        exact .some (hbefore.of_bare hbare hbare' (closure_agrees hb hb'
          (hd.layout.congr hb.skeleton) (hd.layout.congr hb'.skeleton) hc hc' hs ht))
  · rw [hc.count, hc'.count, roster_eq_of_skeleton hsk]
  · refine Bag.sort_eq_of_perm (hf.reports.trans hg.reports.symm) ?_
    intro x hx y hy heq
    obtain ⟨e, he, hxe⟩ := about_plan (hf.reports.mem_iff.mp hx)
    obtain ⟨e', he', hye⟩ := about_plan (hf.reports.mem_iff.mp hy)
    exact About.eq_of_compareItems hp he he' hxe hye heq

end Agreement

/-! ## Schedules -/

theorem limit_empty {n : Int} (hn : n ≤ 0) : (Bag.empty n).limit = 0 :=
  Int.toNat_of_nonpos hn

section Workers

variable {p : Program} (hp : p.WellFormed)
  (hself : ∀ e ∈ p.entries.toList, e.draft.template ≠ e.key) {a : Atlas} (hd : Declared p a)
  {d : Run} {bag : Bag} (hat : d.At p false (changeAll (linkPlan p a) a) bag)

include hp hself hd hat

/-- What the binding workers find: the whole plan can be carried out. -/
theorem plan_before_binding : d.atlas.skeleton = a.skeleton ∧ Ready (bindPlan p a) d.atlas ∧
    (roster d.program d.atlas).flatMap (fun m => script a m.1 m.2) = bindPlan p a := by
  have hsk : d.atlas.skeleton = a.skeleton := by
    rw [hat.atlas]
    exact skeleton_changeAll _ a
  refine ⟨hsk, ?_, ?_⟩
  · rw [hat.atlas]
    exact (ready_plan hp hself hd).right
  · rw [hat.program, roster_eq_of_skeleton hsk]
    rfl

/-- What the binding workers leave, under every schedule. -/
theorem bound_of_stageUnder {turns : List Nat} {m : Run}
    (hm : binding.stageUnder turns d = some m) :
    ∃ done, m = d.enact done ∧ done.Perm (bindPlan p a) ∧ BoundFrom p a m.atlas := by
  obtain ⟨hsk, hready, hplan⟩ := plan_before_binding hp hself hd hat
  obtain ⟨done, rfl, hperm⟩ :=
    stageUnder_binding hd.fresh hsk hat.canceled hat.error hready hplan hm
  have hall := boundFrom_of_perm hp hd (hperm.append_left (linkPlan p a))
  rw [changeAll_append, ← hat.atlas] at hall
  exact ⟨done, rfl, hperm, hall⟩

/-- **There are schedules** under which the workers bind and close every entry. -/
theorem exists_stages : ∃ binds closes m f, binding.stageUnder binds d = some m ∧
    closing.stageUnder closes m = some f := by
  obtain ⟨hsk, hready, hplan⟩ := plan_before_binding hp hself hd hat
  obtain ⟨binds, m, hm⟩ := complete_binding hd.fresh hsk hat.canceled hat.error hready hplan
    (show binding.follow (Work.pool d) [] = some _ from rfl)
  obtain ⟨done, rfl, -, hfrom⟩ := bound_of_stageUnder hp hself hd hat hm
  obtain ⟨closes, f, hf⟩ := complete_closing (d := d.enact done) hat.program hat.canceled hat.error
    (hd.layout.congr hfrom.skeleton) (hfrom.closing hp hd)
    (show closing.follow (Work.pool (d.enact done)) [] = some _ from rfl)
  exact ⟨_, _, _, f, hm, hf⟩

/-- **What the workers leave**, under every schedule that ends. -/
theorem outcome_of_stageUnder {n : Int} (hn : n ≤ 0)
    (hbag : bag = (Bag.empty n).addAll ((linkPlan p a).flatMap Effect.reports))
    {binds closes : List Nat} {m f : Run} (hm : binding.stageUnder binds d = some m)
    (hf : closing.stageUnder closes m = some f) : Outcome p a f := by
  obtain ⟨done, rfl, hperm, hfrom⟩ := bound_of_stageUnder hp hself hd hat hm
  obtain ⟨c, rfl, hc⟩ :=
    stageUnder_closing hp (d := d.enact done) hat.program hat.canceled hat.error
    (hd.layout.congr hfrom.skeleton) (hfrom.closing hp hd) hf
  refine ⟨⟨_, hfrom, hc⟩, ?_, hat.error⟩
  have hitems : (d.enact done).bag.items = (linkPlan p a ++ done).flatMap Effect.reports := by
    show (d.bag.addAll (done.flatMap Effect.reports)).items = _
    rw [hat.bag, hbag, ← Bag.addAll_append, ← List.flatMap_append,
      Bag.addAll_unlimited (limit_empty hn)]
    rfl
  show (d.enact done).bag.items.Perm _
  rw [hitems]
  exact (hperm.append_left (linkPlan p a)).flatMap_right Effect.reports

end Workers

/-- **Two schedules lead to the same results.** The program was read, no entry names itself as its
template, and the bag has no limit. There are schedules under which all workers come to an end, and
whatever the order in which the workers take their steps, the runs that end agree: every symbol has
the same attributes, dependencies, template, overridden member and mark, the same implementations
and the same closure as sets, as many closures were computed, and the sorted reports are the
same. -/
theorem schedules_agree {fs : FileSet} {id : UInt32} {p : Program} {reports : List Diagnostic}
    (h : decodeFile fs id = (.ok p, reports))
    (hself : ∀ e ∈ p.entries.toList, e.draft.template ≠ e.key) {o : Options}
    (ho : o.maxDiagnostics ≤ 0) (trace : Trace) :
    (∃ binds closes f, runUnder p o trace binds closes = some f) ∧
    ∀ {binds binds' closes closes' : List Nat} {f g : Run},
      runUnder p o trace binds closes = some f → runUnder p o trace binds' closes' = some g →
      f.Agrees g := by
  have hp := wellFormed_of_decodeFile h
  obtain ⟨a, refs, hd, hdeclare⟩ := exists_declared hp o.filterCache
  have hat := stage_declareAll hp hself hd hdeclare (start_at p o trace)
  unfold runUnder
  set d := stage "declare" declareAll (start p o trace)
  cases hcanceled : o.canceled with
  | true =>
      have hc : d.canceled = true := hat.canceled.trans hcanceled
      constructor
      · obtain ⟨binds, m, hm⟩ := Work.complete_canceled binding hc
        obtain ⟨-, -, hc'⟩ := Work.stageUnder_canceled hm hc
        obtain ⟨closes, f, hf⟩ := Work.complete_canceled closing hc'
        exact ⟨binds, closes, f, Option.bind_eq_some_iff.mpr ⟨m, hm, hf⟩⟩
      · -- nothing happens after the program is declared
        have hidle : ∀ {binds closes : List Nat} {f : Run},
            (binding.stageUnder binds d).bind (closing.stageUnder closes) = some f →
            f.atlas = d.atlas ∧ f.bag = d.bag := by
          intro binds closes f hf
          obtain ⟨m, hm, hclose⟩ := Option.bind_eq_some_iff.mp hf
          obtain ⟨hatlas, hbag, hc'⟩ := Work.stageUnder_canceled hm hc
          obtain ⟨hatlas', hbag', -⟩ := Work.stageUnder_canceled hclose hc'
          exact ⟨hatlas'.trans hatlas, hbag'.trans hbag⟩
        intro binds binds' closes closes' f g hf hg
        obtain ⟨hatlas, hbag⟩ := hidle hf
        obtain ⟨hatlas', hbag'⟩ := hidle hg
        exact .of_eq (hatlas.trans hatlas'.symm) (hbag.trans hbag'.symm)
  | false =>
      rw [hcanceled] at hat
      constructor
      · obtain ⟨binds, closes, m, f, hm, hf⟩ := exists_stages hp hself hd hat
        exact ⟨binds, closes, f, Option.bind_eq_some_iff.mpr ⟨m, hm, hf⟩⟩
      · intro binds binds' closes closes' f g hf hg
        obtain ⟨m, hm, hf⟩ := Option.bind_eq_some_iff.mp hf
        obtain ⟨m', hm', hg⟩ := Option.bind_eq_some_iff.mp hg
        exact (outcome_of_stageUnder hp hself hd hat ho rfl hm hf).agrees hp hd
          (outcome_of_stageUnder hp hself hd hat ho rfl hm' hg)

/-- Turns that go round `n` times in the given order. -/
def rounds (n : Nat) (order : List Nat) : List Nat :=
  (List.replicate n order).flatten

theorem schedules_agree_circular :
    decodeFile circularFiles 1 = (.ok circularProgram, (decodeFile circularFiles 1).2) ∧
    (∀ e ∈ circularProgram.entries.toList, e.draft.template ≠ e.key) ∧
    ∃ f g, runUnder circularProgram {} ⟨.nop, 0, 0, {}⟩ (rounds 5 [0, 1, 2] ++ [0, 2])
        (rounds 7 [0, 1, 2] ++ [1]) = some f ∧
      runUnder circularProgram {} ⟨.nop, 0, 0, {}⟩ (rounds 5 [2, 1, 0] ++ [2, 0])
        (rounds 7 [2, 1, 0] ++ [1]) = some g ∧ f.Agrees g := by
  obtain ⟨f, hf⟩ := Option.isSome_iff_exists.mp (show (runUnder circularProgram {} ⟨.nop, 0, 0, {}⟩
    (rounds 5 [0, 1, 2] ++ [0, 2]) (rounds 7 [0, 1, 2] ++ [1])).isSome = true by decide +kernel)
  obtain ⟨g, hg⟩ := Option.isSome_iff_exists.mp (show (runUnder circularProgram {} ⟨.nop, 0, 0, {}⟩
    (rounds 5 [2, 1, 0] ++ [2, 0]) (rounds 7 [2, 1, 0] ++ [1])).isSome = true by decide +kernel)
  exact ⟨decodeFile_circular, template_ne_key_circular, f, g, hf, hg,
    (schedules_agree decodeFile_circular template_ne_key_circular (by decide) _).2 hf hg⟩

/-- **Workers do what the run without workers does**, and no schedule makes them fail. -/
theorem runUnder_agrees_run {fs : FileSet} {id : UInt32} {p : Program} {reports : List Diagnostic}
    (h : decodeFile fs id = (.ok p, reports))
    (hself : ∀ e ∈ p.entries.toList, e.draft.template ≠ e.key) {o : Options}
    (ho : o.maxDiagnostics ≤ 0) (hcanceled : o.canceled = false) {trace : Trace}
    {binds closes : List Nat} {f : Run} (hf : runUnder p o trace binds closes = some f) :
    f.error = none ∧ f.Agrees (run p o trace) := by
  have hp := wellFormed_of_decodeFile h
  obtain ⟨a, refs, hd, hdeclare⟩ := exists_declared hp o.filterCache
  have hat := stage_declareAll hp hself hd hdeclare (start_at p o trace)
  rw [hcanceled] at hat
  obtain ⟨m, hm, hf⟩ := Option.bind_eq_some_iff.mp hf
  have hworkers := outcome_of_stageUnder hp hself hd hat ho rfl hm hf
  have halone : Outcome p a (run p o trace) := by
    obtain ⟨b, c, hb, hc, hend⟩ := run_at hp hself hcanceled trace hd hdeclare
    refine ⟨⟨b, hb, hend.atlas ▸ hc⟩, ?_, hend.error⟩
    rw [hend.bag, Bag.addAll_unlimited (limit_empty ho)]
    exact .refl _
  exact ⟨hworkers.error, hworkers.agrees hp hd halone⟩

end Binding

end SymbolAtlas
