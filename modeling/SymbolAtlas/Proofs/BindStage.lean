import SymbolAtlas.Proofs.Scripts

set_option autoImplicit false

/-! # Binding a program

What the stages of a run are going to do to a declared program is a list of effects, `linkPlan`
followed by `bindPlan`. No slot is filled twice by it (`compatible_plan`), because every entry has a
symbol of its own, so the stages succeed (`exec_declareAll`, `exec_bindAll`) and leave what the plan
says. -/

namespace SymbolAtlas.Binding

open Manifest

/-- The program is declared and nothing else has happened yet. -/
structure Declared (p : Program) (a : Atlas) : Prop where
  layout : Layout p a
  fresh : WrittenBy [] a
  closures : (a.stats table).1 = 0

/-- The effects of linking all templates. -/
def linkPlan (p : Program) (a : Atlas) : List Effect :=
  (roster p a).flatMap fun m => templateScript a m.1 m.2

/-- The effects of binding all entries. -/
def bindPlan (p : Program) (a : Atlas) : List Effect :=
  (roster p a).flatMap fun m => script a m.1 m.2

/-! ## The plan can be carried out -/

/-- Lists of slots that belong to different symbols are disjoint. -/
theorem nodup_slots_flatMap {ms : List (Entry × SymbolRef)} (hms : (ms.map Prod.snd).Nodup)
    {f : Entry × SymbolRef → List Effect} (kinds : List Slot) (hkinds : kinds.Nodup)
    (hf : ∀ m, ((f m).filterMap Effect.slot?).Sublist (kinds.map fun k => (k, m.2))) :
    ((ms.flatMap f).filterMap Effect.slot?).Nodup := by
  rw [List.filterMap_flatMap, List.nodup_flatMap]
  refine ⟨fun m _ => ?_, ?_⟩
  · exact (hkinds.map fun k k' h => (Prod.mk.inj h).1).sublist (hf m)
  · have hsnd : ∀ m k, k ∈ (f m).filterMap Effect.slot? → k.2 = m.2 := by
      intro m k hk
      obtain ⟨kind, -, rfl⟩ := List.mem_map.mp ((hf m).subset hk)
      rfl
    refine (List.pairwise_map.mp hms).imp ?_
    intro m m' hne k hk hk'
    exact hne ((hsnd m k hk).symm.trans (hsnd m' k hk'))

/-- **No slot is filled twice** by what a run does to a declared program. -/
theorem compatible_plan {p : Program} (hp : p.WellFormed) {a : Atlas} (hl : Layout p a) :
    Compatible [] (linkPlan p a ++ bindPlan p a) := by
  unfold Compatible
  rw [List.nil_append, List.filterMap_append]
  refine List.Nodup.append ?_ ?_ ?_
  · exact nodup_slots_flatMap (nodup_roster hp hl) [.template] (by decide)
      fun m => slots_templateScript a m.1 m.2
  · exact nodup_slots_flatMap (nodup_roster hp hl)
      [.attributes, .dependencies, .overridden, .bound] (by decide) fun m => slots_script a m.1 m.2
  · -- templates are linked by one plan and everything else is done by the other
    intro k hk hk'
    unfold linkPlan at hk
    unfold bindPlan at hk'
    rw [List.filterMap_flatMap, List.mem_flatMap] at hk hk'
    obtain ⟨m, -, hm⟩ := hk
    obtain ⟨m', -, hm'⟩ := hk'
    have h := List.mem_singleton.mp ((slots_templateScript a m.1 m.2).subset hm)
    have h' := (slots_script a m'.1 m'.2).subset hm'
    rw [h] at h'
    simp at h'

/-- An entry that does not name itself as its template can be linked. -/
theorem fits_link {p : Program} {a : Atlas} (hl : Layout p a) {m : Entry × SymbolRef}
    (hm : m ∈ roster p a)
    (hself : m.1.draft.template ≠ m.1.key) : ∀ x ∈ templateScript a m.1 m.2, x.Fits a := by
  obtain ⟨-, hr⟩ := mem_roster.mp hm
  obtain ⟨s, hs, -⟩ := hl.indexed.symbol?_of_find? hr
  exact fits_templateScript (by simp [hs]) fun ht => hself (hl.key_inj ht hr)

/-- **What a run is going to do to a declared program can be done**, if no entry names itself as its
template. -/
theorem ready_plan {p : Program} (hp : p.WellFormed)
    (hself : ∀ e ∈ p.entries.toList, e.draft.template ≠ e.key) {a : Atlas} (hd : Declared p a) :
    Ready (linkPlan p a ++ bindPlan p a) a := by
  refine ⟨[], hd.fresh, ?_, compatible_plan hp hd.layout⟩
  intro x hx
  rcases List.mem_append.mp hx with hx | hx
  · obtain ⟨m, hm, hx⟩ := List.mem_flatMap.mp hx
    exact fits_link hd.layout hm (hself m.1 (mem_roster.mp hm).1) x hx
  · obtain ⟨⟨e, r⟩, hm, hx⟩ := List.mem_flatMap.mp hx
    obtain ⟨s, hs, -⟩ := hd.layout.indexed.symbol?_of_find? (mem_roster.mp hm).2
    exact fits_script hd.layout.indexed (by simp [hs]) x hx

/-- A symbol is bound exactly if it is external or was marked. -/
theorem any_bound_eq {done : List Effect} {a : Atlas} (h : WrittenBy done a) {r : SymbolRef}
    (hnot : .bound r ∉ done) :
    (a.symbol? r).any Symbol.bound = (a.symbol? r).any Symbol.isExternal := by
  cases hs : a.symbol? r with
  | none => rfl
  | some s =>
      have hb := (h r s hs).bound
      rw [Bool.eq_iff_iff]
      simpa [hnot] using hb

theorem bound_mem_script {a : Atlas} {e : Entry} {r : SymbolRef} :
    .bound r ∈ script a e r ↔ (a.symbol? r).any Symbol.bound = false := by
  unfold script attachScript
  cases (a.symbol? r).any Symbol.bound <;> simp

/-- **The script of an entry does not change before the symbol is marked bound.** Until then the
mark is that of the declaration. -/
theorem script_eq_of_ready {a b : Atlas} (ha : WrittenBy [] a) {e : Entry} {r : SymbolRef}
    (hsk : b.skeleton = a.skeleton) {xs : List Effect}
    (hxs : .bound r ∈ script a e r → .bound r ∈ xs) (h : Ready xs b) :
    script b e r = script a e r := by
  refine script_congr hsk e r ?_
  have hext : (b.symbol? r).any Symbol.isExternal = (a.symbol? r).any Symbol.isExternal :=
    any_eq_of_skeleton hsk (f := fun sk => sk.2.1.meets .external) r
  have hold := any_bound_eq ha (r := r) List.not_mem_nil
  obtain ⟨done, hw, -, hc⟩ := h
  by_cases hdone : Effect.bound r ∈ done
  · -- then the script does not mark the symbol, because it is external
    have hbound : (a.symbol? r).any Symbol.bound = true := by
      by_contra hb
      have hmem : (Slot.bound, r) ∈ xs.filterMap Effect.slot? :=
        List.mem_filterMap.mpr ⟨.bound r, hxs (bound_mem_script.mpr (by simpa using hb)), rfl⟩
      have hmem' : (Slot.bound, r) ∈ done.filterMap Effect.slot? :=
        List.mem_filterMap.mpr ⟨.bound r, hdone, rfl⟩
      unfold Compatible at hc
      rw [List.filterMap_append] at hc
      exact List.disjoint_of_nodup_append hc hmem' hmem
    rw [hbound]
    rw [hbound, ← hext] at hold
    cases hs : b.symbol? r with
    | none => simp [hs] at hold
    | some s => simp [(hw r s hs).bound, hdone]
  · rw [any_bound_eq hw hdone, hext, hold]

/-- The mark of a bound symbol is the last effect of its script. -/
theorem bound_mem_drop_script {a : Atlas} {e : Entry} {r : SymbolRef} (h : .bound r ∈ script a e r)
    {k : Nat} (hk : k < (script a e r).length) : .bound r ∈ (script a e r).drop k := by
  rw [bound_mem_script] at h
  obtain ⟨xs, hxs⟩ : ∃ xs, script a e r = xs ++ [.bound r] := by
    unfold script
    rw [h, if_neg (by decide), ← List.append_assoc, ← List.append_assoc, ← List.append_assoc]
    exact ⟨_, rfl⟩
  rw [hxs, List.length_append, List.length_singleton] at hk
  rw [hxs, List.drop_append_of_le_length (by omega)]
  exact List.mem_append_right _ (List.mem_singleton_self _)

theorem length_script_le {a b : Atlas} (ha : WrittenBy [] a) {done : List Effect}
    (hb : WrittenBy done b) (hsk : b.skeleton = a.skeleton) (e : Entry) (r : SymbolRef) :
    (script b e r).length ≤ (script a e r).length := by
  have hext : (b.symbol? r).any Symbol.isExternal = (a.symbol? r).any Symbol.isExternal :=
    any_eq_of_skeleton hsk (f := fun sk => sk.2.1.meets .external) r
  by_cases hbound : (b.symbol? r).any Symbol.bound = true
  · unfold script
    rw [if_pos hbound, List.append_nil, List.length_append]
    omega
  · -- a symbol that is not bound is not external, so it was not bound before
    rw [script_congr hsk e r]
    rw [any_bound_eq ha List.not_mem_nil, ← hext, Bool.eq_iff_iff]
    refine ⟨fun h => absurd h hbound, fun h => ?_⟩
    cases hs : b.symbol? r with
    | none => simp [hs] at h
    | some s =>
        rw [hs] at h
        exact (hb r s hs).bound.mpr (Or.inl h)

/-! ## Declaring -/

/-- **A well-formed program gets declared**, and the atlas that results depends on nothing else. -/
theorem exists_declared {p : Program} (hp : p.WellFormed) (capacity : Int) :
    ∃ a refs, Declared p a ∧ ∀ run : Run, run.atlas = ⟨#[.empty capacity]⟩ →
      exec (declareFrom p.outline p.entries.toList 0) run
        = (.ok refs, { run with atlas := a }) := by
  have hempty : Follows p (.empty capacity) := by
    refine ⟨Table.indexed_empty capacity, ?_⟩
    intro n s hs
    rw [Table.get?_empty] at hs
    cases hs
  obtain ⟨refs, t, hrun, hf, hg, hfound⟩ := exec_declareFrom hp p.entries.toList (i := 0)
    (fun k e he => by
      rw [Nat.zero_add, ← Array.getElem?_toList]
      exact he) hempty
  refine ⟨⟨#[t]⟩, refs, ⟨layout_of_follows hp hf hfound, ?_, ?_⟩, hrun⟩
  · -- no slot of a symbol is filled when it is declared
    intro r s hs
    unfold Atlas.symbol? at hs
    obtain ⟨t', ht', hget⟩ := Option.bind_eq_some_iff.mp hs
    obtain rfl : t' = t := by
      have := Array.mem_of_getElem? ht'
      simpa using this
    obtain ⟨e, -, rfl, -⟩ := hf.entry hget
    exact Written.ofDeclaration _ _
  · exact hg.closures

theorem exec_forIn_linkTemplate {a : Atlas} (ms : List (Entry × SymbolRef)) (run : Run)
    (hsk : run.atlas.skeleton = a.skeleton)
    (h : Ready (ms.flatMap fun m => templateScript a m.1 m.2) run.atlas) :
    exec (forIn ms PUnit.unit fun m _ => do
      linkTemplate m.1 m.2
      pure (.yield PUnit.unit)) run
      = (.ok ⟨⟩, run.enact (ms.flatMap fun m => templateScript a m.1 m.2)) := by
  refine exec_forIn_enact ?_ ms hsk h
  rintro ⟨e, r⟩ run' hsk' h'
  rw [← templateScript_congr hsk'] at h' ⊢
  dsimp only at h' ⊢
  rw [exec_bind_ok (exec_linkTemplate h')]
  rfl

/-- **The stage that declares** leaves the declared atlas with its templates linked. -/
theorem exec_declareAll {p : Program} (hp : p.WellFormed)
    (hself : ∀ e ∈ p.entries.toList, e.draft.template ≠ e.key) {capacity : Int} {a : Atlas}
    (hd : Declared p a) {refs : List SymbolRef}
    (hdeclare : ∀ run : Run, run.atlas = ⟨#[.empty capacity]⟩ →
      exec (declareFrom p.outline p.entries.toList 0) run = (.ok refs, { run with atlas := a }))
    (span : TraceSpan) {run : Run} (hprogram : run.program = p)
    (hatlas : run.atlas = ⟨#[.empty capacity]⟩) :
    ∃ ending, exec (declareAll span) run
      = (.ok ending, { run with atlas := a }.enact (linkPlan p a)) := by
  subst hprogram
  have hready : Ready (linkPlan run.program a ++ bindPlan run.program a) a :=
    ready_plan hp hself hd
  have hloop : exec (forIn (roster run.program a) PUnit.unit fun m _ => do
      linkTemplate m.1 m.2
      pure (.yield PUnit.unit)) { run with atlas := a }
      = (.ok ⟨⟩, { run with atlas := a }.enact (linkPlan run.program a)) :=
    exec_forIn_linkTemplate (roster run.program a) _ rfl hready.left
  -- templates are linked after everything is declared, so they may name later entries
  unfold declareAll
  rw [exec_bind_ok (exec_get run), exec_bind_ok (hdeclare run hatlas),
    exec_bind_ok (exec_members _), exec_bind_ok hloop]
  exact ⟨_, rfl⟩

theorem stage_declareAll {p : Program} (hp : p.WellFormed)
    (hself : ∀ e ∈ p.entries.toList, e.draft.template ≠ e.key) {capacity : Int} {a : Atlas}
    (hd : Declared p a) {refs : List SymbolRef}
    (hdeclare : ∀ run : Run, run.atlas = ⟨#[.empty capacity]⟩ →
      exec (declareFrom p.outline p.entries.toList 0) run = (.ok refs, { run with atlas := a }))
    {k : Bool} {b : Bag} {run : Run} (hrun : run.At p k ⟨#[.empty capacity]⟩ b) :
    (stage "declare" declareAll run).At p k (changeAll (linkPlan p a) a)
      (b.addAll ((linkPlan p a).flatMap Effect.reports)) := by
  obtain ⟨a', b', h, rfl, rfl⟩ := stage_ok "declare" hrun
    (fun a' b' => a' = changeAll (linkPlan p a) a ∧
      b' = b.addAll ((linkPlan p a).flatMap Effect.reports))
    (by
      intro span run hrun
      obtain ⟨ending, h⟩ := exec_declareAll hp hself hd hdeclare span hrun.program hrun.atlas
      refine ⟨ending, _, _, _, h, ⟨hrun.program, hrun.canceled, rfl, rfl, hrun.error⟩, rfl, ?_⟩
      rw [← hrun.bag]
      rfl)
  exact h

/-! ## Binding -/

theorem exec_bindOne (span : TraceSpan) {e : Entry} {r : SymbolRef} {run : Run}
    (hcanceled : run.canceled = false) (hi : run.atlas.Indexed) (hr : (run.atlas.symbol? r).isSome)
    (h : Ready (script run.atlas e r) run.atlas) :
    ∃ trace, exec (bindOne span e r) run
      = (.ok (), { run.enact (script run.atlas e r) with trace }) := by
  obtain ⟨tspan, hbegin⟩ : ∃ v : TraceSpan × Trace,
      exec (RunM.traced (TraceM.begin .symbol e.key span.id)) run
        = (.ok v.1, { run with trace := v.2 }) := ⟨_, RunM.exec_traced _ run⟩
  have hentry : exec (bindEntry e r) { run with trace := tspan.2 }
      = (.ok (), { run with trace := tspan.2 }.enact (script run.atlas e r)) :=
    exec_bindEntry hi hr h
  have hbind := RunM.exec_guarded_ok hentry e
  unfold bindOne
  rw [exec_bind_ok (exec_checkCanceled hcanceled), exec_bind_ok hbegin]
  rw [exec_bind_ok (show exec (tryCatch _ _) _ = _ by rw [exec_tryCatch, hbind])]
  exact ⟨_, rfl⟩

/-- **The stage that binds** carries out its plan. -/
theorem exec_bindAll {p : Program} {a : Atlas} (hd : Declared p a) (span : TraceSpan) {run : Run}
    (hprogram : run.program = p) (hcanceled : run.canceled = false)
    (hsk : run.atlas.skeleton = a.skeleton) (h : Ready (bindPlan p a) run.atlas) :
    ∃ ending trace, exec (bindAll span) run
      = (.ok ending, { run.enact (bindPlan p a) with trace }) := by
  subst hprogram
  have hroster : roster run.program run.atlas = roster run.program a := roster_eq_of_skeleton hsk
  have hloop : ∃ s', exec (forIn (roster run.program a) PUnit.unit fun m _ => do
      bindOne span m.1 m.2
      pure (.yield PUnit.unit)) run = (.ok ⟨⟩, s') ∧ ∃ trace,
      s' = { run.enact (bindPlan run.program a) with trace } := by
    refine exec_forIn_ok (roster run.program a) _ (fun done s => ∃ trace,
      s = { run.enact (done.flatMap fun m => script a m.1 m.2) with trace }) ?_ ⟨run.trace, rfl⟩
    rintro done ⟨e, r⟩ rest s hsplit ⟨trace, rfl⟩
    -- the script of this entry comes after those of the entries before it
    have hplan : bindPlan run.program a = (done.flatMap fun m => script a m.1 m.2) ++
        (script a e r ++ rest.flatMap fun m => script a m.1 m.2) := by
      unfold bindPlan
      rw [hsplit, List.flatMap_append, List.flatMap_cons]
    rw [hplan] at h
    set run' : Run := { run.enact (done.flatMap fun m => script a m.1 m.2) with trace } with hrun'
    have hnow : Ready (script a e r) run'.atlas := h.right.left
    have hsk' : run'.atlas.skeleton = a.skeleton := (skeleton_changeAll _ run.atlas).trans hsk
    have hscript : script run'.atlas e r = script a e r := script_eq_of_ready hd.fresh hsk' id hnow
    have hr : (run'.atlas.symbol? r).isSome := by
      have hm : (e, r) ∈ roster run.program a := by rw [hsplit]; simp
      obtain ⟨s, hs, -⟩ := hd.layout.indexed.symbol?_of_find? (mem_roster.mp hm).2
      obtain ⟨s', hs', -⟩ := Atlas.exists_symbol_of_skeleton hsk'.symm hs
      simp [hs']
    rw [← hscript] at hnow
    have hcanceled' : run'.canceled = false := hcanceled
    obtain ⟨trace', hrun⟩ := exec_bindOne span hcanceled'
      (hd.layout.indexed.congr hsk') hr hnow
    dsimp only
    rw [exec_bind_ok hrun, hscript]
    refine ⟨_, rfl, trace', ?_⟩
    rw [List.flatMap_append, List.flatMap_singleton, enact_append]
    rfl
  obtain ⟨s', hrun, trace, rfl⟩ := hloop
  unfold bindAll
  rw [exec_bind_ok (exec_members run), hroster, exec_bind_ok hrun]
  exact ⟨{}, trace, rfl⟩

theorem stage_bindAll {p : Program} {a : Atlas} (hd : Declared p a) {a₁ : Atlas} {b : Bag}
    {run : Run} (hrun : run.At p false a₁ b) (hsk : a₁.skeleton = a.skeleton)
    (h : Ready (bindPlan p a) a₁) :
    (stage "bind" bindAll run).At p false (changeAll (bindPlan p a) a₁)
      (b.addAll ((bindPlan p a).flatMap Effect.reports)) := by
  obtain ⟨a', b', h, rfl, rfl⟩ := stage_ok "bind" hrun
    (fun a' b' => a' = changeAll (bindPlan p a) a₁ ∧
      b' = b.addAll ((bindPlan p a).flatMap Effect.reports))
    (by
      intro span run hrun
      obtain ⟨ending, trace, hexec⟩ := exec_bindAll hd span hrun.program hrun.canceled
        (by rw [hrun.atlas]; exact hsk) (by rw [hrun.atlas]; exact h)
      refine ⟨ending, _, _, _, hexec, ⟨hrun.program, hrun.canceled, rfl, rfl, hrun.error⟩, ?_, ?_⟩
      · rw [← hrun.atlas]
        rfl
      · rw [← hrun.bag]
        rfl)
  exact h

end SymbolAtlas.Binding
