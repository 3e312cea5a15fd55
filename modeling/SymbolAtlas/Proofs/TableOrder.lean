import SymbolAtlas.Proofs.EmissionOrder
import SymbolAtlas.Proofs.Search

set_option autoImplicit false

/-! # The emission order of a table

The graph of a table has the distinct dependencies of each symbol other than the symbol itself
(`ofTable_ok`), so the waves of the graph are told by chains of dependencies between the symbols
(`Topo.emission_order`). -/

namespace SymbolAtlas

namespace Atlas

/-- Every direct dependency of a symbol of the table is a symbol of the table. -/
def SelfContained (a : Atlas) (table : Nat) : Prop :=
  ∀ r ∈ a.members table, ∀ s, a.symbol? r = some s →
    ∀ d ∈ s.direct, ∃ q ∈ a.members table, d = some q

theorem selfContained_iff {a : Atlas} {table : Nat} :
    a.SelfContained table ↔ ∀ r ∈ a.members table,
      ∀ d ∈ ((a.symbol? r).map Symbol.direct).getD [], ∃ q ∈ a.members table, d = some q := by
  unfold SelfContained
  refine forall₂_congr fun r _ => ?_
  cases a.symbol? r <;> simp

instance (a : Atlas) (table : Nat) : Decidable (a.SelfContained table) :=
  decidable_of_iff _ selfContained_iff.symm

/-- Both ends of a dependency within the table are symbols of it. -/
theorem SelfContained.mem_of_dependsOn {a : Atlas} {table v w : Nat} (h : a.SelfContained table)
    (hw : a.DependsOn ⟨table, v⟩ ⟨table, w⟩) :
    ⟨table, v⟩ ∈ a.members table ∧ ⟨table, w⟩ ∈ a.members table := by
  obtain ⟨s, hs, hw⟩ := hw
  have hv : ⟨table, v⟩ ∈ a.members table := mem_members.mpr ⟨rfl, by simp [hs]⟩
  obtain ⟨q, hq, heq⟩ := h _ hv s hs _ hw
  exact ⟨hv, (Option.some.inj heq) ▸ hq⟩

/-- Symbol `v` of the table depends directly on another symbol `w` of the table. -/
def Needs (a : Atlas) (table v w : Nat) : Prop :=
  w ≠ v ∧ a.DependsOn ⟨table, v⟩ ⟨table, w⟩

theorem members_eq (a : Atlas) (table : Nat) :
    a.members table = (List.range (a.members table).length).map fun i => ⟨table, i + 1⟩ := by
  unfold members
  cases a.tables[table]? <;> simp

theorem mem_members_iff {a : Atlas} {table v : Nat} :
    ⟨table, v⟩ ∈ a.members table ↔ v ≠ 0 ∧ v < (a.members table).length + 1 := by
  rw [members_eq]
  simp only [List.mem_map, List.mem_range, SymbolRef.mk.injEq, true_and, List.length_map,
    List.length_range]
  constructor
  · rintro ⟨i, hi, rfl⟩
    omega
  · rintro ⟨hv, hlt⟩
    exact ⟨v - 1, by omega, by omega⟩

end Atlas

namespace Graph

open Atlas

/-! ## The dependencies of one symbol -/

/-- **The targets are the dependencies other than the symbol, each once.** -/
theorem targets_ok {table size : Nat} (v : Nat) {deps : List (Option SymbolRef)}
    (h : ∀ d ∈ deps, ∃ w, w < size ∧ d = some ⟨table, w⟩) {seen : List Nat} (hseen : seen.Nodup) :
    ∃ ids, targets ⟨table, v⟩ size deps seen = .ok ids ∧ ids.Nodup ∧
      ∀ w, w ∈ ids ↔ w ∈ seen ∨ w ≠ v ∧ some ⟨table, w⟩ ∈ deps := by
  induction deps generalizing seen with
  | nil => exact ⟨seen, rfl, hseen, by simp⟩
  | cons d deps ih =>
      obtain ⟨u, hu, rfl⟩ := h d List.mem_cons_self
      have hrest : ∀ d ∈ deps, ∃ w, w < size ∧ d = some ⟨table, w⟩ :=
        fun d hd => h d (List.mem_cons_of_mem _ hd)
      have hcond : ((⟨table, u⟩ : SymbolRef) = ⟨table, v⟩ ∨ u ∈ seen) ↔ u = v ∨ u ∈ seen := by simp
      -- a self edge or a repeated dependency is passed over
      by_cases hskip : u = v ∨ u ∈ seen
      · obtain ⟨ids, hrun, hnd, hmem⟩ := ih hrest hseen
        refine ⟨ids, ?_, hnd, fun w => ?_⟩
        · rw [targets, if_pos (hcond.mpr hskip)]
          exact hrun
        · rw [hmem w]
          simp only [List.mem_cons, Option.some.injEq, SymbolRef.mk.injEq, true_and]
          grind
      · have hnew : u ≠ v ∧ u ∉ seen := not_or.mp hskip
        have hnd : (seen ++ [u]).Nodup := by
          rw [List.nodup_append]
          refine ⟨hseen, List.nodup_singleton u, fun t ht w hw => ?_⟩
          rw [List.mem_singleton.mp hw]
          exact fun heq => hnew.2 (heq ▸ ht)
        obtain ⟨ids, hrun, hnd, hmem⟩ := ih hrest hnd
        refine ⟨ids, ?_, hnd, fun w => ?_⟩
        · rw [targets, if_neg fun hc => hskip (hcond.mp hc), if_neg (Nat.not_le.mpr hu)]
          exact hrun
        · rw [hmem w]
          simp only [List.mem_append, List.mem_cons, List.not_mem_nil, or_false, Option.some.injEq,
            SymbolRef.mk.injEq, true_and]
          grind

variable {a : Atlas} {table : Nat}

theorem dependencies_ok (h : a.SelfContained table) {v : Nat}
    (hv : (⟨table, v⟩ : SymbolRef) ∈ a.members table) (hb : a.Bound ⟨table, v⟩) :
    ∃ ids, dependencies a ((a.members table).length + 1) ⟨table, v⟩ = .ok ids ∧ ids.Nodup ∧
      ∀ w, w ∈ ids ↔ a.Needs table v w := by
  obtain ⟨s, hs, hbound⟩ := hb
  have hdeps : ∀ d ∈ s.direct, ∃ w, w < (a.members table).length + 1 ∧ d = some ⟨table, w⟩ := by
    intro d hd
    obtain ⟨q, hq, rfl⟩ := h _ hv s hs d hd
    obtain ⟨rfl, -⟩ := mem_members.mp hq
    exact ⟨q.id, (mem_members_iff.mp hq).2, rfl⟩
  obtain ⟨ids, hrun, hnd, hmem⟩ :=
    targets_ok v hdeps List.nodup_nil
  refine ⟨ids, ?_, hnd, fun w => ?_⟩
  · unfold dependencies
    simp [hs, hbound, hrun]
  · rw [hmem w]
    simp [Needs, Atlas.DependsOn, hs]

theorem dependencies_unbound (size : Nat) {r : SymbolRef} (hr : r ∈ a.members table)
    (hb : ¬ a.Bound r) :
    dependencies a size r = .error (.within "order" (.contract .notBound (a.text (some r)))) := by
  obtain ⟨s, hs⟩ := Option.isSome_iff_exists.mp (mem_members.mp hr).2
  have hbound : s.bound = false := by
    by_contra hne
    exact hb ⟨s, hs, by simpa using hne⟩
  unfold dependencies
  simp [hs, hbound]

/-! ## The graph of a table -/

/-- The dependency list of each symbol of the table, with place zero left empty, since numbers begin
at one. -/
theorem depsOf_members (f : SymbolRef → List Nat) (v : Nat) :
    depsOf ([] :: (a.members table).map f) v =
      if ⟨table, v⟩ ∈ a.members table then f ⟨table, v⟩ else [] := by
  unfold depsOf
  cases v with
  | zero => simp [mem_members_iff]
  | succ i =>
      rw [List.getElem?_cons_succ, members_eq, List.map_map, List.getElem?_map]
      by_cases hi : i < (a.members table).length
      · simp [hi]
      · simp [hi]

theorem nodes_members (f : SymbolRef → List Nat) :
    nodes ([] :: (a.members table).map f) = (a.members table).map SymbolRef.id := by
  rw [nodes, List.length_cons, List.length_map, members_eq, List.range_succ_eq_map]
  simp [Function.comp_def]

/-- **The graph of a bound table.** Its nodes are the symbols, and they depend on one another as the
symbols do. -/
theorem ofTable_ok (h : a.SelfContained table) (hb : ∀ r ∈ a.members table, a.Bound r) :
    ∃ deps, ofTable a table = .ok (ofDependencies deps) ∧ Regular deps ∧
      nodes deps = (a.members table).map SymbolRef.id ∧ Dep deps = a.Needs table := by
  -- each symbol has its targets; they are listed by number
  choose! ids hrun hnd hmem using
    fun v (hv : ⟨table, v⟩ ∈ a.members table) => dependencies_ok h hv (hb _ hv)
  set deps := [] :: (a.members table).map fun r => ids r.id with hdeps
  have hof : ∀ v, depsOf deps v = if ⟨table, v⟩ ∈ a.members table then ids v else [] :=
    depsOf_members fun r => ids r.id
  have hnodes : ∀ v, v ∈ nodes deps ↔ ⟨table, v⟩ ∈ a.members table := by
    intro v
    rw [mem_nodes, mem_members_iff, hdeps, List.length_cons, List.length_map]
  have hdep : ∀ v w, Dep deps v w ↔ a.Needs table v w := by
    intro v w
    unfold Dep
    rw [hof v]
    by_cases hv : ⟨table, v⟩ ∈ a.members table
    · rw [if_pos hv, hmem v hv w]
    · rw [if_neg hv]
      exact iff_of_false List.not_mem_nil fun hw => hv (h.mem_of_dependsOn hw.2).1
  have hanswers : (a.members table).mapM (dependencies a ((a.members table).length + 1))
      = .ok ((a.members table).map fun r => ids r.id) := by
    refine mapM_ok fun r hr => ?_
    obtain ⟨rfl, -⟩ := mem_members.mp hr
    exact hrun r.id hr
  have hgraph : ofTable a table = .ok (ofDependencies deps) := by
    simp only [ofTable, hanswers]
    rfl
  refine ⟨deps, hgraph, ⟨?_, ?_, ?_⟩, nodes_members _, funext₂ fun v w => propext (hdep v w)⟩
  · intro v
    rw [hof v]
    split
    · next hv => exact hnd v hv
    · exact List.nodup_nil
  · intro v w hw
    exact (hnodes w).mpr (h.mem_of_dependsOn ((hdep v w).mp hw).2).2
  · rfl

/-- **A table with an unbound symbol has no graph.** -/
theorem ofTable_unbound (hu : ∃ r ∈ a.members table, ¬ a.Bound r) (h : a.SelfContained table) :
    ∃ r ∈ a.members table, ¬ a.Bound r ∧
      ofTable a table = .error (.within "order" (.contract .notBound (a.text (some r)))) := by
  obtain ⟨u, hu, hunbound⟩ := hu
  obtain ⟨e, hrun, r, hr, he⟩ := mapM_error
    ⟨u, hu, _, dependencies_unbound ((a.members table).length + 1) hu hunbound⟩
  have hb : ¬ a.Bound r := by
    intro hb
    obtain ⟨rfl, -⟩ := mem_members.mp hr
    obtain ⟨ids, hok, -⟩ := dependencies_ok h hr hb
    rw [hok] at he
    cases he
  refine ⟨r, hr, hb, ?_⟩
  rw [dependencies_unbound _ hr hb] at he
  obtain rfl := Except.error.inj he
  simp only [ofTable, hrun]
  rfl

end Graph

namespace Topo

open SymbolAtlas.Graph Atlas

/-- **The emission order of a table.** The order of a bound table lists the symbols by the length of
their longest chain of dependencies, those with the same length by number, and puts last those that
lead into a circle. A table with an unbound symbol has no order. -/
theorem emission_order {a : Atlas} {table : Nat} (h : a.SelfContained table) :
    ((∀ r ∈ a.members table, a.Bound r) → ∃ (g : Graph) (t : Topo),
      ofTable a table = .ok g ∧ ofGraph g = .ok t ∧
      t.order.Perm ((a.members table).map SymbolRef.id) ∧
      t.order = t.batches.flatten ++ t.cycles ∧
      (∀ k v : Nat, (∃ b, t.batches[k]? = some b ∧ v ∈ b) ↔
        ⟨table, v⟩ ∈ a.members table ∧ ¬ Circular (a.Needs table) v ∧
          LongestChain (a.Needs table) v k) ∧
      (∀ (k : Nat) (b : List Nat) (v w : Nat), t.batches[k]? = some b → v ∈ b → a.Needs table v w →
        ∃ j < k, ∃ c, t.batches[j]? = some c ∧ w ∈ c) ∧
      (∀ b ∈ t.batches, b.Pairwise (· < ·)) ∧ t.cycles.Pairwise (· < ·) ∧
      (∀ v, v ∈ t.cycles ↔ ⟨table, v⟩ ∈ a.members table ∧ Circular (a.Needs table) v) ∧
      (t.cyclic = true ↔ t.cycles ≠ [])) ∧
    ((∃ r ∈ a.members table, ¬ a.Bound r) →
      ∃ e, ofTable a table = .error e ∧ e.isInvalidState = true) := by
  refine ⟨fun hb => ?_, fun hu => ?_⟩
  · obtain ⟨deps, hgraph, hregular, hnodes, hdep⟩ := ofTable_ok h hb
    obtain ⟨t, hrun, hemits⟩ := ofGraph_emits hregular
    have hmem : ∀ v, v ∈ nodes deps ↔ ⟨table, v⟩ ∈ a.members table := by
      intro v
      rw [hnodes, members_eq]
      simp
    have hbatch := hemits.batch
    have hcycles := hemits.mem_cycles
    simp only [hmem, hdep] at hbatch hcycles
    refine ⟨_, t, hgraph, hrun, hnodes ▸ hemits.perm, hemits.order_eq, fun k v => ?_, ?_,
      hemits.ascending, hemits.ascending_cycles, hcycles, hemits.cyclic_iff⟩
    · rw [hbatch k v]
      exact and_congr_right fun _ =>
        ⟨fun hk => ⟨not_circular_of_longestChain hk, hk⟩, fun hk => hk.2⟩
    · intro k b v w hb hv hw
      obtain ⟨j, hj, hlong⟩ := ((hbatch k v).mp ⟨b, hb, hv⟩).2.next hw
      have hmember : ⟨table, w⟩ ∈ a.members table :=
        (hmem w).mp (hregular.mem_nodes (hdep ▸ hw : Dep deps v w))
      exact ⟨j, hj, (hbatch j w).mpr ⟨hmember, hlong⟩⟩
  · obtain ⟨r, -, -, hrun⟩ := ofTable_unbound hu h
    exact ⟨_, hrun, rfl⟩

/-- A type with the given dependencies. -/
def typeNeeding (key : String) (bound : Bool) (needs : List Nat) : Symbol where
  declaration := ⟨key, key, .type, {}, none⟩
  flags := {}
  containing := none
  bound := bound
  dependencies := some (needs.map fun w => some ⟨0, w⟩)

/-- Two types on a circle, one of which also needs itself and names another twice, a type behind the
circle, and one that needs nothing. The last may be unbound. -/
def fourTypes (bound : Bool) : Atlas where
  tables := #[{ Table.empty 4 with
    symbols := #[typeNeeding "A" true [2], typeNeeding "B" true [4, 2, 1, 4],
      typeNeeding "C" true [1], typeNeeding "D" bound []] }]

theorem emission_order_fourTypes :
    ((fourTypes true).SelfContained 0 ∧
      (∀ r ∈ (fourTypes true).members 0, (fourTypes true).Bound r) ∧
      ∃ (g : Graph) (t : Topo), ofTable (fourTypes true) 0 = .ok g ∧ ofGraph g = .ok t ∧
        t.order.Perm [1, 2, 3, 4] ∧
        ∀ v, v ∈ t.cycles ↔
          ⟨0, v⟩ ∈ (fourTypes true).members 0 ∧ Circular ((fourTypes true).Needs 0) v) ∧
    ((fourTypes false).SelfContained 0 ∧ ¬ (fourTypes false).Bound ⟨0, 4⟩ ∧
      ∃ e, ofTable (fourTypes false) 0 = .error e ∧ e.isInvalidState = true) := by
  have hbound : ∀ r ∈ (fourTypes true).members 0, (fourTypes true).Bound r := by decide
  obtain ⟨g, t, hg, ht, hperm, -, -, -, -, -, hcycles, -⟩ :=
    (emission_order (a := fourTypes true) (by decide)).1 hbound
  refine ⟨⟨by decide, hbound, g, t, hg, ht, hperm, hcycles⟩, by decide, by decide, ?_⟩
  exact (emission_order (by decide)).2 ⟨⟨0, 4⟩, by decide, by decide⟩

example : (ofTable (fourTypes true) 0).toOption.bind (fun g => (ofGraph g).toOption) =
    some ⟨[4, 1, 2, 3], [[4]], true, [1, 2, 3]⟩ := by decide +kernel

end Topo

end SymbolAtlas
