import SymbolAtlas.Proofs.CountedWaves

set_option autoImplicit false

/-! # Orders of graphs with untrue counts

The counts of a graph need not fit its edges: they may be wrong or negative, and an edge may be
listed twice, lead back to its node or to a number that belongs to no node. No list is kept of the
nodes that were emitted, so that each is emitted once rests on its count alone. In the end counts
are read as words, and one that fell far enough below zero reads as positive. `tidy_assembled` says
what holds of the whole order all the same. -/

namespace SymbolAtlas

namespace Graph

/-- How many edges lead to a number. -/
def arrivals (g : Graph) (v : Nat) : Nat :=
  g.edges.toList.flatten.count v

/-- Different nodes send a number at most the edges that all nodes send it together. -/
theorem count_targetsOf_le (g : Graph) {ids : List Nat} (hnodup : ids.Nodup)
    (hlt : ∀ id ∈ ids, id < g.edges.size) (v : Nat) :
    (ids.flatMap g.targetsOf).count v ≤ g.arrivals v := by
  have hall : (List.range g.edges.size).map g.targetsOf = g.edges.toList := by
    apply List.ext_getElem
    · simp
    · intro i _ hi
      have hi : i < g.edges.size := by simpa using hi
      simp [targetsOf, hi]
  obtain ⟨sub, hperm, hsub⟩ := List.subperm_of_subset hnodup
    fun id hid => List.mem_range.mpr (hlt id hid)
  calc (ids.flatMap g.targetsOf).count v
      = (sub.flatMap g.targetsOf).count v := ((hperm.flatMap_right g.targetsOf).count_eq v).symm
    _ ≤ ((List.range g.edges.size).flatMap g.targetsOf).count v :=
      (hsub.flatMap g.targetsOf).count_le v
    _ = g.arrivals v := by rw [List.flatMap_def, hall, arrivals]

end Graph

namespace Topo

open SymbolAtlas.Graph

/-- A count between the least word and zero does not wait. -/
theorem not_waits {count : Int} (hle : count ≤ 0) (hge : -2 ^ 63 ≤ count) :
    ¬ waits count = true := by
  have hword : count.bmod 0x10000000000000000 = count :=
    Int.bmod_eq_of_le (by norm_num at hge ⊢; omega) (by norm_num at hge ⊢; omega)
  unfold waits
  rw [hword]
  simp only [Bool.or_self, decide_eq_true_eq]
  omega

/-- **What holds of an order whatever the counts of its graph are.** Counts are read as words of 64
bits in the end (`waits`), so `once` asks that not more than 2^63 edges lead to the number. A memory
with addresses of 64 bits does not hold so many. -/
structure Tidy (g : Graph) (t : Topo) : Prop where
  order_eq : t.order = t.batches.flatten ++ t.cycles
  batch_ne : ∀ b ∈ t.batches, b ≠ []
  ascending : ∀ b ∈ t.batches, b.Pairwise (· < ·)
  emitted_nodup : t.batches.flatten.Nodup
  once : ∀ v, g.arrivals v ≤ 2 ^ 63 → t.order.count v ≤ 1

/-- What was emitted does not wait in the end: its count is zero less the edges that came after it
was ready. -/
theorem Frontier.not_waiting {g : Graph} {emitted : List Nat} {left : Array Int}
    (h : Frontier g emitted [] left) {v : Nat} (hv : v ∈ emitted)
    (harrivals : g.arrivals v ≤ 2 ^ 63) :
    ¬ waits (left[v]?.getD 0) = true := by
  obtain ⟨htally, -, hnodup, hlt, hgiven, hle⟩ := h
  rw [List.append_nil] at hnodup hlt hgiven hle
  have hedges := g.count_targetsOf_le hnodup hlt v
  have hge : -2 ^ 63 ≤ g.remaining emitted v := by
    have := hgiven v hv
    unfold remaining
    omega
  rw [htally.get v (hlt v hv), Option.getD_some]
  exact not_waits (hle v hv) hge

theorem tidy_assembled {g : Graph} (hg : g.Framed) {batches : List (List Nat)} {left : Array Int}
    (h : Ends g g.firstWave g.indegree batches left) : Tidy g (assembled g batches left) := by
  obtain ⟨hlast, hwaves⟩ := h.frontier hg (frontier_firstWave hg)
  rw [List.nil_append] at hlast
  have hemitted : batches.flatten.Nodup := by simpa using hlast.nodup
  set waiting := g.presentIds.filter fun i => waits (left[i]?.getD 0) with hwaiting
  have hnodup : waiting.Nodup := (g.pairwise_presentIds.filter _).imp fun hlt heq => by omega
  have hcount : ∀ v, g.arrivals v ≤ 2 ^ 63 → (batches.flatten ++ waiting).count v ≤ 1 := by
    intro v harrivals
    have honce := List.nodup_iff_count_le_one.mp hemitted v
    have honce' := List.nodup_iff_count_le_one.mp hnodup v
    rw [List.count_append]
    -- what was emitted does not wait in the end, so no number stands twice
    by_cases hv : v ∈ batches.flatten
    · have hnot : v ∉ waiting := fun hwait =>
        hlast.not_waiting hv harrivals (List.mem_filter.mp hwait).2
      have := List.count_eq_zero.mpr hnot
      omega
    · have := List.count_eq_zero.mpr hv
      omega
  have hne : ∀ b ∈ batches, b ≠ [] := fun b hb => (hwaves b hb).1
  have hascending : ∀ b ∈ batches, b.Pairwise (· < ·) := fun b hb => (hwaves b hb).2
  unfold assembled
  dsimp only
  rw [← hwaiting]
  split
  · exact ⟨(List.append_nil _).symm, hne, hascending, hemitted,
      fun v _ => List.nodup_iff_count_le_one.mp hemitted v⟩
  · exact ⟨rfl, hne, hascending, hemitted, hcount⟩

end Topo

end SymbolAtlas
