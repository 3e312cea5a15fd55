import SymbolAtlas.Proofs.Chains
import SymbolAtlas.Proofs.CountedWaves

set_option autoImplicit false

/-! # Waves of the emission order

Node `v` of a graph that was made from dependency lists waits for the nodes in the list of `v`. The
waves are compared with chains of dependencies: after `k` waves the count of a node is the number of
its dependencies from which a chain of `k` steps starts, and the next wave holds the nodes whose
longest chain has `k` steps (`Ends.waved`). When a wave is empty, the counts that remain are those
of the nodes that lead into a circle. -/

namespace SymbolAtlas

namespace Graph

def depsOf (deps : List (List Nat)) (v : Nat) : List Nat :=
  deps[v]?.getD []

/-- `w` is among the dependencies of `v`. -/
def Dep (deps : List (List Nat)) (v w : Nat) : Prop :=
  w ∈ depsOf deps v

/-- Whether a chain of `k` dependencies starts at a node. -/
def chain (deps : List (List Nat)) : (k : Nat) → (v : Nat) → Bool
  | 0, _ => true
  | k + 1, v => (depsOf deps v).any (chain deps k)

theorem chain_iff {deps : List (List Nat)} {k v : Nat} :
    chain deps k v = true ↔ HasChain (Dep deps) k v := by
  induction k generalizing v with
  | zero => simp [chain, HasChain]
  | succ k ih => simp [chain, HasChain, Dep, ih]

def nodes (deps : List (List Nat)) : List Nat :=
  (List.range deps.length).filter (· != 0)

theorem mem_nodes {deps : List (List Nat)} {v : Nat} :
    v ∈ nodes deps ↔ v ≠ 0 ∧ v < deps.length := by
  simp [nodes, and_comm]

theorem pairwise_nodes (deps : List (List Nat)) : (nodes deps).Pairwise (· < ·) :=
  List.pairwise_lt_range.filter _

/-- Dependencies are nodes, each listed once, and the number zero has none. -/
structure Regular (deps : List (List Nat)) : Prop where
  nodup : ∀ v, (depsOf deps v).Nodup
  mem_nodes : ∀ {v w}, w ∈ depsOf deps v → w ∈ nodes deps
  zero : depsOf deps 0 = []

theorem Regular.mem_nodes_of_dep {deps : List (List Nat)} (hd : Regular deps) {v w : Nat}
    (h : Dep deps v w) :
    v ∈ nodes deps := by
  unfold Dep at h
  refine Graph.mem_nodes.mpr ⟨?_, ?_⟩
  · rintro rfl
    rw [hd.zero] at h
    cases h
  · by_contra hv
    unfold depsOf at h
    rw [List.getElem?_eq_none (by omega)] at h
    cases h

/-- How many dependencies of a node are the start of a chain of `k` steps. -/
def waiting (deps : List (List Nat)) (k v : Nat) : Nat :=
  (depsOf deps v).countP (chain deps k)

theorem waiting_pos_iff {deps : List (List Nat)} {k v : Nat} :
    0 < waiting deps k v ↔ HasChain (Dep deps) (k + 1) v := by
  unfold waiting
  rw [List.countP_pos_iff, ← chain_iff]
  simp [chain]

/-- At first a node waits for all its dependencies. -/
theorem waiting_zero (deps : List (List Nat)) (v : Nat) :
    waiting deps 0 v = (depsOf deps v).length := by
  unfold waiting
  exact List.countP_eq_length.mpr fun _ _ => rfl

/-- Two lists without repetition have equally many members of each other. -/
theorem countP_mem_comm {xs ys : List Nat} (hx : xs.Nodup) (hy : ys.Nodup) :
    xs.countP (· ∈ ys) = ys.countP (· ∈ xs) := by
  have hperm : (xs.filter (· ∈ ys)).Perm (ys.filter (· ∈ xs)) := by
    rw [List.perm_ext_iff_of_nodup (hx.filter _) (hy.filter _)]
    intro v
    simp [and_comm]
  rw [List.countP_eq_length_filter, List.countP_eq_length_filter, hperm.length_eq]

/-- A list holds in ascending order the nodes whose longest chain has `k` steps. -/
structure IsWave (deps : List (List Nat)) (k : Nat) (batch : List Nat) : Prop where
  ascending : batch.Pairwise (· < ·)
  mem_iff : ∀ v, v ∈ batch ↔ v ∈ nodes deps ∧ LongestChain (Dep deps) v k

theorem IsWave.nodup {deps : List (List Nat)} {k : Nat} {batch : List Nat}
    (h : IsWave deps k batch) : batch.Nodup :=
  h.ascending.imp fun hlt heq => by omega

/-- **A wave takes from the count of a node the dependencies that it holds.** -/
theorem waiting_succ {deps : List (List Nat)} (hd : Regular deps) {k : Nat} {batch : List Nat}
    (hb : IsWave deps k batch) (v : Nat) :
    waiting deps k v = waiting deps (k + 1) v + batch.countP (· ∈ depsOf deps v) := by
  rw [countP_mem_comm hb.nodup (hd.nodup v)]
  unfold waiting
  -- a dependency with a chain of `k` steps has a longer one or is in the wave
  have hsplit : ∀ ws : List Nat, (∀ w ∈ ws, w ∈ nodes deps) →
      ws.countP (chain deps k) = ws.countP (chain deps (k + 1)) + ws.countP (· ∈ batch) := by
    intro ws
    induction ws with
    | nil => intro _; rfl
    | cons w ws ih =>
        intro hws
        have hw : w ∈ batch ↔ chain deps k w = true ∧ ¬ chain deps (k + 1) w = true := by
          rw [hb.mem_iff, longestChain_iff, chain_iff, chain_iff]
          simp [hws w List.mem_cons_self]
        have hpred : chain deps (k + 1) w = true → chain deps k w = true := by
          rw [chain_iff, chain_iff]
          exact HasChain.pred
        rw [List.countP_cons, List.countP_cons, List.countP_cons,
          ih fun u hu => hws u (List.mem_cons_of_mem w hu)]
        by_cases hnext : chain deps (k + 1) w = true
        · simp [hw, hnext, hpred hnext]
          omega
        · by_cases hnow : chain deps k w = true
          · simp [hw, hnext, hnow]
            omega
          · simp [hw, hnext, hnow]
  exact hsplit _ fun w hw => hd.mem_nodes hw

end Graph

namespace Topo

open SymbolAtlas.Graph

/-! ## The graph of dependency lists -/

/-- Who waits for a node. -/
def waiters (deps : List (List Nat)) (d : Nat) : List Nat :=
  (List.range deps.length).filter fun v => (depsOf deps v).contains d

theorem mem_waiters {deps : List (List Nat)} {d v : Nat} :
    v ∈ waiters deps d ↔ d ∈ depsOf deps v := by
  unfold waiters
  rw [List.mem_filter, List.mem_range, List.contains_iff_mem]
  refine and_iff_right_of_imp fun h => ?_
  by_contra hv
  unfold depsOf at h
  rw [List.getElem?_eq_none (by omega)] at h
  cases h

theorem nodup_waiters (deps : List (List Nat)) (d : Nat) : (waiters deps d).Nodup :=
  List.nodup_range.filter _

theorem size_ofDependencies (deps : List (List Nat)) :
    (ofDependencies deps).edges.size = deps.length := by
  simp [ofDependencies]

theorem framed_ofDependencies (deps : List (List Nat)) : (ofDependencies deps).Framed where
  indegree_size := by simp [ofDependencies]
  present_size := by simp [ofDependencies]
  target_lt := by
    intro targets ht t hmem
    obtain ⟨d, -, rfl⟩ : ∃ d ∈ List.range deps.length, waiters deps d = targets :=
      List.mem_map.mp (List.mem_toArray.mp ht)
    rw [size_ofDependencies]
    exact List.mem_range.mp (List.mem_filter.mp hmem).1

theorem targetsOf_ofDependencies {deps : List (List Nat)} {d : Nat} (hd : d < deps.length) :
    (ofDependencies deps).targetsOf d = waiters deps d := by
  unfold targetsOf ofDependencies
  rw [List.getElem?_toArray, List.getElem?_map, List.getElem?_range hd]
  rfl

theorem given_ofDependencies (deps : List (List Nat)) (v : Nat) :
    (ofDependencies deps).given v = waiting deps 0 v := by
  unfold given ofDependencies
  rw [waiting_zero, depsOf, List.getElem?_toArray, List.getElem?_map]
  cases deps[v]? <;> rfl

theorem presentIds_ofDependencies (deps : List (List Nat)) :
    (ofDependencies deps).presentIds = nodes deps := by
  unfold presentIds nodes
  rw [size_ofDependencies]
  refine List.filter_congr fun v hv => ?_
  have hpresent : (ofDependencies deps).present[v]? = some (v != 0) := by
    unfold ofDependencies
    rw [List.getElem?_toArray, List.getElem?_map, List.getElem?_range (List.mem_range.mp hv)]
    rfl
  rw [hpresent]
  cases v != 0 <;> rfl

/-- The edges that a wave sends to a node are the dependencies of the node in the wave. -/
theorem count_targets {deps : List (List Nat)} {batch : List Nat}
    (h : ∀ id ∈ batch, id < deps.length) (v : Nat) :
    (batch.flatMap (ofDependencies deps).targetsOf).count v = batch.countP (· ∈ depsOf deps v) := by
  induction batch with
  | nil => rfl
  | cons id batch ih =>
      rw [List.flatMap_cons, List.count_append, List.countP_cons,
        ih fun u hu => h u (List.mem_cons_of_mem id hu),
        targetsOf_ofDependencies (h id List.mem_cons_self), (nodup_waiters deps id).count,
        Nat.add_comm]
      simp only [mem_waiters, decide_eq_true_eq]

/-! ## The waves -/

/-- The nodes of the first wave wait for nothing. -/
theorem isWave_first (deps : List (List Nat)) :
    IsWave deps 0 ((nodes deps).filter fun i => (waiting deps 0 i : Int) = 0) := by
  refine ⟨(pairwise_nodes deps).filter _, fun v => ?_⟩
  rw [List.mem_filter, longestChain_iff, ← waiting_pos_iff]
  simp [HasChain]

/-- **The wave after the `k`th** holds the nodes whose longest chain has one step more. -/
theorem settleBatch_wave {deps : List (List Nat)} (hd : Regular deps) {k : Nat} {batch : List Nat}
    (hb : IsWave deps k batch) {counts : Array Int}
    (h : Tally deps.length (fun v => (waiting deps k v : Int)) counts) :
    ∃ next counts', settleBatch inArray (ofDependencies deps) batch counts = .ok (next, counts') ∧
      IsWave deps (k + 1) (next.mergeSort (· ≤ ·)) ∧
      Tally deps.length (fun v => (waiting deps (k + 1) v : Int)) counts' := by
  have hlt : ∀ id ∈ batch, id < deps.length := fun id hid =>
    (mem_nodes.mp ((hb.mem_iff id).mp hid).1).2
  have hsucc := fun v => waiting_succ hd hb v
  rw [← size_ofDependencies] at h
  obtain ⟨next, counts', hrun, htally, hnodup, hmem⟩ :=
    settleBatch_ready (framed_ofDependencies deps) batch h
      (by simpa only [size_ofDependencies] using hlt)
  rw [size_ofDependencies] at htally
  simp only [count_targets hlt] at htally hmem
  have hascending : (next.mergeSort (· ≤ ·)).Pairwise (· < ·) :=
    pairwise_lt_mergeSort ((List.map_id next).symm ▸ hnodup)
  refine ⟨next, counts', hrun, ⟨hascending, ?_⟩, htally.congr ?_⟩
  · intro v
    -- a count is positive exactly if a longer chain starts at its node
    have hnow : (0 : Int) < waiting deps k v ↔ HasChain (Dep deps) (k + 1) v := by
      rw [← waiting_pos_iff]
      omega
    have hnext : (waiting deps k v : Int) ≤ (batch.countP (· ∈ depsOf deps v) : Int)
        ↔ ¬ HasChain (Dep deps) (k + 1 + 1) v := by
      rw [← waiting_pos_iff]
      have := hsucc v
      omega
    rw [List.mem_mergeSort, hmem, longestChain_iff, hnow, hnext]
    refine (and_iff_right_of_imp ?_).symm
    rintro ⟨⟨w, hw, -⟩, -⟩
    exact hd.mem_nodes_of_dep hw
  · intro v _
    have := hsucc v
    omega

/-- **The waves from the `k`th on.** They end with the first empty one, and then the counts are
those of the chains that go on. -/
theorem Ends.waved {deps : List (List Nat)} (hd : Regular deps) {current : List Nat}
    {counts left : Array Int} {batches : List (List Nat)}
    (h : Ends (ofDependencies deps) current counts batches left) :
    ∀ {k : Nat}, IsWave deps k current →
    Tally deps.length (fun v => (waiting deps k v : Int)) counts →
      (∀ i batch, batches[i]? = some batch → IsWave deps (k + i) batch) ∧
      (∀ v ∈ nodes deps, ¬ LongestChain (Dep deps) v (k + batches.length)) ∧
      Tally deps.length (fun v => (waiting deps (k + batches.length) v : Int)) left := by
  induction h with
  | stop counts =>
      intro k hw ht
      refine ⟨by simp, fun v hv hlong => ?_, ht⟩
      have := (hw.mem_iff v).mpr ⟨hv, hlong⟩
      cases this
  | @wave current next counts counts₁ left batches hne hsettle hrest ih =>
      intro k hw ht
      obtain ⟨next', counts₂, hrun, hw', ht'⟩ := settleBatch_wave hd hw ht
      obtain ⟨rfl, rfl⟩ : next = next' ∧ counts₁ = counts₂ := by
        rw [hsettle, Except.ok.injEq, Prod.mk.injEq] at hrun
        exact hrun
      obtain ⟨hwaves, hempty, hleft⟩ := ih hw' ht'
      have hplace : k + (current :: batches).length = k + 1 + batches.length := by
        rw [List.length_cons]
        omega
      refine ⟨?_, by rwa [hplace], by rwa [hplace]⟩
      intro i b hb
      cases i with
      | zero =>
          obtain rfl : current = b := by simpa using hb
          exact hw
      | succ i =>
          have hwave := hwaves i b (by simpa using hb)
          rwa [show k + 1 + i = k + (i + 1) by omega] at hwave

/-! ## The whole order -/

theorem waits_iff {count : Nat} : waits count = true ↔ 0 < count := by
  unfold waits
  by_cases h : count = 0
  · simp [h]
  · have hpos : 0 < count := by omega
    simp [hpos]

/-- **The emission order of a graph of dependencies.** Batch `k` holds the nodes whose longest chain
has `k` steps. What is left over are the nodes that lead into a circle; they come last. -/
structure Emits (deps : List (List Nat)) (t : Topo) : Prop where
  batch : ∀ k v, (∃ b, t.batches[k]? = some b ∧ v ∈ b) ↔
    v ∈ nodes deps ∧ LongestChain (Dep deps) v k
  ascending : ∀ b ∈ t.batches, b.Pairwise (· < ·)
  order_eq : t.order = t.batches.flatten ++ t.cycles
  mem_cycles : ∀ v, v ∈ t.cycles ↔ v ∈ nodes deps ∧ Circular (Dep deps) v
  ascending_cycles : t.cycles.Pairwise (· < ·)
  cyclic_iff : t.cyclic = true ↔ t.cycles ≠ []
  perm : t.order.Perm (nodes deps)

/-- The batches are the waves, and the wave after the last one would be empty. -/
structure Waved (deps : List (List Nat)) (batches : List (List Nat)) : Prop where
  wave : ∀ i b, batches[i]? = some b → IsWave deps i b
  last : ∀ v ∈ nodes deps, ¬ LongestChain (Dep deps) v batches.length

namespace Waved

variable {deps : List (List Nat)} (hd : Regular deps) {batches : List (List Nat)}
  (h : Waved deps batches)

include h

theorem nodup_flatten : batches.flatten.Nodup := by
  rw [List.nodup_flatten]
  refine ⟨?_, ?_⟩
  · intro b hb
    obtain ⟨i, hi⟩ := List.mem_iff_getElem?.mp hb
    exact (h.wave i b hi).nodup
  · -- a node has one longest chain, so it is in one wave
    rw [List.pairwise_iff_getElem]
    intro i j hi hj hij v hv hv'
    have hwi := h.wave i batches[i] (List.getElem?_eq_getElem hi)
    have hwj := h.wave j batches[j] (List.getElem?_eq_getElem hj)
    have := ((hwi.mem_iff v).mp hv).2.unique ((hwj.mem_iff v).mp hv').2
    omega

include hd

/-- Once the waves have ended, a chain as long as there were waves leads into a circle. -/
theorem circular_iff {v : Nat} (hv : v ∈ nodes deps) :
    Circular (Dep deps) v ↔ HasChain (Dep deps) batches.length v :=
  circular_iff_hasChain (fun h => hd.mem_nodes h) h.last hv

theorem batch_iff (k v : Nat) :
    (∃ b, batches[k]? = some b ∧ v ∈ b) ↔ v ∈ nodes deps ∧ LongestChain (Dep deps) v k := by
  constructor
  · rintro ⟨b, hb, hv⟩
    exact ((h.wave k b hb).mem_iff v).mp hv
  · rintro ⟨hv, hlong⟩
    have hk : k < batches.length := by
      by_contra hge
      have hchain : HasChain (Dep deps) batches.length v := hlong.1.of_le (by omega)
      exact not_circular_of_longestChain hlong ((h.circular_iff hd hv).mpr hchain)
    have hwave := h.wave k batches[k] (List.getElem?_eq_getElem hk)
    exact ⟨batches[k], List.getElem?_eq_getElem hk, (hwave.mem_iff v).mpr ⟨hv, hlong⟩⟩

/-- The waves hold the nodes that lead into no circle. -/
theorem mem_flatten (v : Nat) :
    v ∈ batches.flatten ↔ v ∈ nodes deps ∧ ¬ Circular (Dep deps) v := by
  rw [List.mem_flatten]
  constructor
  · rintro ⟨b, hb, hv⟩
    obtain ⟨k, hk⟩ := List.mem_iff_getElem?.mp hb
    obtain ⟨hnode, hlong⟩ := (h.batch_iff hd k v).mp ⟨b, hk, hv⟩
    exact ⟨hnode, not_circular_of_longestChain hlong⟩
  · rintro ⟨hv, hc⟩
    rw [h.circular_iff hd hv] at hc
    obtain ⟨k, -, hlong⟩ := exists_longestChain hc
    obtain ⟨b, hk, hb⟩ := (h.batch_iff hd k v).mpr ⟨hv, hlong⟩
    exact ⟨b, List.mem_of_getElem? hk, hb⟩

/-- Together with the nodes that lead into a circle, the waves hold every node once. -/
theorem perm {left : List Nat} (hleft : left.Pairwise (· < ·))
    (hmem : ∀ v, v ∈ left ↔ v ∈ nodes deps ∧ Circular (Dep deps) v) :
    (batches.flatten ++ left).Perm (nodes deps) := by
  have hne : ∀ {xs : List Nat}, xs.Pairwise (· < ·) → xs.Nodup :=
    fun hxs => hxs.imp fun hlt heq => by omega
  refine (List.perm_ext_iff_of_nodup (h.nodup_flatten.append (hne hleft) ?_)
    (hne (pairwise_nodes deps))).mpr ?_
  · intro v hv hv'
    exact ((h.mem_flatten hd v).mp hv).2 ((hmem v).mp hv').2
  · intro v
    rw [List.mem_append, h.mem_flatten hd, hmem]
    tauto

end Waved

/-- **Every regular graph has its emission order.** -/
theorem ofGraph_emits {deps : List (List Nat)} (hd : Regular deps) :
    ∃ t, ofGraph (ofDependencies deps) = .ok t ∧ Emits deps t := by
  have hframed := framed_ofDependencies deps
  have hfrontier := frontier_firstWave hframed
  obtain ⟨batches, counts, hrun, hends⟩ := hfrontier.exists_ends hframed
    ((ofDependencies deps).edges.size + 2) (by omega)
  have hfirst : IsWave deps 0 (ofDependencies deps).firstWave := by
    have h := isWave_first deps
    unfold firstWave
    simpa only [presentIds_ofDependencies, given_ofDependencies] using h
  have hcounts : Tally deps.length (fun v =>
      (waiting deps 0 v : Int)) (ofDependencies deps).indegree := by
    have h := hfrontier.tally
    rw [size_ofDependencies] at h
    exact h.congr fun v _ => by rw [remaining_nil, given_ofDependencies]
  obtain ⟨hwaves, hlast, htally⟩ := hends.waved hd hfirst hcounts
  simp only [Nat.zero_add] at hwaves hlast htally
  have hw : Waved deps batches := ⟨hwaves, hlast⟩
  -- what still waits leads into a circle
  set left := (nodes deps).filter fun i => waits (counts[i]?.getD 0) with hleft
  have hmem : ∀ v, v ∈ left ↔ v ∈ nodes deps ∧ Circular (Dep deps) v := by
    intro v
    rw [hleft, List.mem_filter]
    refine and_congr_right fun hv => ?_
    rw [htally.get v (mem_nodes.mp hv).2, Option.getD_some, waits_iff, waiting_pos_iff]
    constructor
    · exact fun h => (hw.circular_iff hd hv).mpr h.pred
    · exact fun h => hasChain_of_circular h (batches.length + 1)
  have hascending : left.Pairwise (· < ·) := (pairwise_nodes deps).filter _
  have hperm := hw.perm hd hascending hmem
  have hlen : batches.flatten.length + left.length = (nodes deps).length := by
    rw [← List.length_append, hperm.length_eq]
  have hb : ∀ b ∈ batches, b.Pairwise (· < ·) := by
    intro b hb
    obtain ⟨k, hk⟩ := List.mem_iff_getElem?.mp hb
    exact (hwaves k b hk).ascending
  refine ⟨_, ofGraph_assembled hframed hrun, ?_⟩
  unfold assembled
  dsimp only
  rw [presentIds_ofDependencies, ← hleft]
  by_cases hall : batches.flatten.length = (nodes deps).length
  · have hnil : left = [] := List.eq_nil_of_length_eq_zero (by omega)
    rw [if_pos hall]
    rw [hnil] at hmem hperm hascending
    exact ⟨hw.batch_iff hd, hb, (List.append_nil _).symm, hmem, hascending, by simp,
      by simpa using hperm⟩
  · have hne : left ≠ [] := by
      intro hnil
      rw [hnil] at hlen
      exact hall hlen
    rw [if_neg hall]
    exact ⟨hw.batch_iff hd, hb, rfl, hmem, hascending, ⟨fun _ => hne, fun _ => rfl⟩, hperm⟩

end Topo

end SymbolAtlas
