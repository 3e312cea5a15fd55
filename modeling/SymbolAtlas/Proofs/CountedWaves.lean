import SymbolAtlas.Order.Topo
import Mathlib.Tactic

set_option autoImplicit false

/-! # Waves by counts

A wave is settled edge by edge, and what becomes ready makes the next wave. Nothing is asked of the
counts here, only that edges stay within the arrays (`Graph.Framed`). A count only falls, and a node
becomes ready when it meets zero; after that it is never positive again. So every wave holds numbers
that were not emitted before (`Frontier`), there are fewer waves than numbers, and the loop over the
waves comes to its end (`Frontier.exists_ends`). From there on facts about waves are proved by
induction on `Ends`, the loop without fuel. -/

namespace SymbolAtlas

/-- What has different numbers ascends when it is sorted by them. -/
theorem pairwise_lt_mergeSort {α : Type} {number : α → Nat} {xs : List α}
    (h : (xs.map number).Nodup) :
    (xs.mergeSort fun x y => number x ≤ number y).Pairwise fun x y => number x < number y := by
  have hle : (xs.mergeSort fun x y => number x ≤ number y).Pairwise
      fun x y => decide (number x ≤ number y) = true :=
    List.pairwise_mergeSort (by simp; omega) (by simp; omega) xs
  have hne : (xs.mergeSort fun x y => number x ≤ number y).Pairwise fun x y =>
      number x ≠ number y :=
    List.pairwise_map.mp (((List.mergeSort_perm xs _).map number).nodup_iff.mpr h)
  refine (hle.and hne).imp ?_
  rintro x y ⟨hxy, hne⟩
  have : number x ≤ number y := by simpa using hxy
  omega

namespace Graph

/-- The arrays have one length, and the edges stay within it. Nothing is said about the counts. -/
structure Framed (g : Graph) : Prop where
  indegree_size : g.indegree.size = g.edges.size
  present_size : g.present.size = g.edges.size
  target_lt : ∀ targets ∈ g.edges, ∀ t ∈ targets, t < g.edges.size

/-- The count that is given for a node. -/
def given (g : Graph) (v : Nat) : Int :=
  g.indegree[v]?.getD 0

/-- Where the edges of a node lead. -/
def targetsOf (g : Graph) (id : Nat) : List Nat :=
  g.edges[id]?.getD []

/-- The numbers that belong to nodes. -/
def presentIds (g : Graph) : List Nat :=
  (List.range g.edges.size).filter fun i => g.present[i]? = some true

/-- The first wave. -/
def firstWave (g : Graph) : List Nat :=
  g.presentIds.filter fun i => g.given i = 0

/-- What is left of the count of a node when the edges of some nodes are settled. -/
def remaining (g : Graph) (settled : List Nat) (v : Nat) : Int :=
  g.given v - (settled.flatMap g.targetsOf).count v

theorem remaining_nil (g : Graph) (v : Nat) : g.remaining [] v = g.given v := by
  simp [remaining]

theorem remaining_append (g : Graph) (xs ys : List Nat) (v : Nat) :
    g.remaining (xs ++ ys) v = g.remaining xs v - (ys.flatMap g.targetsOf).count v := by
  unfold remaining
  rw [List.flatMap_append, List.count_append]
  omega

theorem pairwise_presentIds (g : Graph) : g.presentIds.Pairwise (· < ·) :=
  List.pairwise_lt_range.filter _

theorem lt_of_mem_presentIds {g : Graph} {v : Nat} (h : v ∈ g.presentIds) : v < g.edges.size :=
  List.mem_range.mp (List.mem_filter.mp h).1

theorem Framed.lt_of_mem_targetsOf {g : Graph} (hg : g.Framed) {id t : Nat}
    (ht : t ∈ g.targetsOf id) :
    t < g.edges.size := by
  unfold targetsOf at ht
  cases hget : g.edges[id]? with
  | none => simp [hget] at ht
  | some targets =>
      rw [hget, Option.getD_some] at ht
      exact hg.target_lt targets (Array.mem_of_getElem? hget) t ht

end Graph

namespace Topo

open SymbolAtlas.Graph

/-! ## Counts -/

/-- The counts of `size` numbers are those of a function. -/
structure Tally (size : Nat) (c : Nat → Int) (counts : Array Int) : Prop where
  size_eq : counts.size = size
  get : ∀ v, v < size → counts[v]? = some (c v)

theorem Tally.entry {size : Nat} {c : Nat → Int} {counts : Array Int} (h : Tally size c counts)
    {v : Nat} (hv : v < size) : inArray.read counts v = .ok (c v) := by
  unfold inArray Topo.entry
  dsimp only
  rw [h.get v hv]

theorem Tally.congr {size : Nat} {c c' : Nat → Int} {counts : Array Int} (h : Tally size c counts)
    (hc : ∀ v, v < size → c v = c' v) : Tally size c' counts :=
  ⟨h.size_eq, fun v hv => by rw [h.get v hv, hc v hv]⟩

theorem Tally.set {size : Nat} {c : Nat → Int} {counts : Array Int} (h : Tally size c counts)
    (t : Nat) (x : Int) :
    Tally size (fun v => if v = t then x else c v) (inArray.write counts t x) := by
  unfold inArray
  dsimp only
  refine ⟨by rw [Array.size_setIfInBounds, h.size_eq], fun v hv => ?_⟩
  rw [Array.getElem?_setIfInBounds]
  by_cases hvt : v = t
  · have ht : t < counts.size := by rw [h.size_eq, ← hvt]; exact hv
    simp [hvt, ht]
  · have htv : ¬ t = v := fun h => hvt h.symm
    simp [hvt, htv, h.get v hv]

theorem bind_of_ok {ε α β : Type} {x : Except ε α} {v : α} (h : x = .ok v) (f : α → Except ε β) :
    (x >>= f) = f v := by
  rw [h]
  rfl

/-! ## Settling edges -/

/-- **A count meets zero at most once**, however often its number is among the targets. -/
theorem settle_counted {size : Nat} (targets : List Nat) :
    ∀ {c : Nat → Int} {counts : Array Int}, Tally size c counts → (∀ t ∈ targets, t < size) →
      ∃ ready counts', settle inArray targets counts = .ok (ready, counts') ∧
        Tally size (fun v => c v - targets.count v) counts' ∧
        ∀ v, ready.count v = if 0 < c v ∧ c v ≤ targets.count v then 1 else 0 := by
  induction targets with
  | nil =>
      intro c counts h _
      refine ⟨[], counts, rfl, h.congr (by simp), fun v => ?_⟩
      rw [List.count_nil, if_neg (by omega)]
  | cons t targets ih =>
      intro c counts h hlt
      obtain ⟨ready, counts', hrun, htally, hready⟩ := ih (h.set t (c t - 1))
        fun u hu => hlt u (List.mem_cons_of_mem t hu)
      refine ⟨if c t - 1 = 0 then t :: ready else ready, counts', ?_, htally.congr ?_, ?_⟩
      · rw [settle, bind_of_ok (h.entry (hlt t List.mem_cons_self)), bind_of_ok hrun]
        rfl
      · intro v _
        by_cases hv : v = t
        · subst hv
          simp
          omega
        · have htv : ¬ t = v := fun heq => hv heq.symm
          simp [hv, htv]
      · intro v
        have hcount := hready v
        by_cases hv : v = t
        · -- the head meets zero now, or the rest of the targets take it there
          subst hv
          rw [if_pos rfl] at hcount
          rw [List.count_cons_self]
          split
          · rw [List.count_cons_self, hcount]
            split <;> split <;> omega
          · rw [hcount]
            split <;> split <;> omega
        · have htv : ¬ t = v := fun heq => hv heq.symm
          rw [if_neg hv] at hcount
          rw [List.count_cons_of_ne htv, ← hcount]
          split
          · rw [List.count_cons_of_ne htv]
          · rfl

theorem entry_targetsOf {g : Graph} {id : Nat} (h : id < g.edges.size) :
    entry g.edges id = .ok (g.targetsOf id) := by
  simp [entry, targetsOf, h]

/-- Settling a wave takes each count down by the edges of the wave, and finds a number once if they
take its count to zero. -/
theorem settleBatch_counted {g : Graph} (hg : g.Framed) (batch : List Nat) :
    ∀ {c : Nat → Int} {counts : Array Int}, Tally g.edges.size c counts →
      (∀ id ∈ batch, id < g.edges.size) →
      ∃ next counts', settleBatch inArray g batch counts = .ok (next, counts') ∧
        Tally g.edges.size (fun v => c v - (batch.flatMap g.targetsOf).count v) counts' ∧
        ∀ v, next.count v
          = if 0 < c v ∧ c v ≤ (batch.flatMap g.targetsOf).count v then 1 else 0 := by
  induction batch with
  | nil =>
      intro c counts h _
      refine ⟨[], counts, rfl, h.congr (by simp), fun v => ?_⟩
      rw [List.flatMap_nil, List.count_nil, if_neg (by omega)]
  | cons id batch ih =>
      intro c counts h hlt
      obtain ⟨ready, counts₁, hrun₁, h₁, hready⟩ := settle_counted (g.targetsOf id) h
        fun t ht => hg.lt_of_mem_targetsOf ht
      obtain ⟨more, counts₂, hrun₂, h₂, hmore⟩ :=
        ih h₁ fun u hu => hlt u (List.mem_cons_of_mem id hu)
      refine ⟨ready ++ more, counts₂, ?_, h₂.congr ?_, ?_⟩
      · rw [settleBatch, bind_of_ok (entry_targetsOf (hlt id List.mem_cons_self)), bind_of_ok hrun₁]
        dsimp only
        rw [bind_of_ok hrun₂]
        rfl
      · intro v _
        rw [List.flatMap_cons, List.count_append]
        omega
      · intro v
        rw [List.count_append, hready, hmore, List.flatMap_cons, List.count_append]
        -- what the first node takes to zero is not positive for the others
        split <;> split <;> split <;> omega

theorem settleBatch_ready {g : Graph} (hg : g.Framed) (batch : List Nat) {c : Nat → Int}
    {counts : Array Int} (h : Tally g.edges.size c counts) (hlt : ∀ id ∈ batch, id < g.edges.size) :
    ∃ next counts', settleBatch inArray g batch counts = .ok (next, counts') ∧
      Tally g.edges.size (fun v => c v - (batch.flatMap g.targetsOf).count v) counts' ∧
      next.Nodup ∧ ∀ v, v ∈ next ↔ 0 < c v ∧ c v ≤ (batch.flatMap g.targetsOf).count v := by
  obtain ⟨next, counts', hrun, htally, hcount⟩ := settleBatch_counted hg batch h hlt
  refine ⟨next, counts', hrun, htally, ?_, ?_⟩
  · rw [List.nodup_iff_count_le_one]
    intro v
    rw [hcount v]
    split <;> omega
  · intro v
    rw [← List.count_pos_iff, hcount v]
    split <;> simp_all

/-! ## The loop over the waves -/

/-- **The loop over the waves**, as it goes on until a wave is empty: the waves that it emits from
`current` on, and the counts that it leaves. -/
inductive Ends (g : Graph) : (current : List Nat) → (counts : Array Int) →
    (batches : List (List Nat)) → (left : Array Int) → Prop
  | stop (counts : Array Int) : Ends g [] counts [] counts
  | wave {current next : List Nat} {counts counts' left : Array Int} {batches : List (List Nat)}
      (hne : current ≠ []) (hsettle : settleBatch inArray g current counts = .ok (next, counts'))
      (hrest : Ends g (next.mergeSort (· ≤ ·)) counts' batches left) :
      Ends g current counts (current :: batches) left

/-- **Before a wave.** The numbers that were emitted and those of the wave are different ones. Their
counts began at zero or above, and are not positive any more. -/
structure Frontier (g : Graph) (emitted current : List Nat) (counts : Array Int) : Prop where
  tally : Tally g.edges.size (g.remaining emitted) counts
  ascending : current.Pairwise (· < ·)
  nodup : (emitted ++ current).Nodup
  lt : ∀ v ∈ emitted ++ current, v < g.edges.size
  given_nonneg : ∀ v ∈ emitted ++ current, 0 ≤ g.given v
  remaining_le : ∀ v ∈ emitted ++ current, g.remaining emitted v ≤ 0

theorem frontier_firstWave {g : Graph} (hg : g.Framed) : Frontier g [] g.firstWave g.indegree := by
  have hmem : ∀ v ∈ g.firstWave, v ∈ g.presentIds ∧ g.given v = 0 := by
    intro v hv
    simpa [firstWave] using hv
  have hascending : g.firstWave.Pairwise (· < ·) := g.pairwise_presentIds.filter _
  constructor
  case tally =>
    refine ⟨hg.indegree_size, fun v hv => ?_⟩
    have hv' : v < g.indegree.size := by rw [hg.indegree_size]; exact hv
    simp [remaining_nil, given, hv']
  case ascending => exact hascending
  case nodup => exact hascending.imp fun hlt heq => by omega
  case lt => exact fun v hv => lt_of_mem_presentIds (hmem v hv).1
  case given_nonneg => exact fun v hv => (hmem v hv).2.ge
  case remaining_le =>
    intro v hv
    rw [remaining_nil]
    exact (hmem v hv).2.le

namespace Frontier

variable {g : Graph} {emitted current : List Nat} {counts : Array Int}

theorem length_le (h : Frontier g emitted current counts) :
    (emitted ++ current).length ≤ g.edges.size := by
  have hsub : emitted ++ current ⊆ List.range g.edges.size :=
    fun v hv => List.mem_range.mpr (h.lt v hv)
  have := (List.subperm_of_subset h.nodup hsub).length_le
  rwa [List.length_range] at this

/-- **After a wave.** What has become ready had a positive count, so it was not emitted before. -/
theorem advance (hg : g.Framed) (h : Frontier g emitted current counts) {next : List Nat}
    {counts' : Array Int} (htally : Tally g.edges.size (g.remaining (emitted ++ current)) counts')
    (hascending : next.Pairwise (· < ·))
    (hready : ∀ v ∈ next, 0 < g.remaining emitted v ∧ g.remaining (emitted ++ current) v ≤ 0) :
    Frontier g (emitted ++ current) next counts' := by
  have hremaining := g.remaining_append emitted current
  constructor
  case tally => exact htally
  case ascending => exact hascending
  case nodup =>
    refine h.nodup.append (hascending.imp fun hlt heq => by omega) ?_
    intro v hv hnext
    have hle := h.remaining_le v hv
    have hpos := (hready v hnext).1
    omega
  case lt =>
    intro v hv
    rcases List.mem_append.mp hv with hold | hnew
    · exact h.lt v hold
    · obtain ⟨hpos, hle⟩ := hready v hnew
      rw [hremaining v] at hle
      -- what has become ready lost some of its count, so an edge leads to it
      have harrives : v ∈ current.flatMap g.targetsOf := by
        apply List.count_pos_iff.mp
        omega
      obtain ⟨id, -, hid⟩ := List.mem_flatMap.mp harrives
      exact hg.lt_of_mem_targetsOf hid
  case given_nonneg =>
    intro v hv
    rcases List.mem_append.mp hv with hold | hnew
    · exact h.given_nonneg v hold
    · have hpos := (hready v hnew).1
      unfold remaining at hpos
      omega
  case remaining_le =>
    intro v hv
    rcases List.mem_append.mp hv with hold | hnew
    · have hle := h.remaining_le v hold
      rw [hremaining v]
      omega
    · exact (hready v hnew).2

/-- **A wave can be settled, and a wave follows it.** -/
theorem step (hg : g.Framed) (h : Frontier g emitted current counts) :
    ∃ next counts', settleBatch inArray g current counts = .ok (next, counts') ∧
      Frontier g (emitted ++ current) (next.mergeSort (· ≤ ·)) counts' := by
  obtain ⟨next, counts', hrun, htally, hnodup, hmem⟩ := settleBatch_ready hg current h.tally
    fun id hid => h.lt id (List.mem_append_right emitted hid)
  have hremaining := g.remaining_append emitted current
  refine ⟨next, counts', hrun, h.advance hg (htally.congr fun v _ => (hremaining v).symm) ?_ ?_⟩
  · exact pairwise_lt_mergeSort ((List.map_id next).symm ▸ hnodup)
  · intro v hv
    obtain ⟨hpos, hle⟩ := (hmem v).mp (List.mem_mergeSort.mp hv)
    have heq := hremaining v
    omega

/-- **The loop comes to its end**, and `waves` with enough fuel is the loop: each turn emits a
number that was not emitted before. -/
theorem exists_ends (hg : g.Framed) (fuel : Nat) :
    ∀ {emitted current : List Nat} {counts : Array Int}, Frontier g emitted current counts →
      g.edges.size < fuel + emitted.length →
      ∃ batches left, waves inArray g fuel current counts = .ok (batches, left) ∧
        Ends g current counts batches left := by
  induction fuel with
  | zero =>
      intro emitted current counts h hfuel
      have hlen := h.length_le
      rw [List.length_append] at hlen
      omega
  | succ fuel ih =>
      intro emitted current counts h hfuel
      cases current with
      | nil => exact ⟨[], counts, rfl, .stop counts⟩
      | cons id batch =>
          obtain ⟨next, counts₁, hrun, hnext⟩ := h.step hg
          obtain ⟨batches, left, hwaves, hends⟩ := ih hnext (by
            rw [List.length_append, List.length_cons]
            omega)
          refine ⟨(id :: batch) :: batches, left, ?_, .wave (List.cons_ne_nil id batch) hrun hends⟩
          rw [waves, bind_of_ok hrun]
          dsimp only
          rw [bind_of_ok hwaves]
          rfl

end Frontier

/-- **What the loop emits**: waves that are not empty and ascend, of different numbers. -/
theorem Ends.frontier {g : Graph} (hg : g.Framed) {current : List Nat} {counts left : Array Int}
    {batches : List (List Nat)} (h : Ends g current counts batches left) :
    ∀ {emitted : List Nat}, Frontier g emitted current counts →
      Frontier g (emitted ++ batches.flatten) [] left ∧
        ∀ b ∈ batches, b ≠ [] ∧ b.Pairwise (· < ·) := by
  induction h with
  | stop counts =>
      intro emitted h
      rw [List.flatten_nil, List.append_nil]
      exact ⟨h, by simp⟩
  | @wave current next counts counts' left batches hne hsettle hrest ih =>
      intro emitted h
      obtain ⟨next', counts'', hrun, hnext⟩ := h.step hg
      obtain ⟨rfl, rfl⟩ : next = next' ∧ counts' = counts'' := by
        rw [hsettle, Except.ok.injEq, Prod.mk.injEq] at hrun
        exact hrun
      obtain ⟨hlast, hwaves⟩ := ih hnext
      refine ⟨?_, ?_⟩
      · rw [List.flatten_cons, ← List.append_assoc]
        exact hlast
      · intro b hb
        rcases List.mem_cons.mp hb with rfl | hb
        · exact ⟨hne, h.ascending⟩
        · exact hwaves b hb

/-! ## The whole order -/

theorem presentNodes_given {g : Graph} (hg : g.Framed) (ids : List Nat)
    (hids : ∀ i ∈ ids, i < g.edges.size) :
    presentNodes inArray g g.indegree ids
      = .ok ((ids.filter fun i => g.present[i]? = some true).map fun i => (i, g.given i)) := by
  induction ids with
  | nil => rfl
  | cons i ids ih =>
      have hi : i < g.edges.size := hids i List.mem_cons_self
      have hp : i < g.present.size := by rw [hg.present_size]; exact hi
      have hc : i < g.indegree.size := by rw [hg.indegree_size]; exact hi
      have hpresent : entry g.present i = .ok g.present[i] := by simp [entry, hp]
      have hcount : inArray.read g.indegree i = .ok (g.given i) := by
        simp [inArray, entry, given, hc]
      have hrest := ih fun j hj => hids j (List.mem_cons_of_mem i hj)
      rw [presentNodes, bind_of_ok hpresent]
      by_cases hset : g.present[i] = true
      · rw [if_pos hset, bind_of_ok hcount, bind_of_ok hrest,
          List.filter_cons_of_pos (by simp [hp, hset])]
        rfl
      · rw [if_neg hset, hrest, List.filter_cons_of_neg (by simp [hp, hset])]

theorem map_fst_given (g : Graph) :
    (g.presentIds.map fun i => (i, g.given i)).map Prod.fst = g.presentIds := by
  rw [List.map_map]
  exact List.map_id _

theorem firstWave_eq (g : Graph) :
    ((g.presentIds.map fun i => (i, g.given i)).filter (·.2 = 0)).map Prod.fst = g.firstWave := by
  rw [List.filter_map, List.map_map]
  exact List.map_id _

/-- The order that is put together from the waves and the counts that they leave. -/
def assembled (g : Graph) (batches : List (List Nat)) (left : Array Int) : Topo :=
  let waiting := g.presentIds.filter fun i => waits (left[i]?.getD 0)
  if batches.flatten.length = g.presentIds.length then
    { order := batches.flatten, batches, cyclic := false, cycles := [] }
  else { order := batches.flatten ++ waiting, batches, cyclic := true, cycles := waiting }

theorem presentNodes_all {g : Graph} (hg : g.Framed) :
    presentNodes inArray g g.indegree (List.range g.edges.size)
      = .ok (g.presentIds.map fun i => (i, g.given i)) :=
  presentNodes_given hg (List.range g.edges.size) fun _ hi => List.mem_range.mp hi

theorem read_inArray (counts : Array Int) (i : Nat) :
    (inArray.read counts i).toOption.getD 0 = counts[i]?.getD 0 := by
  unfold inArray entry
  dsimp only
  cases counts[i]? <;> rfl

theorem orderIn_assembled {g : Graph} (hg : g.Framed) {batches : List (List Nat)} {left : Array Int}
    (hrun : waves inArray g (g.edges.size + 2) g.firstWave g.indegree = .ok (batches, left)) :
    orderIn inArray g g.indegree = .ok (assembled g batches left, left) := by
  unfold orderIn assembled
  rw [bind_of_ok (presentNodes_all hg)]
  dsimp only
  rw [firstWave_eq, bind_of_ok hrun, map_fst_given, List.length_map]
  simp only [read_inArray]
  split <;> rfl

theorem ofGraph_assembled {g : Graph} (hg : g.Framed) {batches : List (List Nat)} {left : Array Int}
    (hrun : waves inArray g (g.edges.size + 2) g.firstWave g.indegree = .ok (batches, left)) :
    ofGraph g = .ok (assembled g batches left) := by
  unfold ofGraph
  rw [bind_of_ok (orderIn_assembled hg hrun)]
  rfl

theorem batches_assembled (g : Graph) (batches : List (List Nat)) (left : Array Int) :
    (assembled g batches left).batches = batches := by
  unfold assembled
  dsimp only
  split <;> rfl

end Topo

end SymbolAtlas
