import SymbolAtlas.Proofs.UntrueCounts

set_option autoImplicit false

/-! # Counts in shared memory

An order can be made in place. Then the counts of the graph lie in a memory in which others have
theirs, and each edge that is settled is one write. The counts are copied to a new address first,
and every write goes to the copy. So the order is that of `ofGraph`, and afterwards the memory is
the one from before with the copy behind it (`ofGraphAt_tidy`): the counts that were borrowed are
unchanged. -/

namespace SymbolAtlas

namespace Topo

open SymbolAtlas.Graph

/-! ## Memory -/

/-- Arrays of counts by their addresses. -/
abbrev Memory := Array (Array Int)

namespace Memory

def read (m : Memory) (address i : Nat) : Except Fault Int := do
  let counts ← entry m address
  entry counts i

/-- Writes one count of the array at an address. -/
def write (m : Memory) (address i : Nat) (count : Int) : Memory :=
  m.modify address (·.setIfInBounds i count)

def copy (m : Memory) (address : Nat) : Except Fault (Nat × Memory) := do
  let counts ← entry m address
  return (m.size, m.push counts)

theorem entry_push (m : Memory) (counts : Array Int) :
    entry (m.push counts) m.size = .ok counts := by
  simp [entry]

theorem read_push (m : Memory) (counts : Array Int) (i : Nat) :
    read (m.push counts) m.size i = entry counts i := by
  unfold read
  rw [bind_of_ok (entry_push m counts)]

/-- **A write to the last array** leaves those before it as they are. -/
theorem write_push (m : Memory) (counts : Array Int) (i : Nat) (count : Int) :
    write (m.push counts) m.size i count = m.push (counts.setIfInBounds i count) := by
  apply Array.ext
  · simp [write]
  · intro j hj _
    have hsize : j < m.size + 1 := by simpa [write] using hj
    by_cases hlast : j < m.size
    · have hne : ¬ m.size = j := by omega
      simp [write, Array.getElem_modify, Array.getElem_push, hne, hlast]
    · obtain rfl : j = m.size := by omega
      simp [write, Array.getElem_modify]

end Memory

/-! ## Orders in place -/

/-- Counts in the array at an address. -/
def atAddress (own : Nat) : CountStore Memory where
  read m i := m.read own i
  write m i count := m.write own i count

/-- The emission order of a graph whose counts lie at a borrowed address. -/
def ofGraphAt (g : Graph) (borrowed : Nat) (m : Memory) : Except Fault (Topo × Memory) := do
  let (own, m) ← m.copy borrowed
  orderIn (atAddress own) g m

/-! ## One place of counts in another

Where one place of counts lies in another, the loop does the same with both, faults included. -/

/-- Reading and writing counts in `k'` behind `f` is reading and writing them in `k`. -/
structure Within {σ σ' : Type} (k : CountStore σ) (k' : CountStore σ') (f : σ → σ') : Prop where
  read : ∀ s i, k'.read (f s) i = k.read s i
  write : ∀ s i count, k'.write (f s) i count = f (k.write s i count)

namespace Within

variable {σ σ' : Type} {k : CountStore σ} {k' : CountStore σ'} {f : σ → σ'}

theorem presentNodes (h : Within k k' f) (g : Graph) (s : σ) (ids : List Nat) :
    Topo.presentNodes k' g (f s) ids = Topo.presentNodes k g s ids := by
  induction ids with
  | nil => rfl
  | cons i ids ih => rw [Topo.presentNodes, Topo.presentNodes, h.read, ih]

theorem settle (h : Within k k' f) (targets : List Nat) (s : σ) :
    Topo.settle k' targets (f s) = (Topo.settle k targets s).map (Prod.map id f) := by
  induction targets generalizing s with
  | nil => rfl
  | cons t targets ih =>
      rw [Topo.settle, Topo.settle, h.read]
      cases k.read s t with
      | error fault => rfl
      | ok count =>
          show (Topo.settle k' targets (k'.write (f s) t (count - 1)) >>= _)
            = Except.map _ (Topo.settle k targets (k.write s t (count - 1)) >>= _)
          rw [h.write, ih]
          cases Topo.settle k targets (k.write s t (count - 1)) <;> rfl

theorem settleBatch (h : Within k k' f) (g : Graph) (batch : List Nat) (s : σ) :
    Topo.settleBatch k' g batch (f s) = (Topo.settleBatch k g batch s).map (Prod.map id f) := by
  induction batch generalizing s with
  | nil => rfl
  | cons id batch ih =>
      rw [Topo.settleBatch, Topo.settleBatch]
      cases entry g.edges id with
      | error fault => rfl
      | ok targets =>
          show (Topo.settle k' targets (f s) >>= _) = Except.map _ (Topo.settle k targets s >>= _)
          rw [h.settle]
          cases Topo.settle k targets s with
          | error fault => rfl
          | ok settled =>
              obtain ⟨ready, s₁⟩ := settled
              show (Topo.settleBatch k' g batch (f s₁) >>= _)
                = Except.map _ (Topo.settleBatch k g batch s₁ >>= _)
              rw [ih]
              cases Topo.settleBatch k g batch s₁ <;> rfl

theorem waves (h : Within k k' f) (g : Graph) (fuel : Nat) (current : List Nat) (s : σ) :
    Topo.waves k' g fuel current (f s) = (Topo.waves k g fuel current s).map (Prod.map id f) := by
  induction fuel generalizing current s with
  | zero => rfl
  | succ fuel ih =>
      cases current with
      | nil => rfl
      | cons id batch =>
          rw [Topo.waves, Topo.waves, h.settleBatch]
          cases Topo.settleBatch k g (id :: batch) s with
          | error fault => rfl
          | ok settled =>
              obtain ⟨next, s₁⟩ := settled
              show (Topo.waves k' g fuel (next.mergeSort (· ≤ ·)) (f s₁) >>= _)
                = Except.map _ (Topo.waves k g fuel (next.mergeSort (· ≤ ·)) s₁ >>= _)
              rw [ih]
              cases Topo.waves k g fuel (next.mergeSort (· ≤ ·)) s₁ <;> rfl

/-- **The order is the same in both places**, and so are the counts that remain. -/
theorem orderIn (h : Within k k' f) (g : Graph) (s : σ) :
    Topo.orderIn k' g (f s) = (Topo.orderIn k g s).map (Prod.map id f) := by
  unfold Topo.orderIn
  rw [h.presentNodes]
  cases Topo.presentNodes k g s (List.range g.edges.size) with
  | error fault => rfl
  | ok nodes =>
      show (Topo.waves k' g _ _ (f s) >>= _) = Except.map _ (Topo.waves k g _ _ s >>= _)
      rw [h.waves]
      cases Topo.waves k g (g.edges.size + 2) ((nodes.filter (·.2 = 0)).map Prod.fst) s with
      | error fault => rfl
      | ok run =>
          obtain ⟨batches, s₁⟩ := run
          simp only [Except.map, Prod.map, id, bind, Except.bind, h.read]
          split <;> rfl

end Within

/-- The last array of a memory is a place of counts. -/
theorem within_push (m : Memory) : Within inArray (atAddress m.size) m.push where
  read := m.read_push
  write := m.write_push

theorem ofGraphAt_assembled {g : Graph} (hg : g.Framed) {m : Memory} {borrowed : Nat}
    (hm : m[borrowed]? = some g.indegree) {batches : List (List Nat)} {left : Array Int}
    (hrun : waves inArray g (g.edges.size + 2) g.firstWave g.indegree = .ok (batches, left)) :
    ofGraphAt g borrowed m = .ok (assembled g batches left, m.push left) := by
  have hcopy : m.copy borrowed = .ok (m.size, m.push g.indegree) := by
    have hentry : entry m borrowed = .ok g.indegree := by simp [entry, hm]
    unfold Memory.copy
    rw [bind_of_ok hentry]
    rfl
  unfold ofGraphAt
  rw [bind_of_ok hcopy]
  dsimp only
  rw [(within_push m).orderIn, orderIn_assembled hg hrun]
  rfl

/-- **Every graph whose edges stay within its arrays has a tidy order, and only lends its counts.**
Whatever the counts are, the loop over the waves comes to its end without a fault. The waves are not
empty and ascend, and together with what is left over they make the order, in which no number stands
twice. Made in place the order is the same, and the memory is afterwards what it was, with the copy
of the counts behind it. -/
theorem ofGraphAt_tidy {g : Graph} (hg : g.Framed) {m : Memory} {borrowed : Nat}
    (hm : m[borrowed]? = some g.indegree) :
    ∃ t left, ofGraph g = .ok t ∧ Ends g g.firstWave g.indegree t.batches left ∧ Tidy g t ∧
      ofGraphAt g borrowed m = .ok (t, m.push left) ∧
      (m.push left)[borrowed]? = some g.indegree := by
  obtain ⟨batches, left, hrun, hends⟩ := (frontier_firstWave hg).exists_ends hg (g.edges.size + 2)
    (by omega)
  refine ⟨assembled g batches left, left, ofGraph_assembled hg hrun, ?_, tidy_assembled hg hends,
    ofGraphAt_assembled hg hm hrun, ?_⟩
  · rw [batches_assembled]
    exact hends
  · have hlt : borrowed < m.size := (Array.getElem?_eq_some_iff.mp hm).1
    rw [Array.getElem?_push_lt hlt, ← hm, Array.getElem?_eq_getElem hlt]

/-- Node 0 leads to node 1 twice, and node 1 to itself, to the missing number 2 and back to node 0.
Node 3 has a negative count, and node 4 waits for nothing that is there. -/
def untrueGraph : Graph where
  edges := #[[1, 1], [1, 2, 0], [0], [], []]
  indegree := #[0, 2, 1, -3, 1]
  present := #[true, true, false, true, true]

theorem framed_untrueGraph : untrueGraph.Framed where
  indegree_size := rfl
  present_size := rfl
  target_lt := by simp [untrueGraph]

/-- The counts lie behind those of another graph. -/
theorem ofGraphAt_tidy_untrue : untrueGraph.Framed ∧
    (#[#[7], untrueGraph.indegree] : Memory)[1]? = some untrueGraph.indegree ∧
    (∀ v, untrueGraph.arrivals v ≤ 2 ^ 63) ∧
    ∃ left, Ends untrueGraph [0] untrueGraph.indegree [[0], [1], [2]] left ∧
      (∀ v, [0, 1, 2, 4].count v ≤ 1) ∧
      ofGraphAt untrueGraph 1 #[#[7], untrueGraph.indegree]
        = .ok (⟨[0, 1, 2, 4], [[0], [1], [2]], true, [4]⟩,
          #[#[7], untrueGraph.indegree, left]) := by
  have hborrowed : (#[#[7], untrueGraph.indegree] : Memory)[1]? = some untrueGraph.indegree := rfl
  have harrivals : ∀ v, untrueGraph.arrivals v ≤ 2 ^ 63 := fun v =>
    List.count_le_length.trans (by decide)
  have horder : ofGraph untrueGraph = .ok ⟨[0, 1, 2, 4], [[0], [1], [2]], true, [4]⟩ := by
    decide +kernel
  obtain ⟨t, left, hrun, hends, htidy, hplace, -⟩ := ofGraphAt_tidy framed_untrueGraph hborrowed
  obtain rfl : _ = t := Except.ok.inj (horder.symm.trans hrun)
  exact ⟨framed_untrueGraph, hborrowed, harrivals, left, hends, fun v =>
    htidy.once v (harrivals v), hplace⟩

end Topo

end SymbolAtlas
