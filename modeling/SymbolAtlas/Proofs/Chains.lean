import Mathlib.Tactic

set_option autoImplicit false

/-! # Chains of dependencies

How far a chain of dependencies leads tells two kinds of nodes apart. In a finite graph a node from
which chains get as long as there are nodes leads into a circle (`circular_of_hasChain`); from any
other node there is a longest chain, and its length is the node's place in an order that puts
dependencies first. -/

namespace SymbolAtlas

variable {R : Nat → Nat → Prop}

/-- A chain of `k` steps starts at the node. -/
def HasChain (R : Nat → Nat → Prop) : (k : Nat) → (v : Nat) → Prop
  | 0, _ => True
  | k + 1, v => ∃ w, R v w ∧ HasChain R k w

/-- The longest chain that starts at the node has `k` steps. -/
def LongestChain (R : Nat → Nat → Prop) (v k : Nat) : Prop :=
  HasChain R k v ∧ ∀ m, HasChain R m v → m ≤ k

/-- The node lies on a circle or leads to one. -/
def Circular (R : Nat → Nat → Prop) (v : Nat) : Prop :=
  ∃ w, Relation.ReflTransGen R v w ∧ Relation.TransGen R w w

theorem HasChain.pred {k v : Nat} (h : HasChain R (k + 1) v) : HasChain R k v := by
  induction k generalizing v with
  | zero => trivial
  | succ k ih =>
      obtain ⟨w, hw, hchain⟩ := h
      exact ⟨w, hw, ih hchain⟩

theorem HasChain.of_le {k m v : Nat} (h : HasChain R m v) (hkm : k ≤ m) : HasChain R k v := by
  induction hkm with
  | refl => exact h
  | step _ ih => exact ih h.pred

/-- The longest chain is the last one that can be had. -/
theorem longestChain_iff {v k : Nat} :
    LongestChain R v k ↔ HasChain R k v ∧ ¬ HasChain R (k + 1) v := by
  constructor
  · rintro ⟨hk, hmax⟩
    refine ⟨hk, fun hnext => ?_⟩
    have := hmax (k + 1) hnext
    omega
  · rintro ⟨hk, hlast⟩
    refine ⟨hk, fun m hm => ?_⟩
    by_contra hlt
    exact hlast (hm.of_le (by omega))

theorem LongestChain.unique {v k m : Nat} (h : LongestChain R v k) (h' : LongestChain R v m) :
    k = m := by
  have hkm := h'.2 k h.1
  have hmk := h.2 m h'.1
  omega

theorem Circular.head {v w : Nat} (h : R v w) (hw : Circular R w) : Circular R v := by
  obtain ⟨u, hwu, hu⟩ := hw
  exact ⟨u, hwu.head h, hu⟩

theorem hasChain_of_circular {v : Nat} (h : Circular R v) (k : Nat) : HasChain R k v := by
  induction k generalizing v with
  | zero => trivial
  | succ k ih =>
      obtain ⟨u, hvu, hu⟩ := h
      -- the first step towards the circle, or the first one on it, stays with the circle
      obtain ⟨w, hvw, hw⟩ : ∃ w, R v w ∧ Circular R w := by
        rcases Relation.ReflTransGen.cases_head hvu with rfl | ⟨w, hvw, hwu⟩
        · obtain ⟨w, hvw, hwv⟩ := Relation.TransGen.head'_iff.mp hu
          exact ⟨w, hvw, v, hwv, hu⟩
        · exact ⟨w, hvw, u, hwu, hu⟩
      exact ⟨w, hvw, ih hw⟩

/-- A node whose longest chain ends leads into no circle. -/
theorem not_circular_of_longestChain {v k : Nat} (h : LongestChain R v k) :
    ¬ Circular R v := by
  intro hc
  have := h.2 (k + 1) (hasChain_of_circular hc (k + 1))
  omega

/-- Where no circle is reached there is a longest chain. -/
theorem exists_longestChain {v m : Nat} (h : ¬ HasChain R m v) :
    ∃ k, k < m ∧ LongestChain R v k := by
  induction m with
  | zero => exact absurd trivial h
  | succ m ih =>
      by_cases hm : HasChain R m v
      · exact ⟨m, by omega, longestChain_iff.mpr ⟨hm, h⟩⟩
      · obtain ⟨k, hk, hlong⟩ := ih hm
        exact ⟨k, by omega, hlong⟩

/-- The longest chain gets shorter with every step. -/
theorem LongestChain.next {v w k : Nat} (h : LongestChain R v k) (hw : R v w) :
    ∃ j, j < k ∧ LongestChain R w j := by
  refine exists_longestChain fun hk => ?_
  have := h.2 (k + 1) ⟨w, hw, hk⟩
  omega

theorem LongestChain.along {v w k : Nat} (h : LongestChain R v k) (hvw : Relation.TransGen R v w) :
    ∃ j, j < k ∧ LongestChain R w j := by
  induction hvw with
  | single hw => exact h.next hw
  | tail _ hw ih =>
      obtain ⟨j, hj, hlong⟩ := ih
      obtain ⟨i, hi, hlong'⟩ := hlong.next hw
      exact ⟨i, by omega, hlong'⟩

/-- **A chain that cannot avoid a repetition leads into a circle.** `seen` are nodes on the way to
`v`; together with the rest of the chain they are more than there are nodes. -/
theorem circular_of_hasChain {nodes : List Nat} (hR : ∀ {v w}, R v w → w ∈ nodes) :
    ∀ {k v : Nat} {seen : List Nat}, HasChain R k v → v ∈ nodes → seen.Nodup → seen ⊆ nodes →
      (∀ u ∈ seen, Relation.TransGen R u v) → nodes.length ≤ seen.length + k → Circular R v := by
  intro k
  induction k with
  | zero =>
      intro v seen _ hv hn hsub hpath hlen
      -- with `v` there would be more distinct nodes than there are
      by_cases hseen : v ∈ seen
      · exact ⟨v, .refl, hpath v hseen⟩
      · have hcons : (v :: seen).Nodup := List.nodup_cons.mpr ⟨hseen, hn⟩
        have hall : v :: seen ⊆ nodes := List.cons_subset.mpr ⟨hv, hsub⟩
        have hle := (hcons.subperm hall).length_le
        rw [List.length_cons] at hle
        omega
  | succ k ih =>
      intro v seen h hv hn hsub hpath hlen
      by_cases hseen : v ∈ seen
      · exact ⟨v, .refl, hpath v hseen⟩
      · obtain ⟨w, hvw, hchain⟩ := h
        refine Circular.head hvw (ih hchain (hR hvw) (List.nodup_cons.mpr ⟨hseen, hn⟩)
          (List.cons_subset.mpr ⟨hv, hsub⟩) ?_ ?_)
        · intro u hu
          rcases List.mem_cons.mp hu with rfl | hu
          · exact .single hvw
          · exact (hpath u hu).tail hvw
        · rw [List.length_cons]
          omega

/-- A chain with as many steps as there are nodes leads into a circle. -/
theorem circular_of_length {nodes : List Nat} (hR : ∀ {v w}, R v w → w ∈ nodes) {k v : Nat}
    (hv : v ∈ nodes) (h : HasChain R k v) (hk : nodes.length ≤ k) : Circular R v :=
  circular_of_hasChain hR h hv List.nodup_nil (List.nil_subset _) (by simp) (by simpa using hk)

/-- **Where no longest chain has `k` steps, none has more**: then a chain of `k` steps can always be
made longer, and leads into a circle. -/
theorem circular_iff_hasChain {nodes : List Nat} (hR : ∀ {v w}, R v w → w ∈ nodes) {k : Nat}
    (hempty : ∀ v ∈ nodes, ¬ LongestChain R v k) {v : Nat} (hv : v ∈ nodes) :
    Circular R v ↔ HasChain R k v := by
  constructor
  · exact fun h => hasChain_of_circular h k
  · intro h
    -- no longest chain has `k` steps, so none that long ends later either
    have hgrow : ∀ m, ∀ v ∈ nodes, HasChain R (k + m) v → HasChain R (k + m + 1) v := by
      intro m
      induction m with
      | zero =>
          intro v hv h
          by_contra hlast
          exact hempty v hv (longestChain_iff.mpr ⟨h, hlast⟩)
      | succ m ih =>
          intro v hv h
          obtain ⟨w, hvw, hchain⟩ := h
          exact ⟨w, hvw, ih w (hR hvw) hchain⟩
    have hlong : ∀ m, HasChain R (k + m) v := by
      intro m
      induction m with
      | zero => exact h
      | succ m ih => exact hgrow m v hv ih
    exact circular_of_length hR hv (hlong nodes.length) (by omega)

end SymbolAtlas
