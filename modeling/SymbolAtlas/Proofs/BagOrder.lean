import Mathlib.Tactic
import SymbolAtlas.Diagnostic.Bag

set_option autoImplicit false

/-! # The order of a sorted bag

The items of a bag are compared by file, start, severity, code, subject and message. The order is
total and transitive, so sorting gives an ordered bag; where the comparison tells the items apart,
the result does not depend on the order of collection (`sort_eq_of_perm`). -/

namespace SymbolAtlas.Bag

/-- Items are compared by one part after the other. -/
theorem compareItems_eq : compareItems
    = compareLex (compareLex (compareLex (compareLex (compareLex
        (compareOn (·.span.file)) (compareOn (·.span.start)))
        (fun d e => compareOn (·.severity.level) e d)) (compareOn (·.code.number)))
        (compareOn Diagnostic.subject)) (compareOn Diagnostic.message) :=
  rfl

instance : Std.TransCmp compareItems :=
  compareItems_eq ▸ inferInstance

/-- **What the comparison sees**: items that compare equal differ in the end of the span and in the
notes at most. -/
theorem compareItems_eq_iff {d e : Diagnostic} :
    compareItems d e = .eq ↔ d.span.file = e.span.file ∧ d.span.start = e.span.start ∧
      d.severity = e.severity ∧ d.code = e.code ∧ d.subject = e.subject ∧
      d.message = e.message := by
  have hlevel : e.severity.level = d.severity.level ↔ d.severity = e.severity := by
    cases d.severity
    cases e.severity
    simp [eq_comm]
  have hnumber : d.code.number = e.code.number ↔ d.code = e.code := by
    cases d.code
    cases e.code
    simp
  unfold compareItems
  simp only [Ordering.then_eq_eq, Std.compare_eq_iff_eq, hlevel, hnumber, and_assoc]

def inOrder (d e : Diagnostic) : Bool :=
  compareItems d e != .gt

theorem inOrder_iff {d e : Diagnostic} : inOrder d e = true ↔ (compareItems d e).isLE = true := by
  unfold inOrder
  cases compareItems d e <;> decide

theorem pairwise_sort (b : Bag) : b.sort.items.Pairwise fun d e => inOrder d e = true := by
  refine List.pairwise_mergeSort ?_ ?_ b.items
  · intro d e f hde hef
    exact inOrder_iff.mpr (Std.TransCmp.isLE_trans (inOrder_iff.mp hde) (inOrder_iff.mp hef))
  · intro d e
    have hswap : compareItems e d = (compareItems d e).swap := Std.OrientedCmp.eq_swap
    show (inOrder d e || inOrder e d) = true
    unfold inOrder
    rw [hswap]
    cases compareItems d e <;> decide

theorem perm_sort (b : Bag) : b.sort.items.Perm b.items :=
  List.mergeSort_perm b.items _

/-- **Sorting forgets the order of collection** of items that the comparison tells apart. -/
theorem sort_eq_of_perm {b b' : Bag} (h : b.items.Perm b'.items)
    (hdistinct : ∀ d ∈ b.items, ∀ e ∈ b.items, compareItems d e = .eq → d = e) :
    b.sort.items = b'.sort.items := by
  refine List.Perm.eq_of_pairwise ?_ b.pairwise_sort b'.pairwise_sort
    (b.perm_sort.trans (h.trans b'.perm_sort.symm))
  intro d e hd he hde hed
  refine hdistinct d (b.perm_sort.mem_iff.mp hd) e
    (h.mem_iff.mpr (b'.perm_sort.mem_iff.mp he)) ?_
  exact Std.OrientedCmp.isLE_antisymm (inOrder_iff.mp hde) (inOrder_iff.mp hed)

end SymbolAtlas.Bag
