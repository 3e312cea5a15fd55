import Mathlib.Tactic
import Mathlib.Data.Prod.Lex
import Mathlib.Data.String.Basic
import Mathlib.Order.Lex
import SymbolAtlas.Proofs.BagOrder
import SymbolAtlas.Proofs.FindingLabels

set_option autoImplicit false

/-! # Sorted bags

The order of a sorted bag is that of the ranks of its items: file, start, severity with the worst
first, code, subject and message, compared one after the other. Sorting puts the ranks into their
order and keeps items of one rank as they were collected. So what two bags with the same items have
in common after sorting is their ranks, and all else exactly if the rank tells the items apart
(`sorted_bags`). -/

namespace SymbolAtlas.Bag

/-- File, start, severity, code, subject and message, compared in this order; a higher severity
comes before a lower one. -/
abbrev Rank : Type :=
  ℕ ×ₗ ℕ ×ₗ ℕᵒᵈ ×ₗ ℕ ×ₗ String ×ₗ String

/-- Where a finding stands among others. -/
def rank (d : Diagnostic) : Rank :=
  toLex (d.span.file.toNat,
    toLex (d.span.start.toNat, toLex (OrderDual.toDual d.severity.level.toNat,
    toLex (d.code.number.toNat, toLex (d.subject, d.message)))))

theorem rank_eq_iff {d e : Diagnostic} : rank d = rank e ↔ compareItems d e = .eq := by
  have hlevel : d.severity.level.toNat = e.severity.level.toNat ↔ d.severity = e.severity := by
    cases d.severity
    cases e.severity
    simp [UInt8.toNat_inj]
  have hnumber : d.code.number.toNat = e.code.number.toNat ↔ d.code = e.code := by
    cases d.code
    cases e.code
    simp [UInt16.toNat_inj]
  rw [compareItems_eq_iff]
  simp [rank, hlevel, hnumber, UInt32.toNat_inj]

/-- **Items are in order if their ranks are.** -/
theorem inOrder_iff_rank_le {d e : Diagnostic} : inOrder d e = true ↔ rank d ≤ rank e := by
  have hlt : ∀ s t : String, compare s t = .lt ↔ s < t := fun s t => compareOfLessAndEq_eq_lt
  have hle : ∀ s t : String, (compare s t).isLE ↔ s ≤ t := by
    intro s t
    rw [le_iff_lt_or_eq, ← hlt, ← Std.compare_eq_iff_eq (a := s) (b := t)]
    cases compare s t <;> decide
  have hlevel : compare e.severity.level d.severity.level = .eq
      ↔ d.severity.level = e.severity.level := Std.compare_eq_iff_eq.trans eq_comm
  rw [inOrder_iff]
  unfold compareItems rank
  simp only [Ordering.then_assoc, Ordering.isLE_then_iff_or, Prod.Lex.toLex_le_toLex, hlevel,
    Std.compare_eq_lt, Std.compare_eq_iff_eq, hlt, hle, OrderDual.toDual_lt_toDual,
    OrderDual.toDual_inj, UInt32.lt_iff_toNat_lt, UInt16.lt_iff_toNat_lt, UInt8.lt_iff_toNat_lt,
    UInt32.toNat_inj,
    UInt16.toNat_inj, UInt8.toNat_inj]

/-! ## Sorting -/

theorem pairwise_rank_sort (b : Bag) : (b.sort.items.map rank).Pairwise (· ≤ ·) :=
  List.pairwise_map.mpr (b.pairwise_sort.imp fun h => inOrder_iff_rank_le.mp h)

/-- **The items of one rank stay in the order of collection.** -/
theorem filter_rank_sort (b : Bag) (r : Rank) :
    b.sort.items.filter (rank · = r) = b.items.filter (rank · = r) := by
  have htrans : ∀ d e f, inOrder d e → inOrder e f → inOrder d f := by
    intro d e f hde hef
    exact inOrder_iff_rank_le.mpr
      (le_trans (inOrder_iff_rank_le.mp hde) (inOrder_iff_rank_le.mp hef))
  have htotal : ∀ d e, inOrder d e || inOrder e d := by
    intro d e
    rw [Bool.or_eq_true, inOrder_iff_rank_le, inOrder_iff_rank_le]
    exact le_total _ _
  -- they are in order already, so sorting leaves them as they are among the others
  have hordered : (b.items.filter (rank · = r)).Pairwise fun d e => inOrder d e := by
    refine List.pairwise_of_forall_mem_list ?_
    intro d hd e he
    have hd : rank d = r := by simpa using (List.mem_filter.mp hd).2
    have he : rank e = r := by simpa using (List.mem_filter.mp he).2
    exact inOrder_iff_rank_le.mpr (hd.trans he.symm).le
  have hsub : (b.items.filter (rank · = r)).Sublist b.sort.items :=
    List.sublist_mergeSort htrans htotal hordered List.filter_sublist
  have hsub' := hsub.filter (rank · = r)
  rw [List.filter_filter] at hsub'
  simp only [Bool.and_self] at hsub'
  exact (hsub'.eq_of_length ((b.perm_sort.filter _).length_eq).symm).symm

/-- The order is unique up to items of one rank. -/
theorem map_rank_sort_eq {b b' : Bag} (h : b.items.Perm b'.items) :
    b.sort.items.map rank = b'.sort.items.map rank := by
  refine List.Perm.eq_of_pairwise ?_ b.pairwise_rank_sort b'.pairwise_rank_sort ?_
  · exact fun _ _ _ _ hle hge => le_antisymm hle hge
  · exact (b.perm_sort.trans (h.trans b'.perm_sort.symm)).map rank

/-- Items that are in order stay where they are. -/
theorem sort_eq_self {b : Bag} (h : b.items.Pairwise fun d e => inOrder d e) : b.sort = b := by
  have hsame : b.items.mergeSort inOrder = b.items := List.mergeSort_of_pairwise h
  show ({ b with items := b.items.mergeSort inOrder } : Bag) = b
  rw [hsame]

theorem sort_sort (b : Bag) : b.sort.sort = b.sort :=
  sort_eq_self b.pairwise_sort

/-- **Dropping repetitions keeps the order.** -/
theorem sort_dedup_sort (b : Bag) : b.sort.dedup.sort = b.sort.dedup :=
  sort_eq_self (b.pairwise_sort.sublist (firsts_sublist b.sort.items []))

/-! ## What the order tells apart -/

/-- **No two items share their rank** but differ in the end of the span or in the notes. -/
def Distinguished (b : Bag) : Prop :=
  ∀ d ∈ b.items, ∀ e ∈ b.items, rank d = rank e → d.span.stop = e.span.stop ∧ d.notes = e.notes

/-- The rank, the end of the span and the notes are all that there is to an item. -/
theorem eq_of_rank_eq {d e : Diagnostic} (h : rank d = rank e) (hstop : d.span.stop = e.span.stop)
    (hnotes : d.notes = e.notes) : d = e := by
  obtain ⟨hfile, hstart, hseverity, hcode, hsubject, hmessage⟩ :=
    compareItems_eq_iff.mp (rank_eq_iff.mp h)
  obtain ⟨severity, code, message, ⟨file, start, stop⟩, subject, notes⟩ := d
  obtain ⟨severity', code', message', ⟨file', start', stop'⟩, subject', notes'⟩ := e
  simp_all

theorem Distinguished.sort_eq {b b' : Bag} (hb : b.Distinguished) (h : b.items.Perm b'.items) :
    b.sort.items = b'.sort.items := by
  refine sort_eq_of_perm h fun d hd e he heq => ?_
  obtain ⟨hstop, hnotes⟩ := hb d hd e he (rank_eq_iff.mpr heq)
  exact eq_of_rank_eq (rank_eq_iff.mpr heq) hstop hnotes

/-- **Two items that only the end of the span or the notes tell apart keep the order of
collection**, so sorting does not forget it. -/
theorem distinguished_of_sort_eq {b : Bag}
    (h : ∀ c : Bag, b.items.Perm c.items → b.sort.items = c.sort.items) : b.Distinguished := by
  intro d hd e he hrank
  by_cases heq : d = e
  · rw [heq]
    exact ⟨rfl, rfl⟩
  · -- collect both first, in either order
    exfalso
    have he' : e ∈ b.items.erase d := (List.mem_erase_of_ne (Ne.symm heq)).mpr he
    have hfirst : b.items.Perm (d :: e :: (b.items.erase d).erase e) :=
      (List.perm_cons_erase hd).trans ((List.perm_cons_erase he').cons d)
    have hsecond : b.items.Perm (e :: d :: (b.items.erase d).erase e) := hfirst.trans (.swap e d _)
    have hsort := (h ⟨0, _⟩ hfirst).symm.trans (h ⟨0, _⟩ hsecond)
    have hfilter := congrArg (List.filter (rank · = rank d)) hsort
    rw [filter_rank_sort, filter_rank_sort] at hfilter
    simp only [List.filter_cons, hrank, decide_true, if_true, List.cons.injEq] at hfilter
    exact heq hfilter.1

/-- **What two bags with the same items have in common after sorting.** Each keeps its items, and
the ranks agree place by place and ascend. The items of one rank stay in the order of collection, so
the bags agree in all if no two items share their rank but differ, and sorting forgets the order of
collection in this case only. To sort again changes nothing, and dropping repetitions keeps the
order. -/
theorem sorted_bags {b b' : Bag} (h : b.items.Perm b'.items) :
    b.sort.items.Perm b.items ∧ b'.sort.items.Perm b'.items ∧
    b.sort.items.map rank = b'.sort.items.map rank ∧ (b.sort.items.map rank).Pairwise (· ≤ ·) ∧
    (∀ r, b.sort.items.filter (rank · = r) = b.items.filter (rank · = r) ∧
      b'.sort.items.filter (rank · = r) = b'.items.filter (rank · = r)) ∧
    (b.Distinguished → b.sort.items = b'.sort.items) ∧
    ((∀ c : Bag, b.items.Perm c.items → b.sort.items = c.sort.items) → b.Distinguished) ∧
    b.sort.sort = b.sort ∧ b.sort.dedup.items.Sublist b.sort.items ∧
    b.sort.dedup.sort = b.sort.dedup := by
  refine ⟨b.perm_sort, b'.perm_sort, map_rank_sort_eq h, b.pairwise_rank_sort, ?_, ?_,
    distinguished_of_sort_eq, b.sort_sort, firsts_sublist _ _, b.sort_dedup_sort⟩
  · exact fun r => ⟨b.filter_rank_sort r, b'.filter_rank_sort r⟩
  · exact fun hb => hb.sort_eq h

/-- Two findings that only the ends of their spans tell apart, and a worse one at the same place. -/
def tiedBag : Bag where
  items := [
    { code := .unresolvedReference, span := ⟨1, 4, 9⟩, message := "first" },
    { code := .unresolvedReference, span := ⟨1, 4, 7⟩, message := "first" },
    { severity := .error, code := .unresolvedReference, span := ⟨1, 4, 5⟩, message := "second" }]

/-- Sorted, the bag and its reverse have the same ranks and differ in the two findings of one
rank. -/
theorem sorted_bags_tied : ∃ b' : Bag, tiedBag.items.Perm b'.items ∧
    tiedBag.sort.items.map rank = b'.sort.items.map rank ∧ tiedBag.sort.items ≠ b'.sort.items := by
  have hperm : tiedBag.items.Perm (⟨0, tiedBag.items.reverse⟩ : Bag).items :=
    (List.reverse_perm _).symm
  obtain ⟨-, -, hranks, -⟩ := sorted_bags hperm
  refine ⟨⟨0, tiedBag.items.reverse⟩, hperm, hranks, fun heq => ?_⟩
  -- the findings of the second rank stand as they were collected
  have hfilter := congrArg (List.filter (rank · = rank tiedBag.items[0])) heq
  rw [filter_rank_sort, filter_rank_sort] at hfilter
  exact absurd hfilter (by decide +kernel)

end SymbolAtlas.Bag
