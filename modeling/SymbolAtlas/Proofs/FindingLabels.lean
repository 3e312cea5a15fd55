import Mathlib.Tactic
import SymbolAtlas.Diagnostic.Bag

set_option autoImplicit false

/-! # Labels of findings

A bag tells its findings apart by a label: the identifier of the code, the span and the message,
joined by colons. The message is free text and comes last, and what stands before it holds no colon
but those that part it, so a label can be read in one way only (`label_eq_iff`). Every declared code
has an identifier of its own. Dropping repetitions therefore keeps the first finding of each code,
span and message (`dedup_leaders`). -/

namespace SymbolAtlas

/-- **A text without the separator ends where the separator comes first.** -/
theorem front_inj {sep : Char} {a b x y : List Char} (ha : sep ∉ a) (hb : sep ∉ b) :
    a ++ sep :: x = b ++ sep :: y ↔ a = b ∧ x = y := by
  induction a generalizing b with
  | nil =>
      cases b with
      | nil => simp
      | cons c b =>
          have hne : sep ≠ c := by
            rintro rfl
            exact hb List.mem_cons_self
          simp [hne]
  | cons c a ih =>
      cases b with
      | nil =>
          have hne : c ≠ sep := by
            rintro rfl
            exact ha List.mem_cons_self
          simp [hne]
      | cons c' b =>
          have hrest :=
            ih (fun h => ha (List.mem_cons_of_mem c h)) (fun h => hb (List.mem_cons_of_mem c' h))
          rw [List.cons_append, List.cons_append, List.cons.injEq, hrest, List.cons.injEq,
            and_assoc]

theorem isDigit_of_mem_toString {n : Nat} {c : Char} (h : c ∈ (toString n).toList) : c.isDigit := by
  rw [Nat.toString_eq_repr, Nat.toList_repr] at h
  exact Nat.isDigit_of_mem_toDigits (by decide) (by decide) h

theorem toString_inj {n m : Nat} : (toString n).toList = (toString m).toList ↔ n = m := by
  rw [Nat.toString_eq_repr, Nat.toString_eq_repr, Nat.toList_repr, Nat.toList_repr]
  constructor
  · intro h
    rw [← Nat.ofDigitChars_ten_toDigits (n := n), h, Nat.ofDigitChars_ten_toDigits]
  · rintro rfl
    rfl

theorem not_mem_toString {n : Nat} {c : Char} (hc : c.isDigit = false) :
    c ∉ (toString n).toList := by
  intro h
  rw [isDigit_of_mem_toString h] at hc
  cases hc

namespace Span

/-- **A span can be read from the front of a text** if a colon follows it. -/
theorem toText_append_inj {s s' : Span} {x y : List Char} :
    s.toText.toList ++ ':' :: x = s'.toText.toList ++ ':' :: y ↔ s = s' ∧ x = y := by
  obtain ⟨file, start, stop⟩ := s
  obtain ⟨file', start', stop'⟩ := s'
  have hcolon : ∀ n : Nat, ':' ∉ (toString n).toList := fun n => not_mem_toString (by decide)
  have hdash : ∀ n : Nat, '-' ∉ (toString n).toList := fun n => not_mem_toString (by decide)
  have htext : ∀ (a b c : Nat) (z : List Char),
      (toString a ++ ":" ++ toString b ++ "-" ++ toString c).toList ++ ':' :: z
        = (toString a).toList
          ++ ':' :: ((toString b).toList ++ '-' :: ((toString c).toList ++ ':' :: z)) := by
    intro a b c z
    simp [String.toList_append]
  unfold toText
  rw [htext, htext, front_inj (hcolon _) (hcolon _), front_inj (hdash _) (hdash _),
    front_inj (hcolon _) (hcolon _), toString_inj, toString_inj, toString_inj]
  simp [UInt32.toNat_inj, and_assoc]

end Span

namespace Code

def declared : List Code :=
  titles.map Prod.fst

theorem colon_not_mem_id (c : Code) : ':' ∉ c.id.toList := by
  have hnumber : ':' ∉ (toString c.number.toNat).toList := not_mem_toString (by decide)
  unfold id area?
  split
  · rename_i area harea
    rw [String.toList_append, List.mem_append, not_or]
    refine ⟨?_, hnumber⟩
    split at harea <;> cases harea <;> decide
  · decide

/-- **Every declared code has an identifier of its own.** -/
theorem id_inj_declared : ∀ c ∈ declared, ∀ c' ∈ declared, c.id = c'.id → c = c' := by
  decide +kernel

end Code

namespace Bag

/-! ## Labels -/

/-- **A label can be read in one way only.** -/
theorem label_eq_iff {d e : Diagnostic} :
    label d = label e ↔ d.code.id = e.code.id ∧ d.span = e.span ∧ d.message = e.message := by
  have htext : ∀ d : Diagnostic, (label d).toList
      = d.code.id.toList ++ ':' :: (d.span.toText.toList ++ ':' :: d.message.toList) := by
    intro d
    simp [label, String.toList_append]
  rw [← String.toList_inj, htext, htext, front_inj d.code.colon_not_mem_id e.code.colon_not_mem_id,
    Span.toText_append_inj, String.toList_inj, String.toList_inj]

/-- What makes two findings the same: the code, the span and the message. -/
def identity (d : Diagnostic) : Code × Span × String :=
  (d.code, d.span, d.message)

/-- Findings of declared codes share a label if they are the same. -/
theorem label_eq_iff_identity {d e : Diagnostic} (hd : d.code ∈ Code.declared)
    (he : e.code ∈ Code.declared) : label d = label e ↔ identity d = identity e := by
  have hid : d.code.id = e.code.id ↔ d.code = e.code :=
    ⟨Code.id_inj_declared d.code hd e.code he, congrArg Code.id⟩
  rw [label_eq_iff, hid]
  simp [identity]

/-! ## First findings -/

section Leaders

variable {β : Type} [DecidableEq β] (key : Diagnostic → β)

/-- The items that share their key with no item before them, in their order. -/
def leaders (items : List Diagnostic) : List Diagnostic :=
  (items.zipIdx.filter fun (d, i) => (items.take i).all fun e => key e ≠ key d).map Prod.fst

/-- One more item is a leader if no other one has its key. -/
theorem leaders_concat (items : List Diagnostic) (d : Diagnostic) : leaders key (items ++ [d])
    = leaders key items ++ if key d ∈ items.map key then [] else [d] := by
  -- what stands before an item does not change
  have hfront :
      (items.zipIdx.filter fun (x, i) => ((items ++ [d]).take i).all fun e => key e ≠ key x)
      = items.zipIdx.filter fun (x, i) => (items.take i).all fun e => key e ≠ key x := by
    refine List.filter_congr ?_
    rintro ⟨x, i⟩ hx
    have hi : i < items.length := by
      have hbound := List.snd_lt_add_of_mem_zipIdx hx
      omega
    dsimp only
    rw [List.take_append_of_le_length hi.le]
  have hlast : ((items ++ [d]).take items.length).all (fun e => key e ≠ key d)
      = decide (key d ∉ items.map key) := by
    rw [List.take_left', Bool.eq_iff_iff] <;> simp
  unfold leaders
  rw [List.zipIdx_append, List.filter_append, hfront, List.map_append]
  congr 1
  simp only [List.zipIdx_singleton, Nat.zero_add]
  rw [List.filter_singleton, hlast]
  by_cases h : key d ∈ items.map key <;> simp [h]

/-- The leaders depend on which items share a key only. -/
theorem leaders_congr {γ : Type} [DecidableEq γ] {key' : Diagnostic → γ} {items : List Diagnostic}
    (h : ∀ d ∈ items, ∀ e ∈ items, key d = key e ↔ key' d = key' e) :
    leaders key items = leaders key' items := by
  unfold leaders
  congr 1
  refine List.filter_congr ?_
  rintro ⟨d, i⟩ hd
  have hmem : d ∈ items := List.fst_mem_of_mem_zipIdx hd
  rw [Bool.eq_iff_iff, List.all_eq_true, List.all_eq_true]
  refine forall₂_congr fun e he => ?_
  simpa using not_congr (h e (List.mem_of_mem_take he) d hmem)

end Leaders

/-! ## Dropping repetitions -/

theorem firsts_concat (items : List Diagnostic) (d : Diagnostic) : ∀ seen : List String,
    firsts seen (items ++ [d])
      = firsts seen items ++ if label d ∈ seen ++ items.map label then [] else [d] := by
  induction items with
  | nil =>
      intro seen
      by_cases h : label d ∈ seen <;> simp [firsts, h]
  | cons e items ih =>
      intro seen
      by_cases h : label e ∈ seen
      · -- the label of `e` was seen, so it makes no difference
        have hsame : label d ∈ seen ++ items.map label ↔
            label d ∈ seen ++ (e :: items).map label := by
          simp only [List.map_cons, List.mem_append, List.mem_cons]
          constructor
          · rintro (hs | hi)
            · exact .inl hs
            · exact .inr (.inr hi)
          · rintro (hs | he | hi)
            · exact .inl hs
            · exact .inl (he ▸ h)
            · exact .inr hi
        simp only [List.cons_append, firsts, List.contains_iff_mem, h, if_true, ih, hsame]
      · -- the label of `e` is new, so it joins those that were seen
        have hsame : label d ∈ label e :: (seen ++ items.map label)
            ↔ label d ∈ seen ++ (e :: items).map label := by
          simp only [List.map_cons, List.mem_append, List.mem_cons]
          tauto
        simp only [List.cons_append, firsts, List.contains_iff_mem, h, if_false, ih, hsame]

theorem firsts_eq_leaders (items : List Diagnostic) : firsts [] items = leaders label items := by
  induction items using List.reverseRecOn with
  | nil => rfl
  | append_singleton items d ih => rw [firsts_concat, leaders_concat, ih, List.nil_append]

theorem firsts_sublist (items : List Diagnostic) : ∀ seen, (firsts seen items).Sublist items := by
  induction items with
  | nil => exact fun _ => .slnil
  | cons d items ih =>
      intro seen
      unfold firsts
      split
      · exact (ih seen).cons d
      · exact (ih _).cons_cons d

theorem labels_firsts (items : List Diagnostic) : ∀ seen,
    ((firsts seen items).map label).Nodup ∧ ∀ d ∈ firsts seen items, label d ∉ seen := by
  induction items with
  | nil => exact fun _ => ⟨.nil, fun _ h => nomatch h⟩
  | cons d items ih =>
      intro seen
      unfold firsts
      split
      · exact ih seen
      · rename_i hnew
        obtain ⟨hnodup, hseen⟩ := ih (label d :: seen)
        refine ⟨?_, ?_⟩
        · rw [List.map_cons, List.nodup_cons]
          refine ⟨?_, hnodup⟩
          intro hmem
          obtain ⟨e, he, heq⟩ := List.mem_map.mp hmem
          exact hseen e he (heq ▸ List.mem_cons_self)
        · intro e he
          rcases List.mem_cons.mp he with rfl | he
          · simpa using hnew
          · exact fun h => hseen e he (List.mem_cons_of_mem _ h)

/-- Items with new labels, each once, are all kept. -/
theorem firsts_eq_self {items : List Diagnostic} : ∀ {seen : List String},
    (items.map label).Nodup → (∀ d ∈ items, label d ∉ seen) → firsts seen items = items := by
  induction items with
  | nil => exact fun _ _ => rfl
  | cons d items ih =>
      intro seen hnodup hseen
      rw [List.map_cons, List.nodup_cons] at hnodup
      have hnew : label d ∉ seen := hseen d List.mem_cons_self
      unfold firsts
      rw [if_neg (by simpa using hnew), ih hnodup.2]
      intro e he hmem
      rcases List.mem_cons.mp hmem with heq | hmem
      · exact hnodup.1 (List.mem_map.mpr ⟨e, he, heq⟩)
      · exact hseen e (List.mem_cons_of_mem d he) hmem

theorem dedup_dedup (b : Bag) : b.dedup.dedup = b.dedup := by
  obtain ⟨hnodup, hseen⟩ := labels_firsts b.items []
  have hsame : firsts [] (firsts [] b.items) = firsts [] b.items := firsts_eq_self hnodup hseen
  unfold dedup
  dsimp only
  rw [hsame]

/-- **Dropping repetitions keeps the first finding of each code, span and message** and no other, in
the order of the bag, if all codes are declared; to do it again changes nothing. -/
theorem dedup_leaders (b : Bag) (h : ∀ d ∈ b.items, d.code ∈ Code.declared) :
    b.dedup = { b with items := leaders identity b.items } ∧ b.dedup.dedup = b.dedup := by
  refine ⟨?_, b.dedup_dedup⟩
  unfold dedup
  rw [firsts_eq_leaders]
  congr 1
  exact leaders_congr label fun d hd e he => label_eq_iff_identity (h d hd) (h e he)

/-- Findings whose messages hold colons, numbers and the texts of codes. The second one repeats the
first one with another severity and another subject. -/
def colonBag : Bag where
  items := [
    { code := .unresolvedReference, span := ⟨1, 2, 3⟩, message := "1:2-3:SEM3001" },
    { severity := .error, code := .unresolvedReference, span := ⟨1, 2, 3⟩,
      message := "1:2-3:SEM3001", subject := "A" },
    { code := .unresolvedReference, span := ⟨1, 2, 3⟩, message := ":1:2-3:SEM3001" },
    { code := .unknown, span := ⟨1, 2, 3⟩, message := "1:2-3:SEM3001" },
    { code := .unresolvedReference, span := ⟨1, 2, 31⟩, message := "2-3:SEM3001" }]

theorem dedup_leaders_colons : (∀ d ∈ colonBag.items, d.code ∈ Code.declared) ∧
    colonBag.dedup = { colonBag with items := leaders identity colonBag.items } ∧
    colonBag.dedup.dedup = colonBag.dedup :=
  ⟨by decide, dedup_leaders colonBag (by decide)⟩

end Bag

end SymbolAtlas
