import SymbolAtlas.Proofs.Admission

set_option autoImplicit false

/-! # Which links are cut

Entries are looked at in order, and a link that is cut is gone when later entries are looked at.
What is cut can still be told from the links as they were: `Closes` says that the links from a place
never end and that no place on the way stands before it. `CutBefore` is the state of the links half
way, and `CutBefore.endless_left_iff` what an entry sees of it: an endless walk is still endless
exactly if it meets no place that was cut. `cutCircles_earliest` puts this together for entries with
any links whatever. -/

namespace SymbolAtlas.Manifest

/-! ## Walks -/

theorem walk_add (next : Nat → Option Nat) (m : Nat) :
    ∀ i k, walk next i (m + k) = (walk next i m).bind fun j => walk next j k := by
  induction m with
  | zero => intro i k; rw [Nat.zero_add, walk, Option.bind_some]
  | succ m ih =>
      intro i k
      rw [Nat.add_right_comm, walk, walk, Option.bind_assoc]
      cases next i with
      | none => rfl
      | some j => exact ih j k

/-- What is met after a place that is met is met. -/
theorem walk_trans {next : Nat → Option Nat} {i j l m k : Nat} (hj : walk next i m = some j)
    (hl : walk next j k = some l) : walk next i (m + k) = some l := by
  rw [walk_add, hj]
  exact hl

theorem walk_succ {next : Nat → Option Nat} {i j l k : Nat} (hj : walk next i k = some j)
    (hl : next j = some l) : walk next i (k + 1) = some l :=
  walk_trans hj (by rw [walk, hl]; rfl)

/-- An endless walk has no end after any of its places. -/
theorem Endless.of_walk {next : Nat → Option Nat} {i j m : Nat} (h : Endless next i)
    (hj : walk next i m = some j) : Endless next j := by
  intro k
  have := h (m + k)
  rwa [walk_add, hj] at this

theorem endless_of_walk_self {next : Nat → Option Nat} {i k : Nat}
    (h : walk next i (k + 1) = some i) : Endless next i := by
  -- every place of the walk has a next one, and the last place is the first
  refine endless_of_forall (S := fun j => ∃ m < k + 1, walk next i m = some j) ?_
    ⟨0, Nat.succ_pos k, rfl⟩
  rintro j ⟨m, hm, hj⟩
  have hrest : walk next j (k - m + 1) = some i := by
    have := walk_add next m i (k - m + 1)
    rw [show m + (k - m + 1) = k + 1 by omega, h, hj] at this
    exact this.symm
  rw [walk] at hrest
  obtain ⟨l, hl, hback⟩ := Option.bind_eq_some_iff.mp hrest
  by_cases hlast : m = k
  · subst hlast
    rw [Nat.sub_self] at hback
    obtain rfl : l = i := Option.some.inj hback
    exact ⟨l, hl, 0, by omega, rfl⟩
  · exact ⟨l, hl, m + 1, by omega, walk_succ hj hl⟩

/-- A walk that is seen to come back to a place is endless. -/
theorem endless_of_loops (links : Array (Option Nat)) (fuel : Nat) :
    ∀ (seen : List Nat) (place : Nat),
      (∀ i ∈ seen, ∃ k, walk (links[·]?.join) i k = some place) →
      loops links fuel seen place = true → Endless (links[·]?.join) place := by
  induction fuel with
  | zero => intro seen place _ h; simp [loops] at h
  | succ fuel ih =>
      intro seen place hseen h
      rw [loops] at h
      cases hnext : links[place]?.join with
      | none => simp [hnext] at h
      | some next =>
          rw [hnext] at h
          simp only [Bool.or_eq_true, List.contains_iff_mem] at h
          refine endless_iff.mpr ⟨next, hnext, ?_⟩
          -- a place that was seen led here, so the walk comes back to it
          rcases h with hmem | hrest
          · obtain ⟨k, hk⟩ := hseen next hmem
            exact endless_of_walk_self (walk_succ hk hnext)
          · refine ih (next :: seen) next ?_ hrest
            intro i hi
            rcases List.mem_cons.mp hi with rfl | hi
            · exact ⟨0, rfl⟩
            · obtain ⟨k, hk⟩ := hseen i hi
              exact ⟨k + 1, walk_succ hk hnext⟩

/-- **A walk is seen to go round exactly if it never ends**, and an allowance beyond the number of
places makes no difference. -/
theorem loops_iff_endless {links : Array (Option Nat)} {fuel : Nat} (hfuel : links.size < fuel)
    (i : Nat) : loops links fuel [i] i = true ↔ Endless (links[·]?.join) i := by
  refine ⟨endless_of_loops links fuel [i] i ?_, fun h => loops_self_of_endless h hfuel⟩
  intro j hj
  rw [List.mem_singleton.mp hj]
  exact ⟨0, rfl⟩

/-! ## Earliest places -/

/-- The links from `i` never end, and of all places on the way `i` is the earliest. -/
def Closes (next : Nat → Option Nat) (i : Nat) : Prop :=
  Endless next i ∧ ∀ k j, walk next i k = some j → i ≤ j

/-- An endless walk meets the earliest of its places. -/
theorem Endless.exists_closes {next : Nat → Option Nat} {i : Nat} (h : Endless next i) :
    ∃ k m, walk next i k = some m ∧ Closes next m ∧ ∀ k' j, walk next i k' = some j → m ≤ j := by
  classical
  have hsome : ∃ m k, walk next i k = some m := ⟨i, 0, rfl⟩
  obtain ⟨k, hk⟩ := Nat.find_spec hsome
  have hmin : ∀ k' j, walk next i k' = some j → Nat.find hsome ≤ j :=
    fun k' j hj => Nat.find_min' hsome ⟨k', hj⟩
  refine ⟨k, _, hk, ⟨h.of_walk hk, fun k' j hj => ?_⟩, hmin⟩
  exact hmin (k + k') j (walk_trans hk hj)

/-- A place is the earliest one of its walk if the walk meets no earlier place of that kind. -/
theorem Endless.closes_of_forall {next : Nat → Option Nat} {i : Nat} (h : Endless next i)
    (hearlier : ∀ k j, walk next i k = some j → j < i → ¬ Closes next j) : Closes next i := by
  obtain ⟨k, m, hm, hcloses, hmin⟩ := h.exists_closes
  have hle : i ≤ m := by
    by_contra hlt
    exact hearlier k m hm (by omega) hcloses
  exact ⟨h, fun k' j hj => hle.trans (hmin k' j hj)⟩

/-! ## Half way through the places -/

/-- The links when the places before `s` have been looked at. -/
structure CutBefore (next : Nat → Option Nat) (s : Nat) (links : Array (Option Nat)) : Prop where
  cut : ∀ i < s, Closes next i → links[i]?.join = none
  kept : ∀ i, ¬ (i < s ∧ Closes next i) → links[i]?.join = next i

namespace CutBefore

variable {next : Nat → Option Nat} {s : Nat} {links : Array (Option Nat)}

/-- **What is left of a walk** when some places were cut: it is endless exactly if it was endless
before and meets none of them. -/
theorem endless_left_iff (h : CutBefore next s links) (i : Nat) :
    Endless (links[·]?.join) i ↔
      Endless next i ∧ ∀ k j, walk next i k = some j → j < s → ¬ Closes next j := by
  constructor
  · intro hend
    -- the links that are left are those from before, so both walks meet the same places
    have hsame : ∀ k, walk next i k = walk (links[·]?.join) i k := by
      intro k
      induction k with
      | zero => rfl
      | succ k ih =>
          obtain ⟨j, hj⟩ := Option.ne_none_iff_exists'.mp (hend k)
          obtain ⟨l, hl, -⟩ := endless_iff.mp (hend.of_walk hj)
          have hnot : ¬ (j < s ∧ Closes next j) := by
            rintro ⟨hlt, hcloses⟩
            rw [h.cut j hlt hcloses] at hl
            cases hl
          rw [hj] at ih
          rw [walk_succ hj hl, walk_succ ih ((h.kept j hnot).symm.trans hl)]
    refine ⟨fun k => by rw [hsame]; exact hend k, fun k j hj hlt hcloses => ?_⟩
    rw [hsame] at hj
    obtain ⟨l, hl, -⟩ := endless_iff.mp (hend.of_walk hj)
    rw [h.cut j hlt hcloses] at hl
    cases hl
  · rintro ⟨hend, hnot⟩
    refine endless_of_forall (S := fun j => ∃ k, walk next i k = some j) ?_ ⟨0, rfl⟩
    rintro j ⟨k, hj⟩
    obtain ⟨l, hl, -⟩ := endless_iff.mp (hend.of_walk hj)
    refine ⟨l, ?_, k + 1, walk_succ hj hl⟩
    rw [h.kept j fun hcut => hnot k j hj hcut.1 hcut.2]
    exact hl

/-- The place that comes next is seen to go round exactly if it is the earliest one of an endless
walk. -/
theorem loops_iff (h : CutBefore next s links) :
    loops links (links.size + 1) [s] s = true ↔ Closes next s := by
  rw [loops_iff_endless (Nat.lt_succ_self _), h.endless_left_iff]
  constructor
  · rintro ⟨hend, hnot⟩
    exact hend.closes_of_forall hnot
  · rintro ⟨hend, hmin⟩
    refine ⟨hend, fun k j hj hlt => ?_⟩
    have := hmin k j hj
    omega

theorem step_cut (h : CutBefore next s links) (hs : Closes next s) :
    CutBefore next (s + 1) (links.setIfInBounds s none) := by
  have hget : ∀ i, (links.setIfInBounds s none)[i]?.join
      = if i = s then none else links[i]?.join := by
    intro i
    rw [Array.getElem?_setIfInBounds]
    by_cases hi : i = s
    · subst hi
      rw [if_pos rfl, if_pos rfl]
      split <;> rfl
    · rw [if_neg fun h => hi h.symm, if_neg hi]
  constructor
  · intro i hi hcloses
    rw [hget]
    by_cases his : i = s
    · rw [if_pos his]
    · rw [if_neg his]
      exact h.cut i (by omega) hcloses
  · intro i hi
    have his : i ≠ s := by
      rintro rfl
      exact hi ⟨Nat.lt_succ_self i, hs⟩
    rw [hget, if_neg his]
    exact h.kept i fun hcut => hi ⟨by omega, hcut.2⟩

theorem step_keep (h : CutBefore next s links) (hs : ¬ Closes next s) :
    CutBefore next (s + 1) links := by
  constructor
  · intro i hi hcloses
    have his : i ≠ s := by
      rintro rfl
      exact hs hcloses
    exact h.cut i (by omega) hcloses
  · intro i hi
    exact h.kept i fun hcut => hi ⟨by omega, hcut.2⟩

/-- **All places, one after the other.** The places that are cut are the earliest ones of endless
walks. -/
theorem cut_range (n : Nat) : ∀ {s : Nat} {links : Array (Option Nat)}, CutBefore next s links →
    CutBefore next (s + n) (cutLoops links (List.range' s n)).1 ∧
    ∀ i, i ∈ (cutLoops links (List.range' s n)).2 ↔ i ∈ List.range' s n ∧ Closes next i := by
  induction n with
  | zero => intro s links h; exact ⟨h, by simp [cutLoops]⟩
  | succ n ih =>
      intro s links h
      rw [List.range'_succ, cutLoops, show s + (n + 1) = s + 1 + n by omega]
      -- what is seen at `s` in the links that are left is told by the links as they were
      by_cases hs : Closes next s
      · rw [if_pos (h.loops_iff.mpr hs)]
        obtain ⟨hafter, hmem⟩ := ih (h.step_cut hs)
        refine ⟨hafter, fun i => ?_⟩
        rw [List.mem_cons, List.mem_cons, hmem]
        constructor
        · rintro (rfl | ⟨hi, hcloses⟩)
          · exact ⟨Or.inl rfl, hs⟩
          · exact ⟨Or.inr hi, hcloses⟩
        · rintro ⟨rfl | hi, hcloses⟩
          · exact Or.inl rfl
          · exact Or.inr ⟨hi, hcloses⟩
      · rw [if_neg (mt h.loops_iff.mp hs)]
        obtain ⟨hafter, hmem⟩ := ih (h.step_keep hs)
        refine ⟨hafter, fun i => ?_⟩
        rw [hmem, List.mem_cons]
        constructor
        · rintro ⟨hi, hcloses⟩
          exact ⟨Or.inr hi, hcloses⟩
        · rintro ⟨rfl | hi, hcloses⟩
          · exact absurd hcloses hs
          · exact ⟨hi, hcloses⟩

end CutBefore

/-- Cut places come in the order in which places are looked at. -/
theorem cutLoops_sublist (places : List Nat) :
    ∀ links : Array (Option Nat), (cutLoops links places).2.Sublist places := by
  induction places with
  | nil => intro links; exact List.Sublist.refl _
  | cons k places ih =>
      intro links
      rw [cutLoops]
      split
      · exact (ih _).cons_cons k
      · exact (ih _).cons k

/-! ## Entries -/

/-- The place of the entry that the entry at place `i` is declared in. -/
def ownerAt (entries : List Entry) (i : Nat) : Option Nat :=
  entries[i]?.bind Entry.owner

theorem getElem?_map_owner (entries : List Entry) (i : Nat) :
    (entries.map Entry.owner).toArray[i]?.join = ownerAt entries i := by
  rw [List.getElem?_toArray, List.getElem?_map, ownerAt]
  cases entries[i]? <;> rfl

/-- The links that are left, and the places of those that are cut. -/
def leftLinks (entries : List Entry) : Array (Option Nat) × List Nat :=
  cutLoops (entries.map Entry.owner).toArray (List.range entries.length)

theorem Closes.lt_length {entries : List Entry} {i : Nat} (h : Closes (ownerAt entries) i) :
    i < entries.length := by
  obtain ⟨j, hj, -⟩ := endless_iff.mp h.1
  rw [← getElem?_map_owner] at hj
  simpa using Link.lt_size hj

/-- **The links of entries, after all of them were looked at.** -/
theorem cutBefore_leftLinks (entries : List Entry) :
    CutBefore (ownerAt entries) entries.length (leftLinks entries).1 ∧
    ∀ i, i ∈ (leftLinks entries).2 ↔ Closes (ownerAt entries) i := by
  have hstart : CutBefore (ownerAt entries) 0 (entries.map Entry.owner).toArray :=
    ⟨by simp, fun i _ => getElem?_map_owner entries i⟩
  obtain ⟨hafter, hmem⟩ := hstart.cut_range entries.length
  rw [Nat.zero_add, ← List.range_eq_range'] at hafter
  rw [← List.range_eq_range'] at hmem
  refine ⟨hafter, fun i => ?_⟩
  rw [leftLinks, hmem, List.mem_range]
  exact ⟨fun h => h.2, fun h => ⟨h.lt_length, h⟩⟩

theorem join_leftLinks (entries : List Entry) (i : Nat) : (leftLinks entries).1[i]?.join
    = if i ∈ (leftLinks entries).2 then none else ownerAt entries i := by
  obtain ⟨hafter, hmem⟩ := cutBefore_leftLinks entries
  by_cases hi : i ∈ (leftLinks entries).2
  · have hcloses := (hmem i).mp hi
    rw [if_pos hi, hafter.cut i hcloses.lt_length hcloses]
  · rw [if_neg hi, hafter.kept i fun h => hi ((hmem i).mpr h.2)]

theorem getElem?_cutCircles (entries : List Entry) (i : Nat) : (cutCircles entries).1[i]?
    = entries[i]?.map fun e => if i ∈ (leftLinks entries).2 then e.unlinked else e := by
  show (entries.mapIdx fun i e => { e with owner := (leftLinks entries).1[i]?.join })[i]? = _
  rw [List.getElem?_mapIdx]
  refine Option.map_congr fun e he => ?_
  have howner : ownerAt entries i = e.owner := by
    rw [ownerAt, he]
    rfl
  rw [join_leftLinks, howner]
  split <;> rfl

theorem ownerAt_cutCircles (entries : List Entry) (i : Nat) :
    ownerAt (cutCircles entries).1 i = (leftLinks entries).1[i]?.join := by
  rw [join_leftLinks, ownerAt, ownerAt, getElem?_cutCircles]
  cases entries[i]? with
  | none => simp
  | some e =>
      rw [Option.map_some, Option.bind_some, Option.bind_some]
      split <;> rfl

/-- **No links are left that never end.** They would lead to the earliest of their places, and the
link of that place was cut. -/
theorem not_endless_cutCircles (entries : List Entry) (i : Nat) :
    ¬ Endless (ownerAt (cutCircles entries).1) i := by
  intro h
  rw [funext (ownerAt_cutCircles entries), (cutBefore_leftLinks entries).1.endless_left_iff] at h
  obtain ⟨k, m, hm, hcloses, -⟩ := h.1.exists_closes
  exact h.2 k m hm hcloses.lt_length hcloses

/-- **Which links are cut.** Whatever the links of some entries are, whether a walk goes round is
decided within any allowance beyond the number of places. The link of an entry is cut exactly if the
links from it never end and it is the earliest entry on the way. There is one report for each link
that is cut, in the order of the entries, and nothing else changes. Afterwards all links end. -/
theorem cutCircles_earliest (entries : List Entry) :
    (∀ (links : Array (Option Nat)) (i fuel : Nat), links.size < fuel →
      (loops links fuel [i] i = true ↔ Endless (links[·]?.join) i)) ∧
    ∃ dropped : List Nat, dropped.Pairwise (· < ·) ∧
      (∀ i, i ∈ dropped ↔ Endless (ownerAt entries) i ∧
        ∀ k j, walk (ownerAt entries) i k = some j → i ≤ j) ∧
      (∀ i : Nat, (cutCircles entries).1[i]?
        = entries[i]?.map fun e => if i ∈ dropped then e.unlinked else e) ∧
      (cutCircles entries).2 = dropped.filterMap (fun i => entries[i]?.map circleReport) ∧
      ((entries.map Entry.key).Nodup → ∀ (i : Nat) (e : Entry), entries[i]? = some e →
        (cutCircles entries).2.countP (fun d => d.code == .badContainingType && d.subject == e.key)
          = if i ∈ dropped then 1 else 0) ∧
      ∀ i, ∃ k, walk (ownerAt (cutCircles entries).1) i k = none := by
  have hsorted : (leftLinks entries).2.Pairwise (· < ·) :=
    List.pairwise_lt_range.sublist (cutLoops_sublist _ _)
  refine ⟨fun links i fuel hfuel => loops_iff_endless hfuel i, (leftLinks entries).2, hsorted,
    (cutBefore_leftLinks entries).2, getElem?_cutCircles entries, rfl, ?_, ?_⟩
  · intro hkeys i e he
    refine countP_circleReport hkeys he hsorted.nodup fun x => ?_
    simp [circleReport, Diagnostic.error]
  · intro i
    by_contra hnone
    exact not_endless_cutCircles entries i fun k hk => hnone ⟨k, hk⟩

/-- Six types: the first hangs on a circle of the next two, the fourth lies in itself and the fifth
in the fourth, and the last lies in no type. -/
def tangled : List Entry :=
  [("a", some 2), ("b", some 2), ("c", some 1), ("d", some 3), ("e", some 3), ("f", none)].map
    fun (key, owner) => { draft := { key, kindName := "type" }, kind := .type, span := {}, owner }

/-- The first entry is cut though it lies on no circle, for the circle stands behind it. -/
theorem cutCircles_earliest_tangled : (tangled.map Entry.key).Nodup ∧
    (cutCircles tangled).1.map Entry.owner = [none, none, some 1, none, some 3, none] ∧
    ∃ dropped : List Nat, 0 ∈ dropped ∧ 2 ∉ dropped ∧
      (∀ i, i ∈ dropped ↔ Endless (ownerAt tangled) i ∧
        ∀ k j, walk (ownerAt tangled) i k = some j → i ≤ j) ∧
      ∀ (i : Nat) (e : Entry), tangled[i]? = some e →
        (cutCircles tangled).2.countP (fun d => d.code == .badContainingType && d.subject == e.key)
          = if i ∈ dropped then 1 else 0 := by
  have hkeys : (tangled.map Entry.key).Nodup := by decide
  obtain ⟨-, dropped, -, hmem, -, -, hcount, -⟩ := cutCircles_earliest tangled
  have hzero := hcount hkeys 0 _ rfl
  have htwo := hcount hkeys 2 _ rfl
  refine ⟨hkeys, by decide +kernel, dropped, ?_, ?_, hmem, hcount hkeys⟩
  · by_contra hnot
    rw [if_neg hnot] at hzero
    exact absurd hzero (by decide +kernel)
  · intro hin
    rw [if_pos hin] at htwo
    exact absurd htwo (by decide +kernel)

end SymbolAtlas.Manifest
