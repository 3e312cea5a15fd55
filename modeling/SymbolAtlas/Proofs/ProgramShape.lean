import SymbolAtlas.Manifest.Program
import Mathlib.Tactic

set_option autoImplicit false

/-! # The shape of a checked manifest

Whatever a manifest holds, the program that is read from it has entries with distinct keys that are
not empty, and links to containing types that lead to types and never round in a circle
(`wellFormed_of_decode`). The circle is the interesting part: an entry is cut loose when the walk
from it meets a place twice, and `loops_of_endless` says that a walk without an end does so before
its allowance runs out. -/

namespace SymbolAtlas.Manifest

/-! ## Admitting entries -/

/-- The kept entries have distinct keys, none of them empty. -/
structure Distinct (kept : List Entry) : Prop where
  nodup : (kept.map Entry.key).Nodup
  key_ne : ∀ e ∈ kept, e.key ≠ ""

theorem distinct_consider (f : File) {a : Admission} (h : Distinct a.kept) (d : Draft) :
    Distinct (a.consider f d).kept := by
  unfold Admission.consider
  dsimp only
  by_cases hkey : d.key = ""
  · rw [if_pos hkey]
    exact h
  · rw [if_neg hkey]
    cases Kind.parse? d.kindName with
    | none => exact h
    | some kind =>
        dsimp only
        cases hfind : a.kept.find? (·.key == d.key) with
        | some previous => exact h
        | none =>
            -- only a draft with a new key is kept
            have hnew : d.key ∉ a.kept.map Entry.key := by
              intro hmem
              obtain ⟨e, he, hek⟩ := List.mem_map.mp hmem
              have := List.find?_eq_none.mp hfind e he
              simp [hek] at this
            refine ⟨?_, ?_⟩
            · rw [List.map_append]
              exact h.nodup.append (List.nodup_singleton d.key) (List.disjoint_singleton.mpr hnew)
            · intro e he
              rcases List.mem_append.mp he with he | he
              · exact h.key_ne e he
              · obtain rfl : e = _ := List.mem_singleton.mp he
                exact hkey

theorem distinct_admitted (f : File) (drafts : List Draft) :
    Distinct (drafts.foldl (Admission.consider f) {}).kept := by
  suffices h : ∀ a : Admission, Distinct a.kept →
      Distinct (drafts.foldl (Admission.consider f) a).kept from h {} ⟨List.nodup_nil, by simp⟩
  induction drafts with
  | nil => exact fun a ha => ha
  | cons d drafts ih => exact fun a ha => ih _ (distinct_consider f ha d)

/-- The containing type of an entry is a kept entry that is a type. -/
theorem ownerOf_type {kept : List Entry} {e : Entry} {place : Nat}
    (h : (ownerOf kept e).1 = some place) :
    ∃ o, kept[place]? = some o ∧ o.kind = .type ∧ o.key = e.draft.containing := by
  unfold ownerOf at h
  dsimp only at h
  by_cases hc : e.draft.containing = ""
  · simp [hc] at h
  · rw [if_neg hc] at h
    split at h
    · rename_i i o hidx hfind
      by_cases hk : o.kind = .type
      · rw [if_pos hk] at h
        obtain rfl : i = place := Option.some.inj h
        obtain ⟨hlt, hkey, hfirst⟩ := List.findIdx?_eq_some_iff_getElem.mp hidx
        -- the search for the place and the search for the entry stop at the same entry
        have ho : kept[i]? = some o := by
          rw [List.find?_eq_some_iff_getElem] at hfind
          obtain ⟨hok, n, hn, hno, hbefore⟩ := hfind
          have hni : n = i := by
            rcases Nat.lt_trichotomy n i with hlt' | heq | hgt
            · have := hfirst n hlt'
              rw [hno] at this
              exact absurd hok this
            · exact heq
            · have := hbefore i hgt
              rw [hkey] at this
              simp at this
          subst hni
          rw [List.getElem?_eq_getElem hn, hno]
        refine ⟨o, ho, hk, ?_⟩
        have := List.find?_some hfind
        simpa using this
      · rw [if_neg hk] at h
        simp at h
    · simp at h

/-! ## Cutting circles -/

/-- The link from place `i` leads to place `j`. -/
def Link (links : Array (Option Nat)) (i j : Nat) : Prop :=
  links[i]?.join = some j

theorem Link.lt_size {links : Array (Option Nat)} {i j : Nat} (h : Link links i j) :
    i < links.size := by
  by_contra hge
  unfold Link at h
  rw [Array.getElem?_eq_none (by omega)] at h
  simp at h

/-- The place that is `k` links away from `i`, if the links go that far. -/
def walk (next : Nat → Option Nat) : (i k : Nat) → Option Nat
  | i, 0 => some i
  | i, k + 1 => (next i).bind fun j => walk next j k

/-- The links from `i` on never end. -/
def Endless (next : Nat → Option Nat) (i : Nat) : Prop :=
  ∀ k, walk next i k ≠ none

theorem endless_iff {next : Nat → Option Nat} {i : Nat} :
    Endless next i ↔ ∃ j, next i = some j ∧ Endless next j := by
  constructor
  · intro h
    cases hnext : next i with
    | none =>
        have := h 1
        rw [walk, hnext] at this
        exact absurd rfl this
    | some j =>
        refine ⟨j, rfl, fun k => ?_⟩
        have := h (k + 1)
        rwa [walk, hnext] at this
  · rintro ⟨j, hnext, h⟩ k
    cases k with
    | zero => simp [walk]
    | succ k =>
        rw [walk, hnext]
        exact h k

/-- Places that all lead to one another have no end. -/
theorem endless_of_forall {next : Nat → Option Nat} {S : Nat → Prop}
    (hS : ∀ i, S i → ∃ j, next i = some j ∧ S j) {i : Nat} (hi : S i) : Endless next i := by
  intro k
  induction k generalizing i with
  | zero => simp [walk]
  | succ k ih =>
      obtain ⟨j, hnext, hj⟩ := hS i hi
      rw [walk, hnext]
      exact ih hj

/-- Links are single, so a circle through a place is a circle through the next one. -/
theorem cycle_next {links : Array (Option Nat)} {i j : Nat} (h : Link links i j)
    (hc : Relation.TransGen (Link links) i i) : Relation.TransGen (Link links) j j := by
  obtain ⟨k, hik, hki⟩ := Relation.TransGen.head'_iff.mp hc
  obtain rfl : k = j := by
    unfold Link at h hik
    exact Option.some.inj (hik.symm.trans h)
  exact Relation.TransGen.tail' hki hik

theorem endless_of_cycle {links : Array (Option Nat)} {i : Nat}
    (hc : Relation.TransGen (Link links) i i) : Endless (links[·]?.join) i := by
  refine endless_of_forall (S := fun i => Relation.TransGen (Link links) i i) ?_ hc
  intro i hi
  obtain ⟨j, hij, -⟩ := Relation.TransGen.head'_iff.mp hi
  exact ⟨j, hij, cycle_next hij hi⟩

/-- **A walk without an end is seen to be one.** The places seen are distinct, so they run out
first. -/
theorem loops_of_endless (links : Array (Option Nat)) (fuel : Nat) :
    ∀ (seen : List Nat) (place : Nat), Endless (links[·]?.join) place →
      seen.Nodup → (∀ i ∈ seen, i < links.size) → links.size < seen.length + fuel →
      loops links fuel seen place = true := by
  induction fuel with
  | zero =>
      -- there are not that many places
      intro seen place _ hn hlt hfuel
      have hsub : seen ⊆ List.range links.size := fun i hi => List.mem_range.mpr (hlt i hi)
      have hlen := (hn.subperm hsub).length_le
      rw [List.length_range] at hlen
      omega
  | succ fuel ih =>
      intro seen place hend hn hlt hfuel
      obtain ⟨next, hnext, hend'⟩ := endless_iff.mp hend
      rw [loops, hnext]
      dsimp only
      by_cases hseen : next ∈ seen
      · simp [hseen]
      · have hltnext : next < links.size := by
          obtain ⟨_, h, -⟩ := endless_iff.mp hend'
          exact Link.lt_size h
        rw [ih (next :: seen) next hend' (List.nodup_cons.mpr ⟨hseen, hn⟩) ?_ ?_, Bool.or_true]
        · intro i hi
          rcases List.mem_cons.mp hi with rfl | hi
          · exact hltnext
          · exact hlt i hi
        · rw [List.length_cons]
          omega

/-- A place that has no end is seen to have none. -/
theorem loops_self_of_endless {links : Array (Option Nat)} {i fuel : Nat}
    (h : Endless (links[·]?.join) i) (hfuel : links.size < fuel) :
    loops links fuel [i] i = true := by
  obtain ⟨j, hij, -⟩ := endless_iff.mp h
  refine loops_of_endless links fuel [i] i h (List.nodup_singleton i) ?_ ?_
  · intro x hx
    rw [List.mem_singleton.mp hx]
    exact Link.lt_size hij
  · rw [List.length_singleton]
    omega

theorem link_of_cut {links : Array (Option Nat)} {k i j : Nat}
    (h : Link (links.setIfInBounds k none) i j) : i ≠ k ∧ Link links i j := by
  unfold Link at h ⊢
  rw [Array.getElem?_setIfInBounds] at h
  by_cases hk : k = i
  · subst hk
    by_cases hlt : k < links.size <;> simp [hlt] at h
  · rw [if_neg hk] at h
    exact ⟨fun h' => hk h'.symm, h⟩

theorem link_of_cutLoops {places : List Nat} :
    ∀ {links : Array (Option Nat)} {i j : Nat}, Link (cutLoops links places).1 i j →
      Link links i j := by
  induction places with
  | nil => exact fun h => h
  | cons k places ih =>
      intro links i j h
      rw [cutLoops] at h
      by_cases hl : loops links (links.size + 1) [k] k = true
      · rw [if_pos hl] at h
        exact (link_of_cut (ih h)).2
      · rw [if_neg hl] at h
        exact ih h

/-- **After the cuts no link of a listed place lies on a circle.** A place that still has its link
was seen not to be on a circle when it was looked at, and links only went away since. -/
theorem cutLoops_acyclic {places : List Nat} :
    ∀ {links : Array (Option Nat)}, ∀ i ∈ places,
      ¬ Relation.TransGen (Link (cutLoops links places).1) i i := by
  induction places with
  | nil => simp
  | cons k places ih =>
      intro links i hi hc
      rw [cutLoops] at hc
      -- either the link of `k` was cut, or `k` was on no circle
      by_cases hl : loops links (links.size + 1) [k] k = true
      · rw [if_pos hl] at hc
        rcases List.mem_cons.mp hi with rfl | hi
        · obtain ⟨j, hij, -⟩ := Relation.TransGen.head'_iff.mp hc
          exact (link_of_cut (link_of_cutLoops hij)).1 rfl
        · exact ih i hi hc
      · rw [if_neg hl] at hc
        rcases List.mem_cons.mp hi with rfl | hi
        · have hc' : Relation.TransGen (Link links) i i :=
            Relation.TransGen.mono (fun _ _ h => link_of_cutLoops h) i i hc
          exact hl (loops_self_of_endless (endless_of_cycle hc') (Nat.lt_succ_self _))
        · exact ih i hi hc

/-! ## The program -/

namespace Program

/-- The entry at place `i` is declared in the entry at place `j`. -/
def OwnedBy (p : Program) (i j : Nat) : Prop :=
  ∃ e : Entry, p.entries[i]? = some e ∧ e.owner = some j

/-- **What every program that was read satisfies.** -/
structure WellFormed (p : Program) : Prop where
  distinct : Distinct p.entries.toList
  owner_type : ∀ {i : Nat} {e : Entry} {j : Nat}, p.entries[i]? = some e → e.owner = some j →
    ∃ o : Entry, p.entries[j]? = some o ∧ o.kind = .type
  acyclic : ∀ i, ¬ Relation.TransGen p.OwnedBy i i

end Program

/-- The links of some entries after all circles are cut, and the places of the links that were
cut. -/
def cutLinks (kept : List Entry) : Array (Option Nat) × List Nat :=
  cutLoops ((kept.map (ownerOf kept)).map Prod.fst).toArray (List.range kept.length)

theorem linkEntries_eq (kept : List Entry) :
    linkEntries kept
      = ((kept.mapIdx fun i e => { e with owner := (cutLinks kept).1[i]?.join }).toArray,
          kept.flatMap (fun e => (ownerOf kept e).2) ++
            (cutLinks kept).2.filterMap fun i => kept[i]?.map circleReport) := by
  unfold linkEntries cutCircles
  dsimp only
  set linked := kept.map fun e : Entry => { e with owner := (ownerOf kept e).1 } with hlinked
  have hcut : cutLoops (linked.map Entry.owner).toArray (List.range linked.length)
      = cutLinks kept := by
    rw [hlinked, List.length_map, List.map_map, cutLinks, List.map_map]
    rfl
  have hget : ∀ i : Nat, linked[i]?
      = kept[i]?.map fun e : Entry => { e with owner := (ownerOf kept e).1 } :=
    fun i => List.getElem?_map
  -- neither the entries after the cuts nor the reports look at the links from before
  have hentries :
      (linked.mapIdx fun i (e : Entry) => { e with owner := (cutLinks kept).1[i]?.join })
      = kept.mapIdx fun i e => { e with owner := (cutLinks kept).1[i]?.join } := by
    apply List.ext_getElem?
    intro i
    rw [List.getElem?_mapIdx, hget, Option.map_map, List.getElem?_mapIdx]
    rfl
  have hreports : ∀ i : Nat, linked[i]?.map circleReport = kept[i]?.map circleReport := by
    intro i
    rw [hget, Option.map_map]
    rfl
  rw [hcut, hentries]
  simp only [hreports]

/-- Entries that were admitted make a program once they are linked. -/
theorem linkEntries_wellFormed {kept : List Entry} (hk : Distinct kept) (path : String)
    (file : UInt32) (digest : List UInt8) :
    Program.WellFormed ⟨path, file, digest, (linkEntries kept).1⟩ := by
  set links := (cutLinks kept).1 with hlinks
  have hentries : (linkEntries kept).1.toList
      = kept.mapIdx fun i e => { e with owner := links[i]?.join } := by
    rw [linkEntries_eq]
  have hget : ∀ {i : Nat} {e : Entry}, (linkEntries kept).1[i]? = some e →
      ∃ e₀, kept[i]? = some e₀ ∧ e = { e₀ with owner := links[i]?.join } := by
    intro i e he
    rw [← Array.getElem?_toList, hentries, List.getElem?_mapIdx] at he
    obtain ⟨e₀, he₀, rfl⟩ := Option.map_eq_some_iff.mp he
    exact ⟨e₀, he₀, rfl⟩
  refine ⟨⟨?_, ?_⟩, ?_, ?_⟩
  · have hkeys : (linkEntries kept).1.toList.map Entry.key = kept.map Entry.key := by
      rw [hentries]
      apply List.ext_getElem?
      intro i
      simp only [List.getElem?_map, List.getElem?_mapIdx, Option.map_map]
      cases kept[i]? <;> rfl
    rw [hkeys]
    exact hk.nodup
  · intro e he
    obtain ⟨i, hi⟩ := List.mem_iff_getElem?.mp he
    rw [Array.getElem?_toList] at hi
    obtain ⟨e₀, he₀, rfl⟩ := hget hi
    exact hk.key_ne e₀ (List.mem_of_getElem? he₀)
  · -- cutting circles leaves no owner that was not named before
    intro i e j he hj
    obtain ⟨e₀, he₀, rfl⟩ := hget he
    have hlink : Link ((kept.map (ownerOf kept)).map Prod.fst).toArray i j := link_of_cutLoops hj
    unfold Link at hlink
    rw [List.getElem?_toArray, List.map_map, List.getElem?_map, he₀] at hlink
    obtain ⟨o, ho, hok, -⟩ := ownerOf_type (show (ownerOf kept e₀).1 = some j from hlink)
    refine ⟨{ o with owner := links[j]?.join }, ?_, hok⟩
    show (linkEntries kept).1[j]? = _
    rw [← Array.getElem?_toList, hentries, List.getElem?_mapIdx, ho]
    rfl
  · -- a circle of the program would be one of the links after the cuts
    intro i hc
    have hmono : Relation.TransGen (Link links) i i := by
      refine Relation.TransGen.mono ?_ i i hc
      rintro x y ⟨e, he, hy⟩
      obtain ⟨e₀, -, rfl⟩ := hget he
      exact hy
    have hlt : i < kept.length := by
      obtain ⟨j, hij, -⟩ := Relation.TransGen.head'_iff.mp hmono
      have := (link_of_cutLoops hij).lt_size
      simpa using this
    exact cutLoops_acyclic i (List.mem_range.mpr hlt) hmono

/-- **Every program that is read is well formed**, whatever the manifest holds. -/
theorem wellFormed_of_decode {f : File} {p : Program} {reports : List Diagnostic}
    (h : decode f = (.ok p, reports)) : p.WellFormed := by
  unfold decode at h
  split at h
  · simp at h
  · simp only [Prod.mk.injEq, Except.ok.injEq] at h
    obtain ⟨rfl, -⟩ := h
    exact linkEntries_wellFormed (distinct_admitted f _) _ _ _

theorem wellFormed_of_decodeFile {fs : FileSet} {id : UInt32} {p : Program}
    {reports : List Diagnostic} (h : decodeFile fs id = (.ok p, reports)) : p.WellFormed := by
  unfold decodeFile at h
  cases hf : fs.get? id with
  | none => simp [hf] at h
  | some f =>
      rw [hf] at h
      exact wellFormed_of_decode h

end SymbolAtlas.Manifest
