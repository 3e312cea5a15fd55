import SymbolAtlas.Proofs.OrderedClosures

set_option autoImplicit false

/-! # Required symbols

What an emitter has to produce for some roots is gathered root by root: a root joins with its
closure, and at the end the symbols are put in order. A closure leaves out its own root, roots may
lie in each other's closures, and every answer is kept and taken over by the next. None of this
shows in the result: in a table whose symbols are bound it is the least set that has the roots and
what its symbols depend on, by number (`required_least`). -/

namespace SymbolAtlas

/-! ## What roots lead to -/

namespace Atlas

variable {a : Atlas} {table : Nat} {roots : List (Option SymbolRef)}

/-- The symbol is a root, or a root reaches it. -/
def Called (a : Atlas) (roots : List (Option SymbolRef)) (q : SymbolRef) : Prop :=
  ∃ r, some r ∈ roots ∧ (q = r ∨ a.Reaches r q)

theorem called_root {r : SymbolRef} (hr : some r ∈ roots) : a.Called roots r :=
  ⟨r, hr, Or.inl rfl⟩

namespace Called

theorem dependsOn {x y : SymbolRef} (h : a.Called roots x) (hd : a.DependsOn x y) :
    a.Called roots y := by
  obtain ⟨r, hr, rfl | hreach⟩ := h
  · exact ⟨x, hr, Or.inr (.single hd)⟩
  · exact ⟨r, hr, Or.inr (hreach.tail hd)⟩

/-- **Nothing else is called**: what has the roots and what its symbols depend on has it all. -/
theorem least {S : Set SymbolRef} (hroots : ∀ r, some r ∈ roots → r ∈ S)
    (hclosed : ∀ x ∈ S, ∀ y, a.DependsOn x y → y ∈ S) {q : SymbolRef} (h : a.Called roots q) :
    q ∈ S := by
  obtain ⟨r, hr, rfl | hreach⟩ := h
  · exact hroots q hr
  · induction hreach with
    | single hd => exact hclosed r (hroots r hr) _ hd
    | tail _ hd ih => exact hclosed _ ih _ hd

theorem mem_members (henc : a.Encloses table) (hroots : ∀ r, some r ∈ roots → r ∈ a.members table)
    {q : SymbolRef} (h : a.Called roots q) : q ∈ a.members table :=
  h.least (S := {q | q ∈ a.members table}) hroots henc

theorem congr {roots' : List (Option SymbolRef)} (heq : ∀ r, some r ∈ roots' ↔ some r ∈ roots)
    {q : SymbolRef} : a.Called roots' q ↔ a.Called roots q :=
  exists_congr fun r => and_congr_left fun _ => heq r

end Called

/-- A closure with its root is what the root calls. -/
theorem IsClosure.mem_cons_iff {r q : SymbolRef} {c : List SymbolRef} (h : a.IsClosure r c) :
    q ∈ r :: c ↔ q = r ∨ a.Reaches r q := by
  rw [List.mem_cons, h.mem_iff q]
  by_cases hq : q = r <;> simp [hq]

theorem called_append_some {r q : SymbolRef} :
    a.Called (roots ++ [some r]) q ↔ a.Called roots q ∨ q = r ∨ a.Reaches r q := by
  constructor
  · rintro ⟨r', hr', hq⟩
    rcases List.mem_append.mp hr' with hr' | hr'
    · exact Or.inl ⟨r', hr', hq⟩
    · obtain rfl : r' = r := by simpa using hr'
      exact Or.inr hq
  · rintro (⟨r', hr', hq⟩ | hq)
    · exact ⟨r', List.mem_append_left _ hr', hq⟩
    · exact ⟨r, by simp, hq⟩

theorem called_append_none {q : SymbolRef} : a.Called (roots ++ [none]) q ↔ a.Called roots q :=
  Called.congr fun r => by simp

end Atlas

/-! ## By number -/

theorem nodup_of_ascending {xs : List SymbolRef} (h : xs.Pairwise fun x y => x.id < y.id) :
    xs.Nodup :=
  h.imp fun hlt heq => absurd (congrArg SymbolRef.id heq) hlt.ne

/-- Lists that ascend by number are told apart by their members. -/
theorem eq_of_ascending {xs ys : List SymbolRef} (hx : xs.Pairwise fun x y => x.id < y.id)
    (hy : ys.Pairwise fun x y => x.id < y.id) (hmem : ∀ q, q ∈ xs ↔ q ∈ ys) : xs = ys := by
  have hperm : xs.Perm ys :=
    (List.perm_ext_iff_of_nodup (nodup_of_ascending hx) (nodup_of_ascending hy)).mpr hmem
  exact hperm.eq_of_pairwise (fun _ _ _ _ hlt hgt => absurd hgt hlt.asymm) hx hy

/-- Symbols of one table have different numbers. -/
theorem nodup_ids {a : Atlas} {table : Nat} {xs : List SymbolRef} (hnodup : xs.Nodup)
    (htable : ∀ q ∈ xs, q ∈ a.members table) : (xs.map SymbolRef.id).Nodup := by
  refine hnodup.map_on ?_
  intro x hx y hy hid
  have hx' := (Atlas.mem_members.mp (htable x hx)).1
  have hy' := (Atlas.mem_members.mp (htable y hy)).1
  obtain ⟨xtable, x⟩ := x
  obtain ⟨ytable, y⟩ := y
  rw [SymbolRef.mk.injEq]
  exact ⟨hx'.trans hy'.symm, hid⟩

namespace AtlasM

theorem byNumber_eq {xs : List SymbolRef} (h : (xs.map SymbolRef.id).Nodup) :
    byNumber xs = xs.mergeSort fun x y => x.id ≤ y.id :=
  if_pos h

theorem ascending_byNumber {xs : List SymbolRef} (h : (xs.map SymbolRef.id).Nodup) :
    (byNumber xs).Pairwise fun x y => x.id < y.id := by
  rw [byNumber_eq h]
  exact pairwise_lt_mergeSort h

end AtlasM

/-! ## Gathering -/

namespace AtlasM

/-- One round: a root joins what was found, with its closure. -/
def gatherRoot (root : Option SymbolRef) (found : List SymbolRef) :
    AtlasM (ForInStep (List SymbolRef)) :=
  match root with
  | none => pure (.yield found)
  | some r => do
    let deps ← allDependencies r
    let found ← forIn (r :: deps) found fun d found =>
      if d ∉ found then pure (.yield (found ++ [d])) else pure (.yield found)
    pure (.yield found)

theorem required_eq (roots : List (Option SymbolRef)) :
    required roots = forIn roots [] gatherRoot >>= fun found => pure (byNumber found) := rfl

end AtlasM

open AtlasM

namespace Atlas

/-- After the roots `done`: the symbols found are those the roots call, none of them twice, and what
is kept is exact. -/
structure Gathered (a : Atlas) (table : Nat) (done : List (Option SymbolRef))
    (found : List SymbolRef) (b : Atlas) : Prop where
  consulted : a.Consulted table b
  nodup : found.Nodup
  mem_iff : ∀ q, q ∈ found ↔ a.Called done q

section Gather

variable {a : Atlas} {table : Nat} (henc : a.Encloses table)
  (hbound : ∀ r ∈ a.members table, a.Bound r)

include henc hbound

/-- **One root.** The answer is the exact closure, whether it was kept or is found now. -/
theorem Gathered.step {done : List (Option SymbolRef)} {found : List SymbolRef} {b : Atlas}
    (h : a.Gathered table done found b) {root : Option SymbolRef}
    (hroot : ∀ r, root = some r → r ∈ a.members table) :
    ∃ found' b', exec (gatherRoot root found) b = (.ok (.yield found'), b') ∧
      a.Gathered table (done ++ [root]) found' b' := by
  cases root with
  | none =>
      refine ⟨found, b, rfl, h.consulted, h.nodup, fun q => ?_⟩
      rw [h.mem_iff q, called_append_none]
  | some r =>
      -- the root may have been found already, and so may what it leads to
      obtain ⟨c, b', hask, hexact⟩ := h.consulted.answer henc hbound (hroot r rfl)
      obtain ⟨found', hcollect, hnodup, hmem⟩ := exec_collect (r :: c) found b'
      have hb' : a.Consulted table b' := by
        have hnext := h.consulted.allDependencies henc hbound r
        rw [after, hask] at hnext
        exact hnext
      refine ⟨found', b', ?_, hb', hnodup h.nodup, fun q => ?_⟩
      · rw [gatherRoot, exec_bind_ok hask, exec_bind_ok hcollect]
        rfl
      · rw [hmem q, h.mem_iff q, hexact.mem_cons_iff, called_append_some]

/-- **All roots.** What is required is what the roots call, by number. -/
theorem Consulted.required {b : Atlas} (h : a.Consulted table b) {roots : List (Option SymbolRef)}
    (hroots : ∀ r, some r ∈ roots → r ∈ a.members table) :
    ∃ out b', exec (AtlasM.required roots) b = (.ok out, b') ∧
      (out.Pairwise fun x y => x.id < y.id) ∧ ∀ q, q ∈ out ↔ a.Called roots q := by
  have hstart : a.Gathered table [] [] b := ⟨h, List.nodup_nil, by simp [Called]⟩
  have hround : ∀ done root rest found b, roots = done ++ root :: rest →
      a.Gathered table done found b → ∃ found' b',
        exec (gatherRoot root found) b = (.ok (.yield found'), b') ∧
        a.Gathered table (done ++ [root]) found' b' := by
    rintro done root rest found b rfl hg
    exact hg.step henc hbound fun r hr => hroots r (by simp [hr])
  obtain ⟨found, b', hloop, hg⟩ :=
    exec_forIn_yield roots gatherRoot (a.Gathered table) hround hstart
  -- all that is found is in one table, so no number comes twice
  have hids : (found.map SymbolRef.id).Nodup :=
    nodup_ids hg.nodup fun q hq => ((hg.mem_iff q).mp hq).mem_members henc hroots
  refine ⟨byNumber found, b', ?_, ascending_byNumber hids, fun q => ?_⟩
  · rw [required_eq, exec_bind_ok hloop]
    rfl
  · rw [byNumber_eq hids, List.mem_mergeSort, hg.mem_iff q]

/-- A question to a symbol of the table keeps the closure of this symbol and no other. -/
theorem Consulted.kept_allDependencies {b : Atlas} (h : a.Consulted table b) {r : SymbolRef}
    (hr : r ∈ a.members table) (q : SymbolRef) :
    ((after (AtlasM.allDependencies r) b).kept? q).isSome ↔ (b.kept? q).isSome ∨ q = r := by
  obtain ⟨s₀, hs₀⟩ := Option.isSome_iff_exists.mp (mem_members.mp hr).2
  obtain ⟨s, hs, -⟩ := h.same.symbol hs₀
  unfold after
  -- a kept closure is answered as it is; otherwise the one that is found is kept
  cases hc : s.closure with
  | some c =>
      rw [exec_allDependencies_kept hs hc]
      refine ⟨Or.inl, ?_⟩
      rintro (hq | rfl)
      · exact hq
      · rw [kept?_eq hs, hc]
        rfl
  | none =>
      obtain ⟨c, heq, -⟩ := h.closureOf henc hbound hr hs
      rw [exec_allDependencies_new hs hc, heq]
      change ((b.publish r c).kept? q).isSome ↔ _
      unfold publish
      by_cases hq : q = r
      · subst hq
        rw [kept?_keep_self (by rw [b.sameSymbols_countClosure, hs]; rfl)]
        simp
      · rw [kept?_keep_ne _ hq, kept?_countClosure]
        simp [hq]

/-- **Any of the closures may be there already**, and the others not. -/
theorem exists_asks (hnone : ∀ r ∈ a.members table, a.kept? r = none) {asked : List SymbolRef}
    (hasked : asked ⊆ a.members table) :
    ∃ b, Asks a b ∧ ∀ q ∈ a.members table, (b.kept? q).isSome ↔ q ∈ asked := by
  induction asked with
  | nil => exact ⟨a, .refl a, fun q hq => by simp [hnone q hq]⟩
  | cons r asked ih =>
      obtain ⟨hr, hasked⟩ := List.cons_subset.mp hasked
      obtain ⟨b, hb, hkept⟩ := ih hasked
      have hconsulted := Consulted.of_asks henc hbound hnone hb
      refine ⟨_, .allDependencies hb r, fun q hq => ?_⟩
      rw [hconsulted.kept_allDependencies henc hbound hr, hkept q hq, List.mem_cons, or_comm]

end Gather

/-- **What roots require.** The symbols of the table are bound and depend on one another only,
though dependencies may be missing. Whichever of their closures were asked before, and whichever of
the same roots come first, again or with missing ones between them, the answer is one list: by
number and without repetition, it has the roots and what its symbols depend on, and is part of
whatever has them. -/
theorem required_least {a : Atlas} {table : Nat} (henc : a.Encloses table)
    (hbound : ∀ r ∈ a.members table, a.Bound r) (hnone : ∀ r ∈ a.members table, a.kept? r = none)
    {roots : List (Option SymbolRef)} (hroots : ∀ r, some r ∈ roots → r ∈ a.members table) :
    (∀ asked ⊆ a.members table, ∃ b, Asks a b ∧
      ∀ q ∈ a.members table, (b.kept? q).isSome ↔ q ∈ asked) ∧
    ∃ out : List SymbolRef,
      (∀ b, Asks a b → ∀ roots' : List (Option SymbolRef), (∀ r, some r ∈ roots' ↔ some r ∈ roots) →
        ∃ b', exec (required roots') b = (.ok out, b')) ∧
      (∀ r, some r ∈ roots → r ∈ out) ∧ (∀ x ∈ out, ∀ y, a.DependsOn x y → y ∈ out) ∧
      (∀ S : Set SymbolRef, (∀ r, some r ∈ roots → r ∈ S) →
        (∀ x ∈ S, ∀ y, a.DependsOn x y → y ∈ S) → ∀ q ∈ out, q ∈ S) ∧
      (out.Pairwise fun x y => x.id < y.id) ∧ out.Nodup := by
  refine ⟨fun asked hasked => exists_asks henc hbound hnone hasked, ?_⟩
  obtain ⟨out, -, -, hascending, hmem⟩ := (Consulted.start hnone).required henc hbound hroots
  refine ⟨out, fun b hasks roots' heq => ?_, fun r hr => ?_, fun x hx y hd => ?_,
    fun S hS hclosed q hq => ?_, hascending, nodup_of_ascending hascending⟩
  · have hroots' : ∀ r, some r ∈ roots' → r ∈ a.members table :=
      fun r hr => hroots r ((heq r).mp hr)
    obtain ⟨out', b', hexec, hascending', hmem'⟩ :=
      (Consulted.of_asks henc hbound hnone hasks).required henc hbound hroots'
    -- this answer has the same members, and so it is the same list
    have hout : out' = out := eq_of_ascending hascending' hascending fun q => by
      rw [hmem' q, hmem q, Called.congr heq]
    exact ⟨b', hout ▸ hexec⟩
  · exact (hmem r).mpr (called_root hr)
  · exact (hmem y).mpr (((hmem x).mp hx).dependsOn hd)
  · exact ((hmem q).mp hq).least hS hclosed

/-- Two types on a circle, of which one also names nothing and itself, a type that the circle needs,
one that needs the circle, and one apart. -/
def fiveTypes : Atlas where
  tables := #[{ Table.empty 5 with
    symbols := #[{ Topo.typeNeeding "A" true [] with
        dependencies := some [none, some ⟨0, 2⟩, some ⟨0, 1⟩] },
      Topo.typeNeeding "B" true [3, 1], Topo.typeNeeding "C" true [], Topo.typeNeeding "D" true [2],
      Topo.typeNeeding "E" true [5]] }]

/-- The closure of one of the two types is there already when it is asked for the other and for the
one that needs them. -/
theorem required_least_fiveTypes :
    fiveTypes.Encloses 0 ∧ (∀ r ∈ fiveTypes.members 0, fiveTypes.Bound r) ∧
    (∀ r ∈ fiveTypes.members 0, fiveTypes.kept? r = none) ∧
    (∀ r, some r ∈ [some (⟨0, 4⟩ : SymbolRef), none, some ⟨0, 1⟩] → r ∈ fiveTypes.members 0) ∧
    ∃ b', exec (required [some ⟨0, 1⟩, some ⟨0, 4⟩, none, none, some ⟨0, 1⟩])
      (after (allDependencies ⟨0, 2⟩) fiveTypes)
        = (.ok [⟨0, 1⟩, ⟨0, 2⟩, ⟨0, 3⟩, ⟨0, 4⟩], b') := by
  have henc : fiveTypes.Encloses 0 := by decide
  have hbound : ∀ r ∈ fiveTypes.members 0, fiveTypes.Bound r := by decide
  have hnone : ∀ r ∈ fiveTypes.members 0, fiveTypes.kept? r = none := by decide
  have hroots : ∀ r, some r ∈ [some (⟨0, 4⟩ : SymbolRef), none, some ⟨0, 1⟩] →
      r ∈ fiveTypes.members 0 := by
    intro r hr
    have hr : r = ⟨0, 4⟩ ∨ r = ⟨0, 1⟩ := by simpa using hr
    rcases hr with rfl | rfl <;> decide
  obtain ⟨-, out, hanswer, hhas, hclosed, hleast, hascending, -⟩ :=
    required_least henc hbound hnone hroots
  obtain ⟨b', hexec⟩ := hanswer _ (.allDependencies (.refl _) ⟨0, 2⟩)
    [some ⟨0, 1⟩, some ⟨0, 4⟩, none, none, some ⟨0, 1⟩] (by simp)
  have hout : out = [⟨0, 1⟩, ⟨0, 2⟩, ⟨0, 3⟩, ⟨0, 4⟩] := by
    refine eq_of_ascending hascending (by decide) fun q => ⟨?_, ?_⟩
    · -- these four have the roots and what they depend on
      exact hleast {q | q ∈ [⟨0, 1⟩, ⟨0, 2⟩, ⟨0, 3⟩, (⟨0, 4⟩ : SymbolRef)]} (by simp)
        (by simp only [Set.mem_ofPred_eq, forall_dependsOn_iff]; decide) q
    · have hone : ⟨0, 1⟩ ∈ out := hhas _ (by simp)
      have htwo : ⟨0, 2⟩ ∈ out := hclosed _ hone _ ⟨_, rfl, by decide⟩
      have hthree : ⟨0, 3⟩ ∈ out := hclosed _ htwo _ ⟨_, rfl, by decide⟩
      have hfour : ⟨0, 4⟩ ∈ out := hhas _ (by simp)
      intro hq
      have hq : q = ⟨0, 1⟩ ∨ q = ⟨0, 2⟩ ∨ q = ⟨0, 3⟩ ∨ q = ⟨0, 4⟩ := by simpa using hq
      rcases hq with rfl | rfl | rfl | rfl <;> assumption
  exact ⟨henc, hbound, hnone, hroots, b', hout ▸ hexec⟩

end Atlas

end SymbolAtlas
