import SymbolAtlas.Proofs.SettledAtlas
import SymbolAtlas.Proofs.TableOrder

set_option autoImplicit false

/-! # Closures and the emission order

A closure is found by a search that takes over what it knows already, the emission order by taking
away, wave after wave, what waits for nothing. The two must tell the same story of a table: what a
symbol depends on is emitted before it, unless the symbol leads into a circle, and circles are seen
in the closures as two symbols that have each other (`order_respects_closures`).

Between the two stands reachability. A chain of the order has no step from a symbol to itself, so it
is a path of dependencies that leaves out its loops (`eq_or_transGen_needs`). On the other side,
whatever was asked before, in a table whose symbols are all bound every answer is the exact closure
(`Consulted.answer`). -/

namespace SymbolAtlas

/-! ## Paths within a table -/

namespace Atlas

variable {a : Atlas} {table : Nat}

theorem reaches_of_transGen_needs {v w : Nat} (h : Relation.TransGen (a.Needs table) v w) :
    a.Reaches ⟨table, v⟩ ⟨table, w⟩ :=
  Relation.TransGen.lift (p := a.DependsOn) (fun n => ⟨table, n⟩) (fun _ _ hd => hd.2) _ _ h

/-- What the symbols of the table depend on is in the table; a dependency may be missing. -/
def Encloses (a : Atlas) (table : Nat) : Prop :=
  ∀ x ∈ a.members table, ∀ y, a.DependsOn x y → y ∈ a.members table

/-- What holds of all that a symbol depends on can be checked. -/
theorem forall_dependsOn_iff {x : SymbolRef} {P : SymbolRef → Prop} :
    (∀ y, a.DependsOn x y → P y) ↔
      ∀ d ∈ ((a.symbol? x).map Symbol.direct).getD [], ∀ y ∈ d, P y := by
  unfold DependsOn
  cases a.symbol? x with
  | none => simp
  | some s =>
      simp only [Option.some.injEq, exists_eq_left', Option.map_some, Option.getD_some,
        Option.mem_def]
      exact ⟨fun h d hd y hy => h y (hy ▸ hd), fun h y hy => h _ hy y rfl⟩

instance (a : Atlas) (table : Nat) : Decidable (a.Encloses table) :=
  decidable_of_iff _ (forall₂_congr fun _ _ => forall_dependsOn_iff.symm)

namespace Encloses

variable (h : a.Encloses table)

include h

theorem mem_of_reaches {x y : SymbolRef} (hx : x ∈ a.members table) (hxy : a.Reaches x y) :
    y ∈ a.members table := by
  induction hxy with
  | single hd => exact h x hx _ hd
  | tail _ hd ih => exact h _ ih _ hd

theorem mem_of_eq_or_reaches {x y : SymbolRef} (hx : x ∈ a.members table)
    (hxy : y = x ∨ a.Reaches x y) : y ∈ a.members table := by
  rcases hxy with rfl | hxy
  · exact hx
  · exact h.mem_of_reaches hx hxy

end Encloses

namespace SelfContained

variable (h : a.SelfContained table)

include h

theorem encloses : a.Encloses table := by
  rintro x hx y ⟨s, hs, hy⟩
  obtain ⟨q, hq, heq⟩ := h x hx s hs _ hy
  exact Option.some.inj heq ▸ hq

/-- **A path within the table leads back to its start or is a chain.** Steps from a symbol to itself
are left out of it. -/
theorem eq_or_transGen_needs {v w : Nat} (hv : ⟨table, v⟩ ∈ a.members table)
    (hvw : a.Reaches ⟨table, v⟩ ⟨table, w⟩) : w = v ∨ Relation.TransGen (a.Needs table) v w := by
  suffices hall : ∀ {y : SymbolRef}, a.Reaches ⟨table, v⟩ y →
      y.id = v ∨ Relation.TransGen (a.Needs table) v y.id from hall hvw
  intro y hy
  have hstep : ∀ {m y : SymbolRef}, m ∈ a.members table → a.DependsOn m y →
      y.id = m.id ∨ a.Needs table m.id y.id := by
    intro m y hm hd
    obtain ⟨hy, -⟩ := mem_members.mp (h.encloses m hm y hd)
    obtain ⟨rfl, -⟩ := mem_members.mp hm
    refine or_iff_not_imp_left.mpr fun hne => ⟨hne, ?_⟩
    obtain ⟨ytable, y⟩ := y
    obtain rfl : ytable = m.table := hy
    exact hd
  induction hy with
  | single hd =>
      exact (hstep hv hd).imp_right fun hn => .single hn
  | @tail m y hm hd ih =>
      -- the last step may be a loop, and so may the whole path before it
      rcases hstep (h.encloses.mem_of_reaches hv hm) hd with heq | hn
      · rw [heq]
        exact ih
      · rcases ih with heq | hchain
        · rw [heq] at hn
          exact Or.inr (.single hn)
        · exact Or.inr (hchain.tail hn)

/-- **A symbol leads into a circle iff it is or reaches a symbol that reaches another and is reached
from it.** -/
theorem circular_needs_iff {v : Nat} (hv : ⟨table, v⟩ ∈ a.members table) :
    Circular (a.Needs table) v ↔ ∃ u w : SymbolRef, (u = ⟨table, v⟩ ∨ a.Reaches ⟨table, v⟩ u) ∧
      w ≠ u ∧ a.Reaches u w ∧ a.Reaches w u := by
  constructor
  · rintro ⟨u, hvu, hu⟩
    -- the first step on the circle leads to the other symbol
    obtain ⟨w, huw, hwu⟩ := Relation.TransGen.head'_iff.mp hu
    refine ⟨⟨table, u⟩, ⟨table, w⟩, ?_, by simp [huw.1], .single huw.2, ?_⟩
    · rcases Relation.reflTransGen_iff_eq_or_transGen.mp hvu with rfl | hchain
      · exact Or.inl rfl
      · exact Or.inr (reaches_of_transGen_needs hchain)
    · rcases Relation.reflTransGen_iff_eq_or_transGen.mp hwu with heq | hchain
      · exact absurd heq.symm huw.1
      · exact reaches_of_transGen_needs hchain
  · rintro ⟨u, w, hvu, hne, huw, hwu⟩
    have hu := h.encloses.mem_of_eq_or_reaches hv hvu
    have hw := h.encloses.mem_of_reaches hu huw
    obtain ⟨utable, u⟩ := u
    obtain ⟨wtable, w⟩ := w
    obtain rfl : utable = table := (mem_members.mp hu).1
    obtain rfl : wtable = utable := (mem_members.mp hw).1
    have hne' : w ≠ u := fun heq => hne (by rw [heq])
    have hthere := (h.eq_or_transGen_needs hu huw).resolve_left hne'
    have hback := (h.eq_or_transGen_needs hw hwu).resolve_left (Ne.symm hne')
    refine ⟨u, ?_, hthere.trans hback⟩
    rcases hvu with heq | hvu
    · rw [(SymbolRef.mk.inj heq).2]
    · rcases h.eq_or_transGen_needs hv hvu with rfl | hchain
      · exact .refl
      · exact hchain.to_reflTransGen

theorem circular_needs_iff_mem {closure : SymbolRef → List SymbolRef}
    (hclosure : ∀ r ∈ a.members table, a.IsClosure r (closure r)) {v : Nat}
    (hv : ⟨table, v⟩ ∈ a.members table) :
    Circular (a.Needs table) v ↔ ∃ u w : SymbolRef, (u = ⟨table, v⟩ ∨ u ∈ closure ⟨table, v⟩) ∧
      w ≠ u ∧ w ∈ closure u ∧ u ∈ closure w := by
  rw [h.circular_needs_iff hv]
  constructor
  · rintro ⟨u, w, hvu, hne, huw, hwu⟩
    have hu := h.encloses.mem_of_eq_or_reaches hv hvu
    have hw := h.encloses.mem_of_reaches hu huw
    refine ⟨u, w, ?_, hne, ((hclosure u hu).mem_iff w).mpr ⟨hne, huw⟩,
      ((hclosure w hw).mem_iff u).mpr ⟨hne.symm, hwu⟩⟩
    by_cases heq : u = ⟨table, v⟩
    · exact Or.inl heq
    · exact Or.inr (((hclosure _ hv).mem_iff u).mpr ⟨heq, hvu.resolve_left heq⟩)
  · rintro ⟨u, w, hvu, hne, huw, hwu⟩
    have hvu := hvu.imp_right fun hmem => (((hclosure _ hv).mem_iff u).mp hmem).2
    have hu := h.encloses.mem_of_eq_or_reaches hv hvu
    have huw := ((hclosure u hu).mem_iff w).mp huw
    have hw := h.encloses.mem_of_reaches hu huw.2
    exact ⟨u, w, hvu, hne, huw.2, (((hclosure w hw).mem_iff u).mp hwu).2⟩

end SelfContained

/-! What closures are kept is no part of the graph. -/

theorem SameButClosures.mem_members_iff {b : Atlas} (h : a.SameButClosures b) {q : SymbolRef} :
    q ∈ b.members table ↔ q ∈ a.members table := by
  have hsome := congrArg Option.isSome (h q)
  rw [Option.isSome_map, Option.isSome_map] at hsome
  rw [mem_members, mem_members, hsome]

theorem SameButClosures.selfContained {b : Atlas} (h : a.SameButClosures b)
    (hself : a.SelfContained table) : b.SelfContained table := by
  intro r hr s hs d hd
  obtain ⟨s₀, hs₀, hbare⟩ := h.symm.symbol hs
  have hdirect : s₀.bare.direct = s.bare.direct := by rw [hbare]
  rw [show s.direct = s₀.direct from hdirect.symm] at hd
  obtain ⟨q, hq, rfl⟩ := hself r (h.mem_members_iff.mp hr) s₀ hs₀ d hd
  exact ⟨q, h.mem_members_iff.mpr hq, rfl⟩

theorem SameButClosures.needs_eq {b : Atlas} (h : a.SameButClosures b) (table : Nat) :
    b.Needs table = a.Needs table := by
  funext v w
  unfold Needs
  rw [h.dependsOn_iff]

end Atlas

/-! ## Questions -/

open AtlasM

/-- **Questions about closures**, of any symbols, in any order and number. -/
inductive Asks : Atlas → Atlas → Prop
  | refl (a : Atlas) : Asks a a
  | allDependencies {a b : Atlas} (h : Asks a b) (r : SymbolRef) :
      Asks a (after (AtlasM.allDependencies r) b)
  | allDependenciesOf {a b : Atlas} (h : Asks a b) (r : SymbolRef) (kind : Kind) :
      Asks a (after (AtlasM.allDependenciesOf r kind) b)
  | required {a b : Atlas} (h : Asks a b) (roots : List (Option SymbolRef)) :
      Asks a (after (AtlasM.required roots) b)
  | snapshot {a b : Atlas} (h : Asks a b) (manifest : String) (hash : List UInt8) (table : Nat)
      (timer : Timer) : Asks a (after (Cache.Payload.snapshot manifest hash table timer) b)

namespace Atlas

/-- What questions make of an atlas: the graph stays as it is, and what is kept for the symbols of
the table is exact. -/
structure Consulted (a : Atlas) (table : Nat) (b : Atlas) : Prop where
  same : a.SameButClosures b
  isClosure : ∀ {r c}, r ∈ a.members table → b.kept? r = some c → a.IsClosure r c

namespace Consulted

variable {a b : Atlas} {table : Nat} {r : SymbolRef}

theorem start (h : ∀ r ∈ a.members table, a.kept? r = none) : a.Consulted table a where
  same := .refl a
  isClosure := by
    intro r c hr hc
    rw [h r hr] at hc
    cases hc

theorem sameSymbols {b' : Atlas} (hsame : b.SameSymbols b') (h : a.Consulted table b) :
    a.Consulted table b' where
  same := fun q => by rw [hsame q, h.same q]
  isClosure := by
    intro r c hr hc
    unfold kept? at hc
    rw [hsame r] at hc
    exact h.isClosure hr hc

section Ask

variable (henc : a.Encloses table) (hbound : ∀ r ∈ a.members table, a.Bound r)
  (h : a.Consulted table b)

include henc h

/-- A search that starts in the table stays there, and meets exact closures only. -/
theorem coherentFrom (hr : r ∈ a.members table) : b.CoherentFrom r where
  exists_of_reaches := by
    intro q hq
    have hmem := henc.mem_of_reaches hr (h.same.reaches_iff.mp hq)
    obtain ⟨s, hs⟩ := Option.isSome_iff_exists.mp (mem_members.mp hmem).2
    obtain ⟨s', hs', -⟩ := h.same.symbol hs
    simp [hs']
  isClosure := by
    intro q s c hq hs hc
    have hmem := henc.mem_of_reaches hr (h.same.reaches_iff.mp hq)
    exact h.same.isClosure (h.isClosure hmem (by rw [kept?_eq hs, hc]))

include hbound

/-- Nothing that is met is unbound, so the search gives the closure. -/
theorem closureOf (hr : r ∈ a.members table) {s : Symbol} (hs : b.symbol? r = some s) :
    ∃ c, b.closureOf r s.direct = .ok c ∧ a.IsClosure r c := by
  rcases closureOf_from (h.coherentFrom henc hr) hs with ⟨c, heq, hc⟩ | ⟨u, -, -, hreach, hunbound⟩
  · exact ⟨c, heq, h.same.symm.isClosure hc⟩
  · have hu := henc.mem_of_reaches hr (h.same.reaches_iff.mp hreach)
    exact absurd (h.same.bound (hbound u hu)) hunbound

/-- **Every answer is the exact closure.** -/
theorem answer (hr : r ∈ a.members table) :
    ∃ c b', exec (allDependencies r) b = (.ok c, b') ∧ a.IsClosure r c := by
  obtain ⟨s₀, hs₀⟩ := Option.isSome_iff_exists.mp (mem_members.mp hr).2
  obtain ⟨s, hs, -⟩ := h.same.symbol hs₀
  cases hc : s.closure with
  | some c => exact ⟨c, b, exec_allDependencies_kept hs hc,
      h.isClosure hr (by rw [kept?_eq hs, hc])⟩
  | none =>
      obtain ⟨c, heq, hexact⟩ := h.closureOf henc hbound hr hs
      have hexec := exec_allDependencies_new hs hc
      rw [heq] at hexec
      exact ⟨c, _, hexec, hexact⟩

/-- A question to a symbol keeps its closure or only counts. -/
theorem allDependencies (r : SymbolRef) :
    a.Consulted table (after (AtlasM.allDependencies r) b) := by
  unfold after
  cases hs : b.symbol? r with
  | none =>
      unfold AtlasM.allDependencies
      rw [exec_bind_error (exec_read_missing hs)]
      exact h
  | some s =>
      cases hc : s.closure with
      | some c =>
          rw [exec_allDependencies_kept hs hc]
          exact h
      | none =>
          rw [exec_allDependencies_new hs hc]
          cases heq : b.closureOf r s.direct with
          | error u => exact sameSymbols (b.sameSymbols_countClosure r.table) h
          | ok c =>
              -- the closure that is published is exact, and the others are those from before
              refine ⟨h.same.trans (b.sameButClosures_publish r c), ?_⟩
              intro q d hq hd
              change (b.publish r c).kept? q = some d at hd
              unfold publish at hd
              by_cases hqr : q = r
              · subst hqr
                obtain ⟨c', heq', hexact⟩ := h.closureOf henc hbound hq hs
                rw [heq, Except.ok.injEq] at heq'
                rw [kept?_keep_self (by rw [b.sameSymbols_countClosure, hs]; rfl)] at hd
                rw [← Option.some.inj hd, heq']
                exact hexact
              · rw [kept?_keep_ne _ hqr, kept?_countClosure] at hd
                exact h.isClosure hq hd

end Ask

/-- **Whatever is asked, what is kept stays exact.** -/
theorem of_asks (henc : a.Encloses table) (hbound : ∀ r ∈ a.members table, a.Bound r)
    (hnone : ∀ r ∈ a.members table, a.kept? r = none) (hasks : Asks a b) : a.Consulted table b := by
  have hstep : ∀ r b, a.Consulted table b →
      a.Consulted table (after (AtlasM.allDependencies r) b) :=
    fun r _ h => h.allDependencies henc hbound r
  induction hasks with
  | refl => exact start hnone
  | allDependencies h r ih => exact hstep r _ ih
  | allDependenciesOf h r kind ih =>
      exact allDependenciesOf_invariant _ sameSymbols r kind ih (hstep r _ ih)
  | required h roots ih =>
      rw [after_required]
      exact afterAll_invariant _ hstep _ ih
  | snapshot h manifest hash table timer ih =>
      rw [after_snapshot]
      exact afterAll_invariant _ hstep _ ih

end Consulted

end Atlas

/-! ## The order -/

namespace Topo

open Atlas SymbolAtlas.Graph

/-- Number `w` stands before number `v` in the order. -/
def Before (t : Topo) (w v : Nat) : Prop :=
  ∃ front back, t.order = front ++ v :: back ∧ w ∈ front

/-- What is in an earlier batch stands before what is in a later one. -/
theorem before_of_batches {t : Topo} (horder : t.order = t.batches.flatten ++ t.cycles) {j k : Nat}
    {b c : List Nat} {v w : Nat} (hj : t.batches[j]? = some b) (hk : t.batches[k]? = some c)
    (hjk : j < k) (hw : w ∈ b) (hv : v ∈ c) : t.Before w v := by
  obtain ⟨hlt, rfl⟩ := List.getElem?_eq_some_iff.mp hk
  obtain ⟨front, back, hsplit⟩ := List.append_of_mem hv
  refine ⟨(t.batches.take k).flatten ++ front,
    back ++ (t.batches.drop (k + 1)).flatten ++ t.cycles, ?_, ?_⟩
  · have hflat : t.batches.flatten
        = (t.batches.take k).flatten ++ (t.batches[k] ++ (t.batches.drop (k + 1)).flatten) := by
      conv_lhs => rw [← List.take_append_drop k t.batches, List.drop_eq_getElem_cons hlt]
      rw [List.flatten_append, List.flatten_cons]
    rw [horder, hflat, hsplit]
    simp only [List.append_assoc, List.cons_append]
  · have hb : b ∈ t.batches.take k := by
      refine List.mem_of_getElem? (i := j) ?_
      rw [List.getElem?_take_of_lt hjk, hj]
    exact List.mem_append_left _ (List.mem_flatten.mpr ⟨b, hb, hw⟩)

/-- **What a node depends on, directly or not, stands before it**, unless the node leads into a
circle: it has a batch, and the longest chains of its dependencies are shorter. -/
theorem Emits.before {deps : List (List Nat)} {t : Topo} (h : Emits deps t) (hd : Regular deps)
    {v w : Nat} (hv : v ∈ nodes deps) (hleft : v ∉ t.cycles)
    (hvw : Relation.TransGen (Dep deps) v w) :
    t.Before w v := by
  have hnot : ¬ HasChain (Dep deps) (nodes deps).length v := fun hchain =>
    hleft ((h.mem_cycles v).mpr ⟨hv, circular_of_length hd.mem_nodes hv hchain le_rfl⟩)
  obtain ⟨k, -, hlong⟩ := exists_longestChain hnot
  obtain ⟨j, hj, hlong'⟩ := hlong.along hvw
  have hw : w ∈ nodes deps := by
    obtain ⟨u, -, huw⟩ := Relation.TransGen.tail'_iff.mp hvw
    exact hd.mem_nodes huw
  obtain ⟨c, hc, hvc⟩ := (h.batch k v).mpr ⟨hv, hlong⟩
  obtain ⟨b, hb, hwb⟩ := (h.batch j w).mpr ⟨hw, hlong'⟩
  exact before_of_batches h.order_eq hb hc hj hwb hvc

/-- **The closures of a table and its emission order agree.** The symbols of the table are bound and
depend on one another only, and no closure was asked before. Then every question is answered, and
whatever was asked before the order was made, and before each of the closures was given: what a
symbol depends on stands before it in the order, unless it is among those that wait on a circle; and
it is among them iff two symbols, of which it is or has the first, have each other in their
closures. -/
theorem order_respects_closures {a : Atlas} {table : Nat} (hself : a.SelfContained table)
    (hbound : ∀ r ∈ a.members table, a.Bound r) (hnone : ∀ r ∈ a.members table, a.kept? r = none)
    {b : Atlas} (hb : Asks a b) :
    (∀ r ∈ a.members table, ∃ c b', exec (allDependencies r) b = (.ok c, b')) ∧
    ∃ (g : Graph) (t : Topo), ofTable b table = .ok g ∧ ofGraph g = .ok t ∧
      ∀ closure : SymbolRef → List SymbolRef,
        (∀ r ∈ a.members table, ∃ m m', Asks a m ∧
          exec (allDependencies r) m = (.ok (closure r), m')) →
        ∀ v, ⟨table, v⟩ ∈ a.members table →
          (v ∉ t.cycles → ∀ d ∈ closure ⟨table, v⟩, d.table = table ∧ t.Before d.id v) ∧
          (v ∈ t.cycles ↔ ∃ u w : SymbolRef, (u = ⟨table, v⟩ ∨ u ∈ closure ⟨table, v⟩) ∧
            w ≠ u ∧ w ∈ closure u ∧ u ∈ closure w) := by
  have hconsulted : ∀ {m}, Asks a m → a.Consulted table m := .of_asks hself.encloses hbound hnone
  have hsame := (hconsulted hb).same
  refine ⟨fun r hr => ?_, ?_⟩
  · obtain ⟨c, b', hexec, -⟩ := (hconsulted hb).answer hself.encloses hbound hr
    exact ⟨c, b', hexec⟩
  obtain ⟨deps, hgraph, hregular, hnodes, hdep⟩ := ofTable_ok (hsame.selfContained hself)
    fun r hr => hsame.bound (hbound r (hsame.mem_members_iff.mp hr))
  obtain ⟨t, hrun, hemits⟩ := ofGraph_emits hregular
  rw [hsame.needs_eq table] at hdep
  have hmem : ∀ v, v ∈ nodes deps ↔ ⟨table, v⟩ ∈ a.members table := by
    intro v
    rw [hnodes, members_eq, ← hsame.mem_members_iff, members_eq]
    simp
  refine ⟨_, t, hgraph, hrun, ?_⟩
  -- whenever a closure was asked for, it is that of the atlas as it was at first
  intro closure hanswers v hv
  have hclosure : ∀ r ∈ a.members table, a.IsClosure r (closure r) := by
    intro r hr
    obtain ⟨m, m', hm, hanswer⟩ := hanswers r hr
    obtain ⟨c, m'', hexec, hexact⟩ := (hconsulted hm).answer hself.encloses hbound hr
    rw [hanswer, Prod.mk.injEq, Except.ok.injEq] at hexec
    rw [hexec.1]
    exact hexact
  refine ⟨fun hleft d hd => ?_, ?_⟩
  · obtain ⟨hne, hreach⟩ := ((hclosure _ hv).mem_iff d).mp hd
    have hdmem := hself.encloses.mem_of_reaches hv hreach
    obtain ⟨dtable, d⟩ := d
    obtain rfl : dtable = table := (mem_members.mp hdmem).1
    -- what is reached is needed along a chain, and chains go back in the order
    have hchain := (hself.eq_or_transGen_needs hv hreach).resolve_left fun heq => hne (by rw [heq])
    rw [← hdep] at hchain
    exact ⟨rfl, hemits.before hregular ((hmem v).mpr hv) hleft hchain⟩
  · rw [hemits.mem_cycles v, hdep, hself.circular_needs_iff_mem hclosure hv]
    exact and_iff_right ((hmem v).mpr hv)

/-- The closures of the four types. -/
def fourClosures (r : SymbolRef) : List SymbolRef :=
  match r.id with
  | 1 => [⟨0, 2⟩, ⟨0, 4⟩]
  | 2 => [⟨0, 4⟩, ⟨0, 1⟩]
  | 3 => [⟨0, 1⟩, ⟨0, 2⟩, ⟨0, 4⟩]
  | _ => []

/-- The order is made after the closure of the third type was asked, which waits behind the
circle. -/
theorem order_respects_closures_fourTypes :
    (fourTypes true).SelfContained 0 ∧
    (∀ r ∈ (fourTypes true).members 0, (fourTypes true).Bound r) ∧
    (∀ r ∈ (fourTypes true).members 0, (fourTypes true).kept? r = none) ∧
    (∀ r ∈ (fourTypes true).members 0, ∃ m m', Asks (fourTypes true) m ∧
      exec (allDependencies r) m = (.ok (fourClosures r), m')) ∧
    ∃ (g : Graph) (t : Topo), ofTable (after (allDependencies ⟨0, 3⟩) (fourTypes true)) 0 = .ok g ∧
      ofGraph g = .ok t ∧ (3 ∈ t.cycles ↔ ∃ u w : SymbolRef,
        (u = ⟨0, 3⟩ ∨ u ∈ fourClosures ⟨0, 3⟩) ∧ w ≠ u ∧ w ∈ fourClosures u ∧
        u ∈ fourClosures w) := by
  have hself : (fourTypes true).SelfContained 0 := by decide
  have hbound : ∀ r ∈ (fourTypes true).members 0, (fourTypes true).Bound r := by decide
  have hnone : ∀ r ∈ (fourTypes true).members 0, (fourTypes true).kept? r = none := by decide
  have hanswers : ∀ r ∈ (fourTypes true).members 0, ∃ m m', Asks (fourTypes true) m ∧
      exec (allDependencies r) m = (.ok (fourClosures r), m') := by
    intro r hr
    have hr : r = ⟨0, 1⟩ ∨ r = ⟨0, 2⟩ ∨ r = ⟨0, 3⟩ ∨ r = ⟨0, 4⟩ := by
      simpa [Atlas.members, fourTypes, Table.size, List.range_succ] using hr
    rcases hr with rfl | rfl | rfl | rfl
    all_goals exact ⟨_, _, .refl _, rfl⟩
  obtain ⟨-, g, t, hg, ht, hagree⟩ :=
    order_respects_closures hself hbound hnone (.allDependencies (.refl _) ⟨0, 3⟩)
  exact ⟨hself, hbound, hnone, hanswers, g, t, hg, ht,
    (hagree fourClosures hanswers 3 (by decide)).2⟩

end Topo

end SymbolAtlas
