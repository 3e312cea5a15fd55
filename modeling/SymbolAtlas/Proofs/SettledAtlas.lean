import SymbolAtlas.Proofs.ClosureRuns
import SymbolAtlas.Proofs.Skeleton

set_option autoImplicit false

/-! # Settled atlases

Once every symbol is bound the graph is fixed, and all that can still happen is that closures are
counted and kept. `SameButClosures` says that two atlases have the same graph, and a settled atlas
stays settled when an exact closure is kept. So asking for a closure never fails, and changes the
closure of the symbol that is asked only (`exec_allDependencies_fresh`). -/

namespace SymbolAtlas

def Symbol.bare (s : Symbol) : Symbol :=
  { s with closure := none }

namespace Atlas

/-- The two atlases differ in the closures that they keep and in their counts only. -/
def SameButClosures (a b : Atlas) : Prop :=
  ∀ q, (b.symbol? q).map Symbol.bare = (a.symbol? q).map Symbol.bare

theorem SameButClosures.refl (a : Atlas) : a.SameButClosures a :=
  fun _ => rfl

theorem SameButClosures.trans {a b c : Atlas} (h : a.SameButClosures b) (h' : b.SameButClosures c) :
    a.SameButClosures c :=
  fun q => (h' q).trans (h q)

theorem SameButClosures.symm {a b : Atlas} (h : a.SameButClosures b) : b.SameButClosures a :=
  fun q => (h q).symm

theorem SameButClosures.symbol {a b : Atlas} (h : a.SameButClosures b) {q : SymbolRef} {s : Symbol}
    (hs : a.symbol? q = some s) : ∃ s', b.symbol? q = some s' ∧ s'.bare = s.bare := by
  have hq := h q
  rw [hs] at hq
  exact Option.map_eq_some_iff.mp hq

theorem SameButClosures.dependsOn {a b : Atlas} (h : a.SameButClosures b) {x y : SymbolRef}
    (hd : a.DependsOn x y) : b.DependsOn x y := by
  obtain ⟨s, hs, hy⟩ := hd
  obtain ⟨s', hs', hbare⟩ := h.symbol hs
  have hdeps : s'.bare.dependencies = s.bare.dependencies := by rw [hbare]
  refine ⟨s', hs', ?_⟩
  unfold Symbol.direct at hy ⊢
  rw [show s'.dependencies = s.dependencies from hdeps]
  exact hy

theorem SameButClosures.dependsOn_iff {a b : Atlas} (h : a.SameButClosures b) {x y : SymbolRef} :
    b.DependsOn x y ↔ a.DependsOn x y :=
  ⟨h.symm.dependsOn, h.dependsOn⟩

theorem SameButClosures.reaches_iff {a b : Atlas} (h : a.SameButClosures b) {x y : SymbolRef} :
    b.Reaches x y ↔ a.Reaches x y :=
  ⟨Relation.TransGen.mono (fun _ _ => h.symm.dependsOn) x y,
    Relation.TransGen.mono (fun _ _ => h.dependsOn) x y⟩

theorem SameButClosures.bound {a b : Atlas} (h : a.SameButClosures b) {r : SymbolRef}
    (hr : a.Bound r) : b.Bound r := by
  obtain ⟨s, hs, hb⟩ := hr
  obtain ⟨s', hs', hbare⟩ := h.symbol hs
  have hbound : s'.bare.bound = s.bare.bound := by rw [hbare]
  exact ⟨s', hs', hbound.trans hb⟩

theorem SameButClosures.isClosure {a b : Atlas} (h : a.SameButClosures b) {r : SymbolRef}
    {c : List SymbolRef} (hc : a.IsClosure r c) : b.IsClosure r c where
  nodup := hc.nodup
  mem_iff := fun q => by rw [hc.mem_iff, h.reaches_iff]
  bound := fun q hq => h.bound (hc.bound q hq)

/-- Every symbol is bound, and what is kept is exact. -/
structure Settled (a : Atlas) : Prop where
  coherent : a.Coherent
  bound : ∀ {r s}, a.symbol? r = some s → s.bound = true

/-- The closure that is kept for a symbol. -/
def kept? (a : Atlas) (r : SymbolRef) : Option (List SymbolRef) :=
  (a.symbol? r).bind Symbol.closure

theorem kept?_eq {a : Atlas} {r : SymbolRef} {s : Symbol} (hs : a.symbol? r = some s) :
    a.kept? r = s.closure := by
  unfold kept?
  rw [hs, Option.bind_some]

theorem Settled.isClosure {a : Atlas} (ha : a.Settled) {r : SymbolRef} {c : List SymbolRef}
    (hc : a.kept? r = some c) : a.IsClosure r c := by
  obtain ⟨s, hs, hclosure⟩ := Option.bind_eq_some_iff.mp hc
  exact ha.coherent.isClosure hs hclosure

/-- A graph without missing symbols whose symbols are all bound is settled before any closure is
kept. -/
theorem Settled.of_unkept {a : Atlas} (h : ∀ t ∈ a.tables.toList, ∀ s ∈ t.symbols.toList,
    s.bound = true ∧ s.closure = none ∧ ∀ d ∈ s.direct, d.all fun q => (a.symbol? q).isSome) :
    a.Settled := by
  -- every symbol of the atlas stands in one of its tables
  have hsymbol : ∀ {r s}, a.symbol? r = some s →
      s.bound = true ∧ s.closure = none ∧ ∀ d ∈ s.direct, d.all fun q => (a.symbol? q).isSome := by
    intro r s hs
    unfold symbol? at hs
    obtain ⟨t, ht, hget⟩ := Option.bind_eq_some_iff.mp hs
    unfold Table.get? at hget
    split at hget
    · cases hget
    · exact h t (Array.mem_toList_iff.mpr (Array.mem_of_getElem? ht)) s
        (Array.mem_toList_iff.mpr (Array.mem_of_getElem? hget))
  refine ⟨⟨?_, ?_, ?_⟩, fun hs => (hsymbol hs).1⟩
  · rintro x y ⟨s, hs, hy⟩
    exact (hsymbol hs).2.2 _ hy
  · intro r s c hs hc
    rw [(hsymbol hs).2.1] at hc
    cases hc
  · intro r s c hs hc
    rw [(hsymbol hs).2.1] at hc
    cases hc

/-! ## Counting -/

theorem sameButClosures_countClosure (a : Atlas) (table : Nat) :
    a.SameButClosures (a.countClosure table) := by
  intro q
  rw [a.sameSymbols_countClosure table q]

@[simp] theorem kept?_countClosure (a : Atlas) (table : Nat) (q : SymbolRef) :
    (a.countClosure table).kept? q = a.kept? q := by
  unfold kept?
  rw [a.sameSymbols_countClosure table q]

@[simp] theorem skeleton_countClosure (a : Atlas) (table : Nat) :
    (a.countClosure table).skeleton = a.skeleton :=
  a.skeleton_modifyTable table fun _ => rfl

theorem stats_countClosure {a : Atlas} {r : SymbolRef} {s : Symbol} (hs : a.symbol? r = some s)
    (table : Nat) : ((a.countClosure r.table).stats table).1
      = (a.stats table).1 + if r.table = table then 1 else 0 := by
  unfold symbol? at hs
  obtain ⟨t, ht, -⟩ := Option.bind_eq_some_iff.mp hs
  unfold stats countClosure
  rw [tables_modifyTable]
  by_cases htable : table = r.table
  · rw [if_pos htable, if_pos htable.symm, htable, ht]
    rfl
  · rw [if_neg htable, if_neg fun h => htable h.symm, Nat.add_zero]

theorem Settled.countClosure {a : Atlas} (ha : a.Settled) (table : Nat) :
    (a.countClosure table).Settled := by
  have hsame := a.sameSymbols_countClosure table
  refine ⟨hsame.coherent ha.coherent, ?_⟩
  intro r s hs
  rw [hsame r] at hs
  exact ha.bound hs

/-! ## Keeping -/

/-- The atlas after the closure of a symbol was kept. -/
def keep (a : Atlas) (r : SymbolRef) (c : List SymbolRef) : Atlas :=
  a.modifySymbol r fun s => { s with closure := some c }

theorem symbol?_keep (a : Atlas) (r : SymbolRef) (c : List SymbolRef) (q : SymbolRef) :
    (a.keep r c).symbol? q
      = if q = r then (a.symbol? q).map fun s => { s with closure := some c } else a.symbol? q :=
  symbol?_modifySymbol a r q _

theorem kept?_keep_self {a : Atlas} {r : SymbolRef} (hr : (a.symbol? r).isSome)
    (c : List SymbolRef) :
    (a.keep r c).kept? r = some c := by
  obtain ⟨s, hs⟩ := Option.isSome_iff_exists.mp hr
  unfold kept?
  rw [symbol?_keep, if_pos rfl, hs]
  rfl

theorem kept?_keep_ne (a : Atlas) {r q : SymbolRef} (hq : q ≠ r) (c : List SymbolRef) :
    (a.keep r c).kept? q = a.kept? q := by
  unfold kept?
  rw [symbol?_keep, if_neg hq]

theorem sameButClosures_keep (a : Atlas) (r : SymbolRef) (c : List SymbolRef) :
    a.SameButClosures (a.keep r c) := by
  intro q
  rw [symbol?_keep]
  by_cases hq : q = r
  · rw [if_pos hq]
    cases a.symbol? q <;> rfl
  · rw [if_neg hq]

@[simp] theorem skeleton_keep (a : Atlas) (r : SymbolRef) (c : List SymbolRef) :
    (a.keep r c).skeleton = a.skeleton :=
  a.skeleton_modifySymbol r fun _ => rfl

@[simp] theorem stats_keep (a : Atlas) (r : SymbolRef) (c : List SymbolRef) (table : Nat) :
    (a.keep r c).stats table = a.stats table :=
  a.stats_modifySymbol r _ table

theorem SameButClosures.all_bound {a b : Atlas} (h : a.SameButClosures b)
    (ha : ∀ {r s}, a.symbol? r = some s → s.bound = true) {r : SymbolRef} {s : Symbol}
    (hs : b.symbol? r = some s) : s.bound = true := by
  obtain ⟨s', hs', hbare⟩ := h.symm.symbol hs
  have hbound : s'.bare.bound = s.bare.bound := by rw [hbare]
  have hold : s'.bound = true := ha hs'
  exact hbound.symm.trans hold

theorem Settled.keep {a : Atlas} (ha : a.Settled) {r : SymbolRef} {c : List SymbolRef}
    (hr : a.Bound r) (hc : a.IsClosure r c) : (a.keep r c).Settled :=
  ⟨ha.coherent.keepClosure hr hc, (a.sameButClosures_keep r c).all_bound ha.bound⟩

/-! ## One call -/

/-- The atlas after the closure of a symbol was computed and kept. -/
def publish (a : Atlas) (r : SymbolRef) (c : List SymbolRef) : Atlas :=
  (a.countClosure r.table).keep r c

theorem symbol?_publish (a : Atlas) (r : SymbolRef) (c : List SymbolRef) (q : SymbolRef) :
    (a.publish r c).symbol? q
      = if q = r then (a.symbol? q).map fun s => { s with closure := some c } else a.symbol? q := by
  unfold publish
  rw [symbol?_keep, a.sameSymbols_countClosure r.table q]

theorem sameButClosures_publish (a : Atlas) (r : SymbolRef) (c : List SymbolRef) :
    a.SameButClosures (a.publish r c) :=
  (a.sameButClosures_countClosure r.table).trans (sameButClosures_keep _ r c)

@[simp] theorem skeleton_publish (a : Atlas) (r : SymbolRef) (c : List SymbolRef) :
    (a.publish r c).skeleton = a.skeleton := by
  unfold publish
  rw [skeleton_keep, skeleton_countClosure]

theorem stats_publish {a : Atlas} {r : SymbolRef} {s : Symbol} (hs : a.symbol? r = some s)
    (c : List SymbolRef) : ((a.publish r c).stats r.table).1 = (a.stats r.table).1 + 1 := by
  unfold publish
  rw [stats_keep, stats_countClosure hs, if_pos rfl]

theorem Settled.publish {a : Atlas} (ha : a.Settled) {r : SymbolRef} {c : List SymbolRef}
    (hr : a.Bound r) (hc : a.IsClosure r c) : (a.publish r c).Settled := by
  have hsame := a.sameButClosures_countClosure r.table
  exact (ha.countClosure r.table).keep (hsame.bound hr) (hsame.isClosure hc)

/-- **A closure that is not kept yet is computed, counted and kept.** -/
theorem exec_allDependencies_fresh {a : Atlas} (ha : a.Settled) {r : SymbolRef} {s : Symbol}
    (hs : a.symbol? r = some s) (hnone : s.closure = none) :
    ∃ c, a.IsClosure r c ∧ exec (AtlasM.allDependencies r) a = (.ok c, a.publish r c) := by
  rcases closureOf_spec ha.coherent hs with ⟨c, heq, hexact⟩ | ⟨u, -, -, hreach, hunbound⟩
  · refine ⟨c, hexact, ?_⟩
    rw [AtlasM.exec_allDependencies_new hs hnone, heq]
    rfl
  · -- nothing that is reached is unbound
    obtain ⟨su, hsu⟩ := Option.isSome_iff_exists.mp (ha.coherent.exists_of_reaches hreach)
    exact absurd ⟨su, hsu, ha.bound hsu⟩ hunbound

end Atlas

end SymbolAtlas
