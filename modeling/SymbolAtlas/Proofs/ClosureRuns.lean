import SymbolAtlas.Cache.Payload
import SymbolAtlas.Proofs.Declaring
import SymbolAtlas.Proofs.Search

set_option autoImplicit false

/-! # Closures over every run

A run declares symbols, gives them their direct dependencies, binds them and asks for closures, in
any order and across several tables. `LawfulRun` are the runs that keep two rules: the dependencies
of a bound symbol are never set, and closures are asked of bound symbols only. Along them every kept
closure stays exact (`LawfulRun.coherent`), because a bound symbol keeps its dependencies
(`Evolves`) and a closure holds bound symbols only. From this `allDependencies_exact` reads off what
a call answers, whatever was kept before it. -/

namespace SymbolAtlas

namespace Atlas

/-! ## What a step may change -/

/-- Symbols stay, bound ones stay bound, and what a bound symbol depends on stays the same. -/
def Evolves (a b : Atlas) : Prop :=
  ∀ q s, a.symbol? q = some s → ∃ s', b.symbol? q = some s' ∧
    (s.bound = true → s'.bound = true ∧ s'.direct = s.direct)

theorem Evolves.bound {a b : Atlas} (h : a.Evolves b) {r : SymbolRef} (hr : a.Bound r) :
    b.Bound r := by
  obtain ⟨s, hs, hb⟩ := hr
  obtain ⟨s', hs', hkeep⟩ := h _ _ hs
  exact ⟨s', hs', (hkeep hb).1⟩

theorem Evolves.isSome {a b : Atlas} (h : a.Evolves b) {r : SymbolRef}
    (hr : (a.symbol? r).isSome) : (b.symbol? r).isSome := by
  obtain ⟨s, hs⟩ := Option.isSome_iff_exists.mp hr
  obtain ⟨s', hs', -⟩ := h _ _ hs
  simp [hs']

theorem Evolves.dependsOn_iff {a b : Atlas} (h : a.Evolves b) {x y : SymbolRef} (hx : a.Bound x) :
    b.DependsOn x y ↔ a.DependsOn x y := by
  obtain ⟨s, hs, hb⟩ := hx
  obtain ⟨s', hs', hkeep⟩ := h _ _ hs
  simp only [DependsOn, hs, hs', Option.some.injEq, exists_eq_left', (hkeep hb).2]

/-- An exact closure stays exact while its symbols and its root keep their dependencies. -/
theorem IsClosure.transfer {a b : Atlas} {r : SymbolRef} {c : List SymbolRef} (hc : a.IsClosure r c)
    (hsame : ∀ x ∈ r :: c, ∀ y, b.DependsOn x y ↔ a.DependsOn x y)
    (hbound : ∀ q ∈ c, b.Bound q) : b.IsClosure r c := by
  -- every symbol on a path from `r` keeps its dependencies, so the path is there before and after
  have hpath : ∀ {x}, a.Reaches r x → ∀ y, b.DependsOn x y ↔ a.DependsOn x y := by
    intro x hx
    by_cases hxr : x = r
    · exact hsame x (by simp [hxr])
    · exact hsame x (List.mem_cons_of_mem r ((hc.mem_iff x).mpr ⟨hxr, hx⟩))
  have hroot := hsame r List.mem_cons_self
  have hforward : ∀ {x}, a.Reaches r x → b.Reaches r x := by
    intro x hx
    induction hx with
    | single hd => exact .single ((hroot _).mpr hd)
    | tail hm hd ih => exact ih.tail ((hpath hm _).mpr hd)
  have hback : ∀ {x}, b.Reaches r x → a.Reaches r x := by
    intro x hx
    induction hx with
    | single hd => exact .single ((hroot _).mp hd)
    | tail _ hd ih => exact ih.tail ((hpath ih _).mp hd)
  refine ⟨hc.nodup, ?_, hbound⟩
  intro q
  rw [hc.mem_iff]
  exact and_congr_right fun _ => ⟨hforward, hback⟩

/-- An exact closure stays exact: the symbols that count for it are all bound. -/
theorem Evolves.isClosure {a b : Atlas} (h : a.Evolves b) {r : SymbolRef} {c : List SymbolRef}
    (hr : a.Bound r) (hc : a.IsClosure r c) : b.IsClosure r c := by
  refine hc.transfer ?_ fun q hq => h.bound (hc.bound q hq)
  intro x hx y
  rcases List.mem_cons.mp hx with rfl | hx
  · exact h.dependsOn_iff hr
  · exact h.dependsOn_iff (hc.bound x hx)

/-- **A step keeps the atlas coherent** if its dependencies are symbols and each closure that it
leaves was there before or is exact. -/
theorem Coherent.evolve {a b : Atlas} (ha : a.Coherent) (h : a.Evolves b)
    (hdeps : ∀ {x y}, b.DependsOn x y → (b.symbol? y).isSome)
    (hclosures : ∀ {r s c}, b.symbol? r = some s → s.closure = some c →
      (∃ s₀, a.symbol? r = some s₀ ∧ s₀.closure = some c) ∨ (s.bound = true ∧ b.IsClosure r c)) :
    b.Coherent := by
  have hold : ∀ {r s c}, b.symbol? r = some s → s.closure = some c →
      s.bound = true ∧ b.IsClosure r c := by
    intro r s c hs hc
    rcases hclosures hs hc with ⟨s₀, hs₀, hc₀⟩ | hnew
    · have hb₀ : s₀.bound = true := ha.bound_of_closure hs₀ hc₀
      obtain ⟨s', hs', hkeep⟩ := h _ _ hs₀
      obtain rfl : s = s' := Option.some.inj (hs.symm.trans hs')
      exact ⟨(hkeep hb₀).1, h.isClosure ⟨s₀, hs₀, hb₀⟩ (ha.isClosure hs₀ hc₀)⟩
    · exact hnew
  exact ⟨hdeps, fun hs hc => (hold hs hc).1, fun hs hc => (hold hs hc).2⟩

/-- The two atlases have the same symbols; their tables may count and keep other things. -/
def SameSymbols (a b : Atlas) : Prop :=
  ∀ q, b.symbol? q = a.symbol? q

theorem SameSymbols.evolves {a b : Atlas} (h : a.SameSymbols b) : a.Evolves b := by
  intro q s hs
  exact ⟨s, by rw [h q, hs], fun hb => ⟨hb, rfl⟩⟩

theorem SameSymbols.coherent {a b : Atlas} (h : a.SameSymbols b) (ha : a.Coherent) :
    b.Coherent := by
  refine ha.evolve h.evolves ?_ ?_
  · rintro x y ⟨s, hs, hd⟩
    rw [h x] at hs
    rw [h y]
    exact ha.exists_of_dependsOn ⟨s, hs, hd⟩
  · intro r s c hs hc
    exact Or.inl ⟨s, by rw [← h r, hs], hc⟩

theorem SameSymbols.gather_eq {a b : Atlas} (h : a.SameSymbols b) (root : SymbolRef) (fuel : Nat) :
    ∀ pending found, b.gather root fuel pending found = a.gather root fuel pending found := by
  induction fuel with
  | zero => intro pending found; rfl
  | succ fuel ih =>
      intro pending found
      cases pending with
      | nil => rfl
      | cons r pending =>
          have hv : b.visit root r pending found = a.visit root r pending found := by
            unfold visit
            rw [h r]
          rw [gather_cons, gather_cons, hv]
          cases a.visit root r pending found with
          | error u => rfl
          | ok next => exact ih _ _

theorem SameSymbols.text_eq {a b : Atlas} (h : a.SameSymbols b) (r : Option SymbolRef) :
    b.text r = a.text r := by
  cases r with
  | none => rfl
  | some r => simp only [text, key?, Option.bind_some, h r]

/-- Writing to a symbol evolves the atlas if a bound symbol keeps its dependencies and its mark. -/
theorem evolves_modifySymbol {a : Atlas} {r : SymbolRef} {f : Symbol → Symbol}
    (hf : ∀ s, a.symbol? r = some s → s.bound = true → (f s).bound = true ∧
      (f s).direct = s.direct) :
    a.Evolves (a.modifySymbol r f) := by
  intro q s hs
  by_cases hq : q = r
  · subst hq
    exact ⟨f s, symbol?_modifySymbol_self hs f, hf s hs⟩
  · exact ⟨s, by rw [symbol?_modifySymbol_ne a hq, hs], fun hb => ⟨hb, rfl⟩⟩

/-- A symbol of a changed atlas is the changed one or was there before. -/
theorem symbol?_of_modifySymbol {a : Atlas} {r q : SymbolRef} {f : Symbol → Symbol} {s : Symbol}
    (h : (a.modifySymbol r f).symbol? q = some s) :
    a.symbol? q = some s ∨ (q = r ∧ ∃ s₀, a.symbol? r = some s₀ ∧ s = f s₀) := by
  by_cases hq : q = r
  · subst hq
    rw [symbol?_modifySymbol, if_pos rfl] at h
    obtain ⟨s₀, hs₀, rfl⟩ := Option.map_eq_some_iff.mp h
    exact Or.inr ⟨rfl, s₀, hs₀, rfl⟩
  · rw [symbol?_modifySymbol_ne a hq] at h
    exact Or.inl h

end Atlas

namespace Atlas

theorem Extends.evolves {a b : Atlas} (h : a.Extends b) : a.Evolves b := by
  intro q s hs
  exact ⟨s, h.keeps hs, fun hb => ⟨hb, rfl⟩⟩

/-- New symbols depend on nothing yet and have no closure. -/
theorem Extends.coherent {a b : Atlas} (h : a.Extends b) (ha : a.Coherent) : b.Coherent := by
  refine ha.evolve h.evolves ?_ ?_
  · rintro x y ⟨s, hs, hd⟩
    rcases h.fresh hs with hs | ⟨-, d, c, rfl⟩
    · exact h.evolves.isSome (ha.exists_of_dependsOn ⟨s, hs, hd⟩)
    · simp [Symbol.ofDeclaration, Symbol.direct] at hd
  · intro r s c hs hc
    rcases h.fresh hs with hs | ⟨-, d, c', rfl⟩
    · exact Or.inl ⟨s, hs, hc⟩
    · simp [Symbol.ofDeclaration] at hc

/-! ## Counting closures -/

/-- The atlas with one more closure counted in a table. -/
def countClosure (a : Atlas) (table : Nat) : Atlas :=
  a.modifyTable table fun t => { t with closures := t.closures + 1 }

theorem sameSymbols_countClosure (a : Atlas) (table : Nat) :
    a.SameSymbols (a.countClosure table) := by
  intro q
  rw [countClosure, symbol?_modifyTable]
  exact fun _ => rfl

theorem size_countClosure (a : Atlas) (table : Nat) : (a.countClosure table).size = a.size := by
  have hmap : (a.countClosure table).tables.toList.map Table.size
      = a.tables.toList.map Table.size := by
    apply List.ext_getElem?
    intro i
    rw [List.getElem?_map, List.getElem?_map, Array.getElem?_toList, Array.getElem?_toList]
    unfold countClosure
    rw [tables_modifyTable]
    by_cases h : i = table
    · cases a.tables[i]? <;> simp [h, Table.size]
    · rw [if_neg h]
  unfold size
  rw [hmap]

end Atlas

/-! ## What each call does -/

namespace AtlasM

def after {α : Type} (x : AtlasM α) (a : Atlas) : Atlas :=
  (exec x a).2

theorem exec_setDependencies {a : Atlas} {r : SymbolRef} {s : Symbol} (hs : a.symbol? r = some s)
    (deps : List (Option SymbolRef)) :
    exec (setDependencies r deps) a
      = if s.dependencies.isSome then
          (.error (.contract .dependenciesAlreadySet (a.text (some r))), a)
        else (.ok (), a.modifySymbol r fun s => { s with dependencies := some deps }) := by
  unfold setDependencies
  rw [exec_bind_ok (exec_read hs)]
  by_cases hd : s.dependencies.isSome = true
  · simp only [hd, if_true]
    exact exec_bind_error (exec_violate _ _ a) _
  · simp only [hd, Bool.false_eq_true, if_false]
    rfl

theorem exec_markBound {a : Atlas} {r : SymbolRef} {s : Symbol} (hs : a.symbol? r = some s) :
    exec (markBound r) a = (.ok (), a.modifySymbol r fun s => { s with bound := true }) := by
  unfold markBound
  rw [exec_bind_ok (exec_read hs)]
  rfl

theorem exec_bind_bound {a : Atlas} {r : SymbolRef} (hr : a.Bound r) (step : AtlasM Unit) :
    exec (AtlasM.bind r step) a = (.ok (), a) := by
  obtain ⟨s, hs, hb⟩ := hr
  unfold AtlasM.bind
  rw [exec_bind_ok (exec_read hs)]
  simp [hb]

theorem exec_bind_unbound {a : Atlas} {r : SymbolRef} {s : Symbol} (hs : a.symbol? r = some s)
    (hb : s.bound = false) (step : AtlasM Unit) :
    exec (AtlasM.bind r step) a = exec (step >>= fun _ => markBound r) a := by
  unfold AtlasM.bind
  rw [exec_bind_ok (exec_read hs)]
  simp [hb]

/-- Binding a symbol does nothing, or what the step does and then perhaps a mark. -/
theorem bind_invariant (P : Atlas → Prop) {a : Atlas} (r : SymbolRef) (step : AtlasM Unit) (h : P a)
    (hstep : ¬ a.Bound r → P (after step a)) (hmark : ∀ b, P b → P (after (markBound r) b)) :
    P (after (AtlasM.bind r step) a) := by
  unfold after
  -- binding a bound symbol does nothing, and a missing one cannot be bound
  by_cases hr : a.Bound r
  · rw [exec_bind_bound hr]
    exact h
  · cases hs : a.symbol? r with
    | none =>
        unfold AtlasM.bind
        rw [exec_bind_error (exec_read_missing hs)]
        exact h
    | some s =>
        have hunbound : s.bound = false := by
          cases hbound : s.bound with
          | false => rfl
          | true => exact absurd ⟨s, hs, hbound⟩ hr
        rw [exec_bind_unbound hs hunbound]
        exact exec_bind_invariant P (hstep hr) fun _ b _ hb => hmark b hb

theorem exec_allDependencies_kept {a : Atlas} {r : SymbolRef} {s : Symbol} {c : List SymbolRef}
    (hs : a.symbol? r = some s) (hc : s.closure = some c) :
    exec (allDependencies r) a = (.ok c, a) := by
  unfold allDependencies
  rw [exec_bind_ok (exec_read hs), hc]
  rfl

/-- A call that finds no closure computes one and keeps it, or fails and only counts. -/
theorem exec_allDependencies_new {a : Atlas} {r : SymbolRef} {s : Symbol}
    (hs : a.symbol? r = some s) (hc : s.closure = none) :
    exec (allDependencies r) a = match a.closureOf r s.direct with
      | .error u => (.error (.contract .unboundReached (a.text (some u))), a.countClosure r.table)
      | .ok c => (.ok c, (a.countClosure r.table).modifySymbol r fun s =>
            { s with closure := some c }) := by
  have hsame := a.sameSymbols_countClosure r.table
  have hclosure : (a.countClosure r.table).closureOf r s.direct = a.closureOf r s.direct := by
    unfold Atlas.closureOf
    rw [Atlas.size_countClosure, hsame.gather_eq]
  unfold allDependencies
  rw [exec_bind_ok (exec_read hs), hc]
  rw [exec_bind_ok (exec_modify _ a), exec_bind_ok (exec_get _)]
  show exec (match (a.countClosure r.table).closureOf r s.direct with
    | .error unbound => violate .unboundReached (some unbound)
    | .ok closure => _) (a.countClosure r.table) = _
  rw [hclosure]
  cases a.closureOf r s.direct with
  | error u =>
      dsimp only
      rw [exec_violate, hsame.text_eq]
  | ok c => rfl

theorem after_ofKind (kind : Kind) (refs : List (Option SymbolRef)) (a : Atlas) :
    after (ofKind kind refs) a = a := by
  unfold after
  induction refs with
  | nil => rfl
  | cons ref refs ih =>
      unfold ofKind
      cases ref with
      | none => rfl
      | some r =>
          rw [exec_bind_ok (show exec (receiver (some r)) a = (.ok r, a) from rfl)]
          cases hs : a.symbol? r with
          | none => rw [exec_bind_error (exec_read_missing hs)]
          | some s =>
              rw [exec_bind_ok (exec_read hs), exec_bind]
              rcases h : exec (ofKind kind refs) a with ⟨_ | tail, b⟩ <;> rw [h] at ih
              · exact ih
              · exact ih

/-- The atlas after closures were asked of some symbols, one after the other. -/
def afterAll (asked : List SymbolRef) (a : Atlas) : Atlas :=
  after (asked.mapM allDependencies) a

theorem afterAll_cons (r : SymbolRef) (asked : List SymbolRef) (a : Atlas) :
    afterAll (r :: asked) a = match exec (allDependencies r) a with
      | (.ok _, b) => afterAll asked b
      | (.error _, b) => b := by
  unfold afterAll after
  rw [exec_mapM_cons]
  rcases exec (allDependencies r) a with ⟨_ | _, b⟩ <;> rfl

/-- What one question keeps, a row of questions keeps. -/
theorem afterAll_invariant (P : Atlas → Prop) (hstep : ∀ r a, P a → P (after (allDependencies r) a))
    (asked : List SymbolRef) {a : Atlas} (h : P a) : P (afterAll asked a) := by
  induction asked generalizing a with
  | nil => exact h
  | cons r asked ih =>
      have hnext := hstep r a h
      unfold after at hnext
      rw [afterAll_cons]
      rcases hx : exec (allDependencies r) a with ⟨_ | c, b⟩ <;> rw [hx] at hnext
      · exact hnext
      · exact ih hnext

/-- Narrowing a closure to a kind changes the symbols as asking for the closure does, or not at
all. -/
theorem allDependenciesOf_invariant (P : Atlas → Prop)
    (hsame : ∀ {a b : Atlas}, (∀ q, b.symbol? q = a.symbol? q) → P a → P b) {a : Atlas}
    (r : SymbolRef) (kind : Kind) (h : P a) (hall : P (after (allDependencies r) a)) :
    P (after (allDependenciesOf r kind) a) := by
  have hkeep : ∀ {b : Atlas} {f : Table → Table}, P b → (∀ t, (f t).symbols = t.symbols) →
      P (b.modifyTable r.table f) :=
    fun {b} _ hb hf => hsame (Atlas.symbol?_modifyTable hf b r.table) hb
  unfold after allDependenciesOf
  dsimp only
  rw [exec_bind_ok (exec_get a)]
  cases a.tables[r.table]?.bind (·.filtered.get? (r.id, kind)) with
  | some answer => exact hkeep h fun _ => rfl
  | none =>
      refine exec_bind_invariant P hall ?_
      intro all b _ hb
      refine exec_bind_invariant P ?_ ?_
      · have hread := after_ofKind kind (all.map some) b
        unfold after at hread
        rw [hread]
        exact hb
      · exact fun answer b' _ hb' => hkeep hb' fun _ => rfl

/-- **Collecting symbols that are new** changes nothing in the atlas, and repeats none. -/
theorem exec_collect (ds found : List SymbolRef) (a : Atlas) :
    ∃ found', exec (forIn ds found fun d found =>
      if d ∉ found then pure (ForInStep.yield (found ++ [d]))
      else pure (ForInStep.yield found) : AtlasM (List SymbolRef)) a = (.ok found', a) ∧
      (found.Nodup → found'.Nodup) ∧ ∀ q, q ∈ found' ↔ q ∈ found ∨ q ∈ ds := by
  induction ds generalizing found with
  | nil => exact ⟨found, rfl, id, by simp⟩
  | cons d ds ih =>
      rw [List.forIn_cons]
      by_cases hd : d ∉ found
      · rw [if_pos hd, exec_bind_ok (exec_pure _ a)]
        obtain ⟨found', hrun, hnodup, hmem⟩ := ih (found ++ [d])
        refine ⟨found', hrun, fun h => hnodup (List.concat_eq_append ▸ h.concat hd), fun q => ?_⟩
        rw [hmem q, List.mem_append, List.mem_singleton, List.mem_cons, or_assoc]
      · rw [if_neg hd, exec_bind_ok (exec_pure _ a)]
        obtain ⟨found', hrun, hnodup, hmem⟩ := ih found
        refine ⟨found', hrun, hnodup, fun q => ?_⟩
        rw [hmem q, List.mem_cons]
        constructor
        · exact Or.imp_right Or.inr
        · rintro (hq | rfl | hq)
          · exact Or.inl hq
          · exact Or.inl (not_not.mp hd)
          · exact Or.inr hq

def askRoot : Option SymbolRef → AtlasM (List SymbolRef)
  | none => pure []
  | some r => allDependencies r

/-- What is collected on the way does not touch the atlas. -/
theorem after_required_mapM (roots : List (Option SymbolRef)) (a : Atlas) :
    after (required roots) a = after (roots.mapM askRoot) a := by
  unfold after
  rw [← exec_forIn_collect roots askRoot _ ?_ ?_ [] a]
  · unfold required
    rw [exec_bind]
    rcases exec _ a with ⟨_ | _, b⟩ <;> rfl
  · intro root found b deps b' h
    cases root with
    | none =>
        have hb : b = b' := congrArg Prod.snd h
        exact ⟨found, by rw [← hb]; rfl⟩
    | some r =>
        have hask : exec (allDependencies r) b = (.ok deps, b') := h
        dsimp only
        rw [exec_bind_ok hask]
        obtain ⟨found', hfound, -⟩ := exec_collect (r :: deps) found b'
        rw [exec_bind_ok hfound]
        exact ⟨found', rfl⟩
  · intro root found b e b' h
    cases root with
    | none => simp [askRoot] at h
    | some r => exact exec_bind_error (show exec (allDependencies r) b = _ from h) _

/-- Collecting what is required changes the atlas as asking the closures of the roots does. -/
theorem after_required (roots : List (Option SymbolRef)) (a : Atlas) :
    after (required roots) a = afterAll (roots.filterMap id) a := by
  rw [after_required_mapM]
  induction roots generalizing a with
  | nil => rfl
  | cons root roots ih =>
      unfold after at ih ⊢
      rw [exec_mapM_cons]
      cases root with
      | none => exact ih a
      | some r =>
          rw [List.filterMap_cons_some (show id (some r) = some r from rfl), afterAll_cons]
          rw [askRoot]
          rcases exec (allDependencies r) a with ⟨_ | deps, b⟩
          · rfl
          · exact ih b

/-- A snapshot changes the atlas as asking the closures of the table's symbols does. -/
theorem after_snapshot (manifest : String) (hash : List UInt8) (table : Nat) (timer : Timer)
    (a : Atlas) :
    after (Cache.Payload.snapshot manifest hash table timer) a
      = afterAll (a.members table) a := by
  unfold after afterAll after Cache.Payload.snapshot
  rw [exec_bind_ok (exec_get a), exec_bind]
  rcases exec (List.mapM allDependencies (a.members table)) a with ⟨_ | _, b⟩
  · rfl
  · rfl

end AtlasM

/-! ## Steps that keep an atlas coherent -/

namespace Atlas

open AtlasM

/-- **Writing to one symbol** keeps an atlas coherent if a bound symbol keeps its dependencies, the
new dependencies are symbols, and a new closure is exact. -/
theorem Coherent.modifySymbol {a : Atlas} (ha : a.Coherent) {r : SymbolRef} {f : Symbol → Symbol}
    (hbound : ∀ s, a.symbol? r = some s → s.bound = true →
      (f s).bound = true ∧ (f s).direct = s.direct)
    (hdeps : ∀ s d, a.symbol? r = some s → some d ∈ (f s).direct →
      some d ∈ s.direct ∨ (a.symbol? d).isSome)
    (hclosure : ∀ s c, a.symbol? r = some s → (f s).closure = some c →
      s.closure = some c ∨ (s.bound = true ∧ a.IsClosure r c)) :
    (a.modifySymbol r f).Coherent := by
  have hev : a.Evolves (a.modifySymbol r f) := evolves_modifySymbol hbound
  refine ha.evolve hev ?_ ?_
  · rintro x y ⟨s, hs, hd⟩
    rcases symbol?_of_modifySymbol hs with hs | ⟨rfl, s₀, hs₀, rfl⟩
    · exact hev.isSome (ha.exists_of_dependsOn ⟨s, hs, hd⟩)
    · rcases hdeps s₀ y hs₀ hd with hd | hy
      · exact hev.isSome (ha.exists_of_dependsOn ⟨s₀, hs₀, hd⟩)
      · exact hev.isSome hy
  · intro q s c hs hc
    rcases symbol?_of_modifySymbol hs with hs | ⟨rfl, s₀, hs₀, rfl⟩
    · exact Or.inl ⟨s, hs, hc⟩
    · rcases hclosure s₀ c hs₀ hc with hc | ⟨hb, hc⟩
      · exact Or.inl ⟨s₀, hs₀, hc⟩
      · exact Or.inr ⟨(hbound s₀ hs₀ hb).1, hev.isClosure ⟨s₀, hs₀, hb⟩ hc⟩

theorem Coherent.setDependencies {a : Atlas} (ha : a.Coherent) (r : SymbolRef)
    {deps : List (Option SymbolRef)} (hdeps : ∀ d, some d ∈ deps → (a.symbol? d).isSome)
    (hunbound : ∀ b, exec (setDependencies r deps) a = (.ok (), b) → ¬ a.Bound r) :
    (after (AtlasM.setDependencies r deps) a).Coherent := by
  unfold after
  cases hs : a.symbol? r with
  | none =>
      unfold AtlasM.setDependencies
      rw [exec_bind_error (exec_read_missing hs)]
      exact ha
  | some s =>
      rw [exec_setDependencies hs] at hunbound ⊢
      by_cases hd : s.dependencies.isSome = true
      · rw [if_pos hd]
        exact ha
      · rw [if_neg hd] at hunbound ⊢
        refine ha.modifySymbol ?_ ?_ ?_
        · intro s' hs' hb'
          exact absurd ⟨s', hs', hb'⟩ (hunbound _ rfl)
        · exact fun s' d _ hd => Or.inr (hdeps d hd)
        · exact fun s' c _ hc => Or.inl hc

/-- Marking a symbol bound leaves all dependencies and closures as they are. -/
theorem Coherent.markBound {a : Atlas} (ha : a.Coherent) (r : SymbolRef) :
    (after (AtlasM.markBound r) a).Coherent := by
  unfold after
  cases hs : a.symbol? r with
  | none =>
      unfold AtlasM.markBound
      rw [exec_bind_error (exec_read_missing hs)]
      exact ha
  | some s =>
      rw [exec_markBound hs]
      refine ha.modifySymbol ?_ ?_ ?_
      · exact fun s' _ _ => ⟨rfl, rfl⟩
      · exact fun s' d _ hd => Or.inl hd
      · exact fun s' c _ hc => Or.inl hc

theorem Coherent.keepClosure {a : Atlas} (ha : a.Coherent) {r : SymbolRef} {c : List SymbolRef}
    (hr : a.Bound r) (hc : a.IsClosure r c) :
    (a.modifySymbol r fun s => { s with closure := some c }).Coherent := by
  obtain ⟨s, hs, hb⟩ := hr
  refine ha.modifySymbol ?_ ?_ ?_
  · exact fun s' _ hb => ⟨hb, rfl⟩
  · exact fun s' d _ hd => Or.inl hd
  · intro s' c' hs' hc'
    obtain rfl : s = s' := Option.some.inj (hs.symm.trans hs')
    obtain rfl : c = c' := Option.some.inj hc'
    exact Or.inr ⟨hb, hc⟩

theorem Coherent.allDependencies {a : Atlas} (ha : a.Coherent) {r : SymbolRef} (hr : a.Bound r) :
    (after (AtlasM.allDependencies r) a).Coherent := by
  obtain ⟨s, hs, hb⟩ := id hr
  have hsame := a.sameSymbols_countClosure r.table
  unfold after
  cases hc : s.closure with
  | some c =>
      rw [exec_allDependencies_kept hs hc]
      exact ha
  | none =>
      rw [exec_allDependencies_new hs hc]
      rcases closureOf_spec ha hs with ⟨c, heq, hexact⟩ | ⟨u, heq, -⟩ <;> rw [heq]
      · exact (hsame.coherent ha).keepClosure (hsame.evolves.bound hr) 
          (hsame.evolves.isClosure hr hexact)
      · exact hsame.coherent ha

end Atlas

/-! ## Lawful runs -/

open AtlasM

/-- An atlas of empty tables, one for each policy for narrowed closures. -/
def Atlas.blankUnder (policies : List (CachePolicy (Nat × Kind) (List SymbolRef))) : Atlas :=
  ⟨(policies.map Table.under).toArray⟩

def Atlas.blank (capacities : List Int) : Atlas :=
  .blankUnder (capacities.map Table.policy)

/-- When closures are asked of some symbols one after the other, and the first failure ends it, each
symbol that is asked is bound. -/
def AsksBound : (asked : List SymbolRef) → Atlas → Prop
  | [], _ => True
  | r :: asked, a =>
    a.Bound r ∧ ∀ c b, exec (allDependencies r) a = (.ok c, b) → AsksBound asked b

/-- **The runs that keep to the life cycle of symbols.** Calls come in any order and number and may
fail. What is given as a dependency is a symbol; setting the dependencies of a bound symbol never
succeeds; closures are asked of bound symbols. The step that binds a symbol is any program that is
itself such a run from where it starts. -/
inductive LawfulRun : Atlas → Atlas → Prop
  | refl (a : Atlas) : LawfulRun a a
  | declare {a b : Atlas} (h : LawfulRun a b) (table : Nat) (o : Outline) (i : Nat) :
      LawfulRun a (after (AtlasM.declare table o i) b)
  | setDependencies {a b : Atlas} (h : LawfulRun a b) (r : SymbolRef)
      (deps : List (Option SymbolRef)) (hdeps : ∀ d, some d ∈ deps → (b.symbol? d).isSome)
      (hunbound : ∀ c, exec (AtlasM.setDependencies r deps) b = (.ok (), c) → ¬ b.Bound r) :
      LawfulRun a (after (AtlasM.setDependencies r deps) b)
  | markBound {a b : Atlas} (h : LawfulRun a b) (r : SymbolRef) :
      LawfulRun a (after (AtlasM.markBound r) b)
  | bind {a b : Atlas} (h : LawfulRun a b) (r : SymbolRef) (step : AtlasM Unit)
      (hstep : ¬ b.Bound r → LawfulRun b (after step b)) :
      LawfulRun a (after (AtlasM.bind r step) b)
  | allDependencies {a b : Atlas} (h : LawfulRun a b) (r : SymbolRef) (hr : b.Bound r) :
      LawfulRun a (after (AtlasM.allDependencies r) b)
  | allDependenciesOf {a b : Atlas} (h : LawfulRun a b) (r : SymbolRef) (kind : Kind)
      (hr : b.Bound r) : LawfulRun a (after (AtlasM.allDependenciesOf r kind) b)
  | required {a b : Atlas} (h : LawfulRun a b) (roots : List (Option SymbolRef))
      (hroots : AsksBound (roots.filterMap id) b) :
      LawfulRun a (after (AtlasM.required roots) b)
  | snapshot {a b : Atlas} (h : LawfulRun a b) (manifest : String) (hash : List UInt8)
      (table : Nat) (timer : Timer) (hmembers : AsksBound (b.members table) b) :
      LawfulRun a (after (Cache.Payload.snapshot manifest hash table timer) b)

namespace Atlas

@[simp] theorem symbol?_blankUnder (policies : List (CachePolicy (Nat × Kind) (List SymbolRef)))
    (q : SymbolRef) : (blankUnder policies).symbol? q = none := by
  unfold symbol? blankUnder
  rw [List.getElem?_toArray, List.getElem?_map]
  cases policies[q.table]? with
  | none => rfl
  | some policy => simp [Table.get?, Table.under]

@[simp] theorem symbol?_blank (capacities : List Int) (q : SymbolRef) :
    (blank capacities).symbol? q = none :=
  symbol?_blankUnder _ q

theorem coherent_blank (capacities : List Int) : (blank capacities).Coherent := by
  refine ⟨?_, ?_, ?_⟩
  · rintro x y ⟨s, hs, -⟩
    simp at hs
  · intro r s c hs
    simp at hs
  · intro r s c hs
    simp at hs

theorem Coherent.afterAll {asked : List SymbolRef} :
    ∀ {a : Atlas}, a.Coherent → AsksBound asked a → (AtlasM.afterAll asked a).Coherent := by
  induction asked with
  | nil => intro a ha _; exact ha
  | cons r asked ih =>
      intro a ha hasked
      obtain ⟨hr, hrest⟩ := hasked
      have hnext : (after (AtlasM.allDependencies r) a).Coherent := ha.allDependencies hr
      unfold after at hnext
      rw [afterAll_cons]
      rcases hx : exec (AtlasM.allDependencies r) a with ⟨_ | c, b⟩ <;> rw [hx] at hnext
      · exact hnext
      · exact ih hnext (hrest c b hx)

theorem Coherent.allDependenciesOf {a : Atlas} (ha : a.Coherent) {r : SymbolRef} (hr : a.Bound r)
    (kind : Kind) : (after (AtlasM.allDependenciesOf r kind) a).Coherent :=
  allDependenciesOf_invariant Coherent SameSymbols.coherent r kind ha (ha.allDependencies hr)

end Atlas

/-- **Along a lawful run every closure that is kept stays exact.** -/
theorem LawfulRun.coherent {a b : Atlas} (h : LawfulRun a b) : a.Coherent → b.Coherent := by
  induction h with
  | refl a => exact fun ha => ha
  | declare h table o i ih => exact fun ha => (extends_declare _ table o i).coherent (ih ha)
  | setDependencies h r deps hdeps hunbound ih =>
      exact fun ha => (ih ha).setDependencies r hdeps hunbound
  | markBound h r ih => exact fun ha => (ih ha).markBound r
  | @bind a b h r step hstep ih ihstep =>
      intro ha
      refine bind_invariant Atlas.Coherent r step (ih ha) (fun hr => ihstep hr (ih ha)) ?_
      exact fun b hb => hb.markBound r
  | allDependencies h r hr ih => exact fun ha => (ih ha).allDependencies hr
  | allDependenciesOf h r kind hr ih => exact fun ha => (ih ha).allDependenciesOf hr kind
  | required h roots hroots ih =>
      intro ha
      rw [after_required]
      exact (ih ha).afterAll hroots
  | snapshot h manifest hash table timer hmembers ih =>
      intro ha
      rw [after_snapshot]
      exact (ih ha).afterAll hmembers

/-! ## What a call answers -/

namespace AtlasM

/-- A call of a bound symbol gives the exact closure, or names a symbol that is not bound. -/
theorem exec_allDependencies_cases {a : Atlas} (ha : a.Coherent) {r : SymbolRef} (hr : a.Bound r) :
    (∃ c b, exec (allDependencies r) a = (.ok c, b) ∧ a.IsClosure r c) ∨
    (∃ u s, exec (allDependencies r) a
        = (.error (.contract .unboundReached s.key), a.countClosure r.table)
      ∧ a.symbol? u = some s ∧ u ≠ r ∧ a.Reaches r u ∧ ¬ a.Bound u) := by
  obtain ⟨s, hs, -⟩ := hr
  cases hc : s.closure with
  | some c => exact Or.inl ⟨c, a, exec_allDependencies_kept hs hc, ha.isClosure hs hc⟩
  | none =>
      rw [exec_allDependencies_new hs hc]
      rcases Atlas.closureOf_spec ha hs with ⟨c, heq, hexact⟩ | ⟨u, heq, hne, hreach, hunbound⟩
      · rw [heq]
        exact Or.inl ⟨c, _, rfl, hexact⟩
      · rw [heq]
        obtain ⟨su, hsu⟩ := Option.isSome_iff_exists.mp (ha.exists_of_reaches hreach)
        have htext : a.text (some u) = su.key := by simp [Atlas.text, Atlas.key?, hsu]
        exact Or.inr ⟨u, su, by rw [← htext], hsu, hne, hreach, hunbound⟩

end AtlasM

/-- **The closure of a bound symbol, at any point of any lawful run.** The search has ended when its
allowance runs out. An answer lists each symbol once, no missing one, and exactly the symbols other
than `r` that `r` reaches. The call breaks a contract iff some such symbol is not bound; the error
then names one by its key, and nothing but the count of closures has changed. -/
theorem allDependencies_exact {capacities : List Int} {a : Atlas}
    (h : LawfulRun (Atlas.blank capacities) a) {r : SymbolRef} (hr : a.Bound r) :
    (∀ s fuel, a.symbol? r = some s → a.size < fuel →
      a.gather r fuel (Atlas.enqueue r [] s.direct []) [] = a.closureOf r s.direct) ∧
    (∀ c b, exec (allDependencies r) a = (.ok c, b) →
      c.Nodup ∧ (∀ q ∈ c, (a.symbol? q).isSome) ∧ ∀ q, q ∈ c ↔ q ≠ r ∧ a.Reaches r q) ∧
    ((∃ e b, exec (allDependencies r) a = (.error e, b) ∧ e.isInvalidState = true) ↔
      ∃ u, u ≠ r ∧ a.Reaches r u ∧ ¬ a.Bound u) ∧
    (∀ e b, exec (allDependencies r) a = (.error e, b) →
      (∃ u s, a.symbol? u = some s ∧ u ≠ r ∧ a.Reaches r u ∧ ¬ a.Bound u ∧
        e = .contract .unboundReached s.key) ∧
      b = a.countClosure r.table ∧ ∀ q, b.symbol? q = a.symbol? q) := by
  -- whatever the run has kept is exact, so the search may take it over
  have ha : a.Coherent := h.coherent (Atlas.coherent_blank capacities)
  refine ⟨?_, ?_, ?_, ?_⟩
  · intro s fuel hs hfuel
    exact Atlas.gather_fuel ha (a.size + 1) (Atlas.Search.start hs) (by simp) hfuel
  · intro c b hok
    rcases exec_allDependencies_cases ha hr with ⟨c', b', hok', hexact⟩ | ⟨u, s, herror, -⟩
    · obtain rfl : c' = c := by
        rw [hok] at hok'
        simpa using (congrArg Prod.fst hok').symm
      refine ⟨hexact.nodup, ?_, hexact.mem_iff⟩
      intro q hq
      exact ha.exists_of_reaches ((hexact.mem_iff q).mp hq).2
    · rw [hok] at herror
      simp at herror
  · constructor
    · rintro ⟨e, b, herror, -⟩
      rcases exec_allDependencies_cases ha hr with ⟨c, b', hok, -⟩ | ⟨u, s, -, -, hne, hreach, hu⟩
      · rw [herror] at hok
        simp at hok
      · exact ⟨u, hne, hreach, hu⟩
    · rintro ⟨u, hne, hreach, hu⟩
      rcases exec_allDependencies_cases ha hr with ⟨c, b, -, hexact⟩ | ⟨v, s, herror, -⟩
      · exact absurd (hexact.bound u ((hexact.mem_iff u).mpr ⟨hne, hreach⟩)) hu
      · exact ⟨_, _, herror, rfl⟩
  · intro e b herror
    rcases exec_allDependencies_cases ha hr with ⟨c, b', hok, -⟩ | ⟨u, s, herror', hs, hne,
      hreach, hu⟩
    · rw [herror] at hok
      simp at hok
    · rw [herror, Prod.mk.injEq, Except.error.injEq] at herror'
      obtain ⟨rfl, rfl⟩ := herror'
      exact ⟨⟨u, s, hs, hne, hreach, hu, rfl⟩, rfl, a.sameSymbols_countClosure r.table⟩

/-- Two types. -/
def twoTypes : Outline where
  items := #[⟨⟨"A", "A", .type, {}, none⟩, none⟩, ⟨⟨"B", "B", .type, {}, none⟩, none⟩]

/-- The types depend on each other and one on itself; the closure of the second is kept already. -/
def cyclicTypes : Atlas :=
  [after (AtlasM.declare 0 twoTypes 0), after (AtlasM.declare 0 twoTypes 1),
    after (setDependencies ⟨0, 1⟩ [none, some ⟨0, 1⟩, some ⟨0, 2⟩]),
    after (setDependencies ⟨0, 2⟩ [some ⟨0, 1⟩]),
    after (markBound ⟨0, 1⟩), after (markBound ⟨0, 2⟩),
    after (allDependencies ⟨0, 2⟩)].foldl (fun a f => f a) (.blank [4])

theorem lawfulRun_cyclicTypes : LawfulRun (.blank [4]) cyclicTypes := by
  unfold cyclicTypes
  refine .allDependencies (.markBound (.markBound (.setDependencies (.setDependencies
    (.declare (.declare (.refl _) _ _ _) _ _ _) _ _ ?_ ?_) _ _ ?_ ?_) _) _) _ (by decide)
  · intro d hd
    have hd : d = ⟨0, 1⟩ ∨ d = ⟨0, 2⟩ := by simpa using hd
    rcases hd with rfl | rfl <;> decide
  · exact fun _ _ => by decide
  · intro d hd
    have hd : d = ⟨0, 1⟩ := by simpa using hd
    rw [hd]
    decide
  · exact fun _ _ => by decide

theorem allDependencies_exact_cyclicTypes :
    LawfulRun (.blank [4]) cyclicTypes ∧ cyclicTypes.Bound ⟨0, 1⟩ ∧
      ∀ q, q ∈ [(⟨0, 2⟩ : SymbolRef)] ↔ q ≠ ⟨0, 1⟩ ∧ cyclicTypes.Reaches ⟨0, 1⟩ q :=
  ⟨lawfulRun_cyclicTypes, by decide,
    ((allDependencies_exact lawfulRun_cyclicTypes (by decide)).2.1 [⟨0, 2⟩] _ rfl).2.2⟩

end SymbolAtlas
