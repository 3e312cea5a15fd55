import SymbolAtlas.Proofs.SettledAtlas

set_option autoImplicit false

/-! # Runs without rules

What remains of the life cycle of symbols if operations come in any order and no rule is kept? A
slot that is filled stays as it is, and a bound symbol stays bound (`Symbol.Ages`). But the mark and
the dependencies are two slots, and the second can be filled after the first. `FreeRun` are the runs
of any operations, with the symbols that were given dependencies when they were bound already. This
happens at most once to a symbol, and it is the only way in which the dependencies of a bound symbol
change (`FreeRun.ages`). A closure that is exact stays so while it happens to none of its symbols
(`directDependencies_final`). -/

namespace SymbolAtlas

/-- What a symbol keeps when it changes: its mark, and what is in its slots. -/
structure Symbol.Ages (s s' : Symbol) : Prop where
  bound : s.bound = true → s'.bound = true
  dependencies : ∀ {deps}, s.dependencies = some deps → s'.dependencies = some deps
  closure : ∀ {c}, s.closure = some c → s'.closure = some c

theorem Symbol.Ages.refl (s : Symbol) : s.Ages s :=
  ⟨fun h => h, fun h => h, fun h => h⟩

theorem Symbol.Ages.trans {s t u : Symbol} (h : s.Ages t) (h' : t.Ages u) : s.Ages u :=
  ⟨fun hb => h'.bound (h.bound hb), fun hd => h'.dependencies (h.dependencies hd),
    fun hc => h'.closure (h.closure hc)⟩

namespace Atlas

/-- **How an atlas changes while `late` are given their dependencies late**, that is when they are
bound already: symbols stay and age, and the other bound symbols keep the dependencies they have. A
symbol is late at most once. -/
structure Ages (late : List SymbolRef) (a b : Atlas) : Prop where
  symbol : ∀ {q s}, a.symbol? q = some s → ∃ s', b.symbol? q = some s' ∧ s.Ages s' ∧
    (s.bound = true → q ∉ late → s'.dependencies = s.dependencies)
  once : late.Nodup
  unset : ∀ {q s}, q ∈ late → a.symbol? q = some s → s.dependencies = none
  filled : ∀ {q}, q ∈ late → ∃ s, b.symbol? q = some s ∧ s.dependencies.isSome

namespace Ages

variable {a b c : Atlas} {late late' : List SymbolRef}

/-- If nobody is late there is nothing to say but how symbols change. -/
theorem of_symbols (h : ∀ {q s}, a.symbol? q = some s → ∃ s', b.symbol? q = some s' ∧ s.Ages s' ∧
    (s.bound = true → s'.dependencies = s.dependencies)) : Ages [] a b where
  symbol := fun hs => by
    obtain ⟨s', hs', hages, hdeps⟩ := h hs
    exact ⟨s', hs', hages, fun hb _ => hdeps hb⟩
  once := List.nodup_nil
  unset := fun hq => by cases hq
  filled := fun hq => by cases hq

theorem refl (a : Atlas) : Ages [] a a :=
  of_symbols fun hs => ⟨_, hs, .refl _, fun _ => rfl⟩

/-- **One change after the other.** Who was late before has dependencies, and is not late again. -/
theorem trans (h : Ages late a b) (h' : Ages late' b c) : Ages (late ++ late') a c where
  symbol := by
    intro q s hs
    obtain ⟨t, ht, hst, hdeps⟩ := h.symbol hs
    obtain ⟨u, hu, htu, hdeps'⟩ := h'.symbol ht
    refine ⟨u, hu, hst.trans htu, ?_⟩
    intro hb hq
    rw [List.mem_append, not_or] at hq
    exact (hdeps' (hst.bound hb) hq.2).trans (hdeps hb hq.1)
  once := by
    refine List.nodup_append'.mpr ⟨h.once, h'.once, ?_⟩
    -- in between, who was late has dependencies and who will be late has none
    intro q hq hq'
    obtain ⟨t, ht, hfilled⟩ := h.filled hq
    rw [h'.unset hq' ht] at hfilled
    cases hfilled
  unset := by
    intro q s hq hs
    rcases List.mem_append.mp hq with hq | hq
    · exact h.unset hq hs
    · obtain ⟨t, ht, hst, -⟩ := h.symbol hs
      have hnone := h'.unset hq ht
      cases hd : s.dependencies with
      | none => rfl
      | some deps =>
          rw [hst.dependencies hd] at hnone
          cases hnone
  filled := by
    intro q hq
    rcases List.mem_append.mp hq with hq | hq
    · obtain ⟨t, ht, hfilled⟩ := h.filled hq
      obtain ⟨deps, hdeps⟩ := Option.isSome_iff_exists.mp hfilled
      obtain ⟨u, hu, htu, -⟩ := h'.symbol ht
      exact ⟨u, hu, by simp [htu.dependencies hdeps]⟩
    · exact h'.filled hq

/-- A change that makes nobody late may be put behind. -/
theorem then_quiet (h : Ages late a b) (h' : Ages [] b c) : Ages late a c := by
  have htrans := h.trans h'
  rwa [List.append_nil] at htrans

theorem of_sameSymbols (h : a.SameSymbols b) : Ages [] a b :=
  of_symbols fun hs => ⟨_, (h _).trans hs, .refl _, fun _ => rfl⟩

theorem of_extends (h : a.Extends b) : Ages [] a b :=
  of_symbols fun hs => ⟨_, h.keeps hs, .refl _, fun _ => rfl⟩

theorem modifySymbol {r : SymbolRef} {f : Symbol → Symbol}
    (hf : ∀ s, a.symbol? r = some s → s.Ages (f s) ∧
      (s.bound = true → (f s).dependencies = s.dependencies)) : Ages [] a (a.modifySymbol r f) := by
  refine of_symbols fun {q s} hs => ?_
  by_cases hq : q = r
  · subst hq
    exact ⟨f s, symbol?_modifySymbol_self hs f, hf s hs⟩
  · exact ⟨s, by rw [symbol?_modifySymbol_ne a hq, hs], .refl s, fun _ => rfl⟩

end Ages

end Atlas

/-! ## What each operation does -/

namespace AtlasM

open Atlas

/-- An operation that gives no bound symbol other dependencies, wherever it starts. -/
def Gentle {α : Type} (x : AtlasM α) : Prop :=
  ∀ a, Ages [] a (after x a)

namespace Gentle

variable {α β : Type}

theorem pure (v : α) : Gentle (Pure.pure v : AtlasM α) :=
  fun a => .refl a

theorem violate (v : Violation) (r : Option SymbolRef) : Gentle (AtlasM.violate v r : AtlasM α) :=
  fun a => .refl a

theorem bind {x : AtlasM α} {f : α → AtlasM β} (hx : Gentle x) (hf : ∀ v, Gentle (f v)) :
    Gentle (x >>= f) := by
  intro a
  refine exec_bind_invariant (Ages [] a) (hx a) ?_
  exact fun v b _ hb => hb.then_quiet (hf v b)

theorem ite {p : Prop} [Decidable p] {x y : AtlasM α} (hx : Gentle x) (hy : Gentle y) :
    Gentle (if p then x else y) := by
  split
  · exact hx
  · exact hy

theorem receiver (r : Option SymbolRef) : Gentle (AtlasM.receiver r) := by
  cases r with
  | none => exact fun a => .refl a
  | some r => exact pure r

theorem read (r : SymbolRef) : Gentle (AtlasM.read r) := by
  intro a
  unfold after
  cases hs : a.symbol? r with
  | none => rw [exec_read_missing hs]; exact .refl a
  | some s => rw [exec_read hs]; exact .refl a

theorem update (r : SymbolRef) {f : Symbol → Symbol}
    (hf : ∀ s, s.Ages (f s) ∧ (f s).dependencies = s.dependencies) :
    Gentle (AtlasM.update r f) :=
  fun _ => Ages.modifySymbol fun s _ => ⟨(hf s).1, fun _ => (hf s).2⟩

/-- Writing to a slot that has no part in the life cycle. -/
theorem updateAside (r : SymbolRef) {f : Symbol → Symbol} (hf : ∀ s, (f s).bound = s.bound ∧
    (f s).dependencies = s.dependencies ∧
    (f s).closure = s.closure) : Gentle (AtlasM.update r f) := by
  refine update r fun s => ?_
  obtain ⟨hbound, hdeps, hclosure⟩ := hf s
  exact ⟨⟨hbound.trans, hdeps.trans, hclosure.trans⟩, hdeps⟩

theorem declare (table : Nat) (o : Outline) (i : Nat) : Gentle (AtlasM.declare table o i) :=
  fun a => .of_extends (extends_declare a table o i)

theorem setAttributes (r : SymbolRef) (attrs : List Attribute) :
    Gentle (AtlasM.setAttributes r attrs) := by
  refine (read r).bind fun s => ite ((violate _ _).bind fun _ => ?_) ?_
  all_goals exact updateAside r fun _ => ⟨rfl, rfl, rfl⟩

theorem setTemplate (r template : Option SymbolRef) : Gentle (AtlasM.setTemplate r template) := by
  have hset : Gentle (do
      let r' ← AtlasM.receiver r
      if (← AtlasM.read r').template.isSome then AtlasM.violate .templateAlreadySet r
      AtlasM.update r' fun s => { s with template := template }) := by
    refine (receiver r).bind fun r' =>
      (read r').bind fun s => ite ((violate _ _).bind fun _ => ?_) ?_
    all_goals exact updateAside r' fun _ => ⟨rfl, rfl, rfl⟩
  exact ite ((violate _ _).bind fun _ => hset) hset

theorem addImplementation (r : SymbolRef) (implementation : Option SymbolRef) :
    Gentle (AtlasM.addImplementation r implementation) := by
  cases implementation with
  | none => exact pure _
  | some i =>
      refine ite (pure _) ((read r).bind fun s => ite (pure _) ?_)
      exact updateAside r fun _ => ⟨rfl, rfl, rfl⟩

theorem setOverridden (r base : Option SymbolRef) : Gentle (AtlasM.setOverridden r base) := by
  cases base with
  | none => exact violate _ _
  | some b =>
      have hset : Gentle (do
          let r' ← AtlasM.receiver r
          if (← AtlasM.read r').overridden.isSome then AtlasM.violate .overriddenAlreadySet r
          AtlasM.update r' fun s => { s with overridden := some b }
          AtlasM.addImplementation b (some r')) := by
        refine (receiver r).bind fun r' => (read r').bind fun s =>
          ite ((violate _ _).bind fun _ => ?_) ?_
        all_goals
          have hrecord : Gentle (AtlasM.update r' fun s => { s with overridden := some b }) :=
            updateAside r' fun _ => ⟨rfl, rfl, rfl⟩
          exact hrecord.bind fun _ => addImplementation b (some r')
      exact ite ((violate _ _).bind fun _ => hset) hset

theorem markBound (r : SymbolRef) : Gentle (AtlasM.markBound r) :=
  (read r).bind fun _ => update r fun _ => ⟨⟨fun _ => rfl, fun h => h, fun h => h⟩, rfl⟩

theorem directDependencies (r : SymbolRef) : Gentle (AtlasM.directDependencies r) :=
  (read r).bind fun _ => ite ((violate _ _).bind fun _ => pure _) (pure _)

theorem ofKind (kind : Kind) (refs : List (Option SymbolRef)) :
    Gentle (AtlasM.ofKind kind refs) := by
  intro a
  rw [after_ofKind]
  exact .refl a

theorem directDependenciesOf (r : SymbolRef) (kind : Kind) :
    Gentle (AtlasM.directDependenciesOf r kind) :=
  (directDependencies r).bind fun _ => ofKind kind _

theorem allDependencies (r : SymbolRef) : Gentle (AtlasM.allDependencies r) := by
  intro a
  unfold after
  cases hs : a.symbol? r with
  | none =>
      unfold AtlasM.allDependencies
      rw [exec_bind_error (exec_read_missing hs)]
      exact .refl a
  | some s =>
      cases hc : s.closure with
      | some c =>
          rw [exec_allDependencies_kept hs hc]
          exact .refl a
      | none =>
          -- the count of the table grows in any case, and a closure is kept if the search succeeds
          have hcount : Ages [] a (a.countClosure r.table) :=
            .of_sameSymbols (a.sameSymbols_countClosure r.table)
          rw [exec_allDependencies_new hs hc]
          cases a.closureOf r s.direct with
          | error u => exact hcount
          | ok c =>
              refine hcount.then_quiet (.modifySymbol fun t ht => ?_)
              rw [a.sameSymbols_countClosure r.table r, hs] at ht
              obtain rfl := Option.some.inj ht
              refine ⟨⟨fun hb => hb, fun hd => hd, fun hkept => ?_⟩, fun _ => rfl⟩
              rw [hc] at hkept
              cases hkept

theorem allDependenciesOf (r : SymbolRef) (kind : Kind) :
    Gentle (AtlasM.allDependenciesOf r kind) :=
  fun a => allDependenciesOf_invariant (Ages [] a) (fun hsame h =>
    h.then_quiet (.of_sameSymbols hsame))
    r kind (.refl a) (allDependencies r a)

theorem afterAll (asked : List SymbolRef) (a : Atlas) : Ages [] a (AtlasM.afterAll asked a) :=
  afterAll_invariant (Ages [] a) (fun r b h => h.then_quiet (allDependencies r b)) asked (.refl a)

theorem required (roots : List (Option SymbolRef)) : Gentle (AtlasM.required roots) := by
  intro a
  rw [after_required]
  exact afterAll _ a

theorem snapshot (manifest : String) (hash : List UInt8) (table : Nat) (timer : Timer) :
    Gentle (Cache.Payload.snapshot manifest hash table timer) := by
  intro a
  rw [after_snapshot]
  exact afterAll _ a

end Gentle

/-- Dependencies are given to a symbol that has none, or nothing changes. -/
theorem setDependencies_cases (a : Atlas) (r : SymbolRef) (deps : List (Option SymbolRef)) :
    (∃ e, exec (setDependencies r deps) a = (.error e, a)) ∨
    ∃ s, a.symbol? r = some s ∧ s.dependencies = none ∧ exec (setDependencies r deps) a
      = (.ok (), a.modifySymbol r fun s => { s with dependencies := some deps }) := by
  cases hs : a.symbol? r with
  | none =>
      unfold setDependencies
      exact Or.inl ⟨_, exec_bind_error (exec_read_missing hs) _⟩
  | some s =>
      rw [exec_setDependencies hs]
      cases hd : s.dependencies with
      | some given => exact Or.inl ⟨_, rfl⟩
      | none => exact Or.inr ⟨s, rfl, hd, rfl⟩

/-- Giving dependencies to a symbol that is not bound makes nobody late. -/
theorem ages_setDependencies {a : Atlas} {r : SymbolRef} {deps : List (Option SymbolRef)}
    (hearly : ∀ b, exec (setDependencies r deps) a = (.ok (), b) → ¬ a.Bound r) :
    Ages [] a (after (setDependencies r deps) a) := by
  unfold after
  rcases setDependencies_cases a r deps with ⟨e, h⟩ | ⟨s, hs, hnone, h⟩
  · rw [h]
    exact .refl a
  · have hunbound := hearly _ h
    rw [h]
    refine .modifySymbol fun t ht => ?_
    obtain rfl := Option.some.inj (hs.symm.trans ht)
    refine ⟨⟨fun hb => hb, fun hd => ?_, fun hc => hc⟩, fun hb => ?_⟩
    · rw [hnone] at hd
      cases hd
    · exact absurd ⟨s, hs, hb⟩ hunbound

/-- **Giving dependencies to a bound symbol makes it late**, and nobody else. -/
theorem ages_setDependencies_late {a b : Atlas} {r : SymbolRef} {deps : List (Option SymbolRef)}
    (hok : exec (setDependencies r deps) a = (.ok (), b)) : Ages [r] a b := by
  rcases setDependencies_cases a r deps with ⟨e, h⟩ | ⟨s, hs, hnone, h⟩
  · rw [h] at hok
    cases congrArg Prod.fst hok
  · rw [h] at hok
    obtain rfl := congrArg Prod.snd hok
    refine ⟨?_, List.nodup_singleton r, ?_, ?_⟩
    · intro q t ht
      -- only the symbol itself changes, and it had no dependencies before
      by_cases hq : q = r
      · subst hq
        obtain rfl := Option.some.inj (hs.symm.trans ht)
        refine ⟨_, symbol?_modifySymbol_self hs _, ⟨fun hb => hb, fun hd => ?_, fun hc => hc⟩, ?_⟩
        · rw [hnone] at hd
          cases hd
        · exact fun _ hq => absurd List.mem_cons_self hq
      · exact ⟨t, by rw [symbol?_modifySymbol_ne a hq, ht], .refl t, fun _ _ => rfl⟩
    · intro q t hq ht
      obtain rfl := List.mem_singleton.mp hq
      rw [← Option.some.inj (hs.symm.trans ht)]
      exact hnone
    · intro q hq
      obtain rfl := List.mem_singleton.mp hq
      exact ⟨_, symbol?_modifySymbol_self hs _, rfl⟩

/-- Binding a symbol changes what the step changes, and then the mark. -/
theorem ages_bind {a : Atlas} {r : SymbolRef} {s : Symbol} (hs : a.symbol? r = some s)
    (hb : s.bound = false) {step : AtlasM Unit} {late : List SymbolRef}
    (h : Ages late a (after step a)) : Ages late a (after (AtlasM.bind r step) a) := by
  unfold after at h ⊢
  rw [exec_bind_unbound hs hb]
  exact exec_bind_invariant (Ages late a) h fun _ b _ hb => hb.then_quiet (Gentle.markBound r b)

/-- Binding does nothing to a symbol that is bound. -/
theorem ages_bind_bound {a : Atlas} {r : SymbolRef}
    (hr : ∀ s, a.symbol? r = some s → s.bound = true) (step : AtlasM Unit) :
    Ages [] a (after (AtlasM.bind r step) a) := by
  unfold after
  cases hs : a.symbol? r with
  | none =>
      unfold AtlasM.bind
      rw [exec_bind_error (exec_read_missing hs)]
      exact .refl a
  | some s =>
      rw [exec_bind_bound ⟨s, hs, hr s hs⟩]
      exact .refl a

end AtlasM

/-! ## Free runs -/

open AtlasM

/-- **Any operations in any order**, from one atlas to another. Every operation may be called on
every symbol at every time, and may fail; the step that binds a symbol is any program that is itself
such a run. The symbols in the middle are those whose dependencies were set when they were bound, in
the order in which this happened. -/
inductive FreeRun : Atlas → List SymbolRef → Atlas → Prop
  | refl (a : Atlas) : FreeRun a [] a
  | declare {a late b} (h : FreeRun a late b) (table : Nat) (o : Outline) (i : Nat) :
      FreeRun a late (after (AtlasM.declare table o i) b)
  | setAttributes {a late b} (h : FreeRun a late b) (r : SymbolRef) (attrs : List Attribute) :
      FreeRun a late (after (AtlasM.setAttributes r attrs) b)
  | setDependencies {a late b} (h : FreeRun a late b) (r : SymbolRef)
      (deps : List (Option SymbolRef))
      (hearly : ∀ c, exec (AtlasM.setDependencies r deps) b = (.ok (), c) → ¬ b.Bound r) :
      FreeRun a late (after (AtlasM.setDependencies r deps) b)
  | setDependenciesLate {a late b} (h : FreeRun a late b) (r : SymbolRef)
      (deps : List (Option SymbolRef)) {c : Atlas}
      (hok : exec (AtlasM.setDependencies r deps) b = (.ok (), c)) (hr : b.Bound r) :
      FreeRun a (late ++ [r]) c
  | setTemplate {a late b} (h : FreeRun a late b) (r template : Option SymbolRef) :
      FreeRun a late (after (AtlasM.setTemplate r template) b)
  | addImplementation {a late b} (h : FreeRun a late b) (r : SymbolRef)
      (implementation : Option SymbolRef) :
      FreeRun a late (after (AtlasM.addImplementation r implementation) b)
  | setOverridden {a late b} (h : FreeRun a late b) (r base : Option SymbolRef) :
      FreeRun a late (after (AtlasM.setOverridden r base) b)
  | markBound {a late b} (h : FreeRun a late b) (r : SymbolRef) :
      FreeRun a late (after (AtlasM.markBound r) b)
  | bind {a late b} (h : FreeRun a late b) {r : SymbolRef} {s : Symbol}
      (hs : b.symbol? r = some s) (hb : s.bound = false) {step : AtlasM Unit}
      {late' : List SymbolRef} (hstep : FreeRun b late' (after step b)) :
      FreeRun a (late ++ late') (after (AtlasM.bind r step) b)
  | bindBound {a late b} (h : FreeRun a late b) {r : SymbolRef}
      (hr : ∀ s, b.symbol? r = some s → s.bound = true) (step : AtlasM Unit) :
      FreeRun a late (after (AtlasM.bind r step) b)
  | directDependencies {a late b} (h : FreeRun a late b) (r : SymbolRef) :
      FreeRun a late (after (AtlasM.directDependencies r) b)
  | directDependenciesOf {a late b} (h : FreeRun a late b) (r : SymbolRef) (kind : Kind) :
      FreeRun a late (after (AtlasM.directDependenciesOf r kind) b)
  | allDependencies {a late b} (h : FreeRun a late b) (r : SymbolRef) :
      FreeRun a late (after (AtlasM.allDependencies r) b)
  | allDependenciesOf {a late b} (h : FreeRun a late b) (r : SymbolRef) (kind : Kind) :
      FreeRun a late (after (AtlasM.allDependenciesOf r kind) b)
  | required {a late b} (h : FreeRun a late b) (roots : List (Option SymbolRef)) :
      FreeRun a late (after (AtlasM.required roots) b)
  | snapshot {a late b} (h : FreeRun a late b) (manifest : String) (hash : List UInt8) (table : Nat)
      (timer : Timer) : FreeRun a late (after (Cache.Payload.snapshot manifest hash table timer) b)

/-- **Along a free run symbols age.** -/
theorem FreeRun.ages {a b : Atlas} {late : List SymbolRef} (h : FreeRun a late b) :
    a.Ages late b := by
  induction h with
  | refl a => exact .refl a
  | declare h table o i ih => exact ih.then_quiet (Gentle.declare table o i _)
  | setAttributes h r attrs ih => exact ih.then_quiet (Gentle.setAttributes r attrs _)
  | setDependencies h r deps hearly ih => exact ih.then_quiet (ages_setDependencies hearly)
  | setDependenciesLate h r deps hok hr ih => exact ih.trans (ages_setDependencies_late hok)
  | setTemplate h r template ih => exact ih.then_quiet (Gentle.setTemplate r template _)
  | addImplementation h r i ih => exact ih.then_quiet (Gentle.addImplementation r i _)
  | setOverridden h r base ih => exact ih.then_quiet (Gentle.setOverridden r base _)
  | markBound h r ih => exact ih.then_quiet (Gentle.markBound r _)
  | bind h hs hb hstep ih ihstep => exact ih.trans (ages_bind hs hb ihstep)
  | bindBound h hr step ih => exact ih.then_quiet (ages_bind_bound hr step)
  | directDependencies h r ih => exact ih.then_quiet (Gentle.directDependencies r _)
  | directDependenciesOf h r kind ih => exact ih.then_quiet (Gentle.directDependenciesOf r kind _)
  | allDependencies h r ih => exact ih.then_quiet (Gentle.allDependencies r _)
  | allDependenciesOf h r kind ih => exact ih.then_quiet (Gentle.allDependenciesOf r kind _)
  | required h roots ih => exact ih.then_quiet (Gentle.required roots _)
  | snapshot h manifest hash table timer ih =>
      exact ih.then_quiet (Gentle.snapshot manifest hash table timer _)

/-! ## What is final -/

theorem AtlasM.exec_directDependencies {a : Atlas} {r : SymbolRef} {s : Symbol}
    (hs : a.symbol? r = some s) (hb : s.bound = true) :
    exec (directDependencies r) a = (.ok s.direct, a) := by
  unfold directDependencies
  rw [exec_bind_ok (exec_read hs)]
  simp [hb]

/-- A bound symbol that is not late has the same dependencies before and after. -/
theorem Atlas.Ages.dependsOn_iff {a b : Atlas} {late : List SymbolRef} (h : a.Ages late b)
    {x : SymbolRef} (hx : a.Bound x) (hlate : x ∉ late) (y : SymbolRef) :
    b.DependsOn x y ↔ a.DependsOn x y := by
  obtain ⟨s, hs, hb⟩ := hx
  obtain ⟨s', hs', -, hdeps⟩ := h.symbol hs
  simp only [DependsOn, hs, hs', Option.some.injEq, exists_eq_left', Symbol.direct, hdeps hb hlate]

theorem Atlas.Ages.isClosure {a b : Atlas} {late : List SymbolRef} (h : a.Ages late b)
    {r : SymbolRef} (hr : a.Bound r) {c : List SymbolRef} (hc : a.IsClosure r c)
    (hlate : ∀ q ∈ r :: c, q ∉ late) : b.IsClosure r c := by
  refine hc.transfer ?_ ?_
  · intro x hx y
    have hbound : a.Bound x := by
      rcases List.mem_cons.mp hx with rfl | hx
      · exact hr
      · exact hc.bound x hx
    exact h.dependsOn_iff hbound (hlate x hx) y
  · intro q hq
    obtain ⟨s, hs, hb⟩ := hc.bound q hq
    obtain ⟨s', hs', hages, -⟩ := h.symbol hs
    exact ⟨s', hs', hages.bound hb⟩

/-- **How far the direct dependencies of a bound symbol are final.** Whatever the operations, a
bound symbol is given dependencies at most once, and only if it has none yet. So its direct
dependencies never change once they are set, and until then they are empty and change at most once.
A closure that is kept is the answer for ever. One that is exact stays so unless the symbol itself
or one in the closure is given its dependencies late. -/
theorem directDependencies_final {a b : Atlas} {late : List SymbolRef} (h : FreeRun a late b)
    {r : SymbolRef} (hr : a.Bound r) :
    late.Nodup ∧ (∀ q s, q ∈ late → a.symbol? q = some s → s.dependencies = none) ∧
    ∃ deps deps', exec (directDependencies r) a = (.ok deps, a) ∧
      exec (directDependencies r) b = (.ok deps', b) ∧
      (r ∉ late → deps' = deps) ∧ (r ∈ late → deps = []) ∧
      (∀ c, a.kept? r = some c → exec (allDependencies r) b = (.ok c, b)) ∧
      (∀ c, a.IsClosure r c → (∀ q ∈ r :: c, q ∉ late) → b.IsClosure r c) := by
  have hages := h.ages
  obtain ⟨s, hs, hb⟩ := id hr
  obtain ⟨s', hs', hkeeps, hdeps⟩ := hages.symbol hs
  refine ⟨hages.once, fun q t hq ht => hages.unset hq ht, s.direct, s'.direct,
    exec_directDependencies hs hb, exec_directDependencies hs' (hkeeps.bound hb), ?_, ?_, ?_,
    fun c hc hlate => hages.isClosure hr hc hlate⟩
  · intro hlate
    unfold Symbol.direct
    rw [hdeps hb hlate]
  · intro hlate
    unfold Symbol.direct
    rw [hages.unset hlate hs]
    rfl
  · intro c hc
    rw [Atlas.kept?_eq hs] at hc
    exact exec_allDependencies_kept hs' (hkeeps.closure hc)

/-- Two types that were marked bound before anything was said about their dependencies, and the
closure of the first. -/
def earlyTypes : Atlas :=
  [after (AtlasM.declare 0 twoTypes 0), after (AtlasM.declare 0 twoTypes 1),
    after (markBound ⟨0, 1⟩), after (markBound ⟨0, 2⟩),
    after (allDependencies ⟨0, 1⟩)].foldl (fun a f => f a) (.blank [4])

/-- The types after the first was given the second as its dependency. -/
def lateTypes : Atlas :=
  after (setDependencies ⟨0, 1⟩ [some ⟨0, 2⟩]) earlyTypes

theorem directDependencies_final_lateTypes :
    FreeRun earlyTypes [⟨0, 1⟩] lateTypes ∧ earlyTypes.Bound ⟨0, 2⟩ ∧
      ∃ deps, exec (directDependencies ⟨0, 2⟩) earlyTypes = (.ok deps, earlyTypes) ∧
        exec (directDependencies ⟨0, 2⟩) lateTypes = (.ok deps, lateTypes) := by
  have hrun : FreeRun earlyTypes [⟨0, 1⟩] lateTypes :=
    .setDependenciesLate (.refl earlyTypes) ⟨0, 1⟩ [some ⟨0, 2⟩] rfl (by decide)
  have hbound : earlyTypes.Bound ⟨0, 2⟩ := by decide
  obtain ⟨-, -, deps, deps', hbefore, hafter, hsame, -⟩ := directDependencies_final hrun hbound
  rw [hsame (by decide)] at hafter
  exact ⟨hrun, hbound, deps, hbefore, hafter⟩

/-- The first type is bound, but its direct dependencies change, and the closure that is kept is no
longer that of the graph. -/
theorem directDependencies_change_lateTypes :
    earlyTypes.Bound ⟨0, 1⟩ ∧
    exec (directDependencies ⟨0, 1⟩) earlyTypes = (.ok [], earlyTypes) ∧
    exec (setDependencies ⟨0, 1⟩ [some ⟨0, 2⟩]) earlyTypes = (.ok (), lateTypes) ∧
    exec (directDependencies ⟨0, 1⟩) lateTypes = (.ok [some ⟨0, 2⟩], lateTypes) ∧
    exec (allDependencies ⟨0, 1⟩) lateTypes = (.ok [], lateTypes) ∧
    lateTypes.Reaches ⟨0, 1⟩ ⟨0, 2⟩ := by
  refine ⟨by decide, rfl, rfl, rfl, rfl, .single ?_⟩
  exact ⟨_, rfl, by decide⟩

end SymbolAtlas
