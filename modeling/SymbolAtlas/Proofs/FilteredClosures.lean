import SymbolAtlas.Proofs.WrittenOnce

set_option autoImplicit false

/-! # The cache of narrowed closures does not show

A table keeps the latest closures that were narrowed to a kind. An answer from there is given
without a look at the symbol, so it has to be the one that would be computed. `Faithful` says so of
all that the tables keep: an entry narrows a closure that its symbol keeps, and this closure never
changes again. Apart from narrowing, no operation reads or writes what the tables keep (`Plain`). So
a program has the same outcome, and leaves the same symbols and counts, whatever was kept before
(`Transparent`), and in particular under whatever policy the tables keep answers
(`filters_transparent`). -/

namespace SymbolAtlas

/-! ## Other filters -/

/-- What a table keeps of narrowed closures, and how often it found one. -/
abbrev Filter : Type :=
  FilterCache (Nat × Kind) (List SymbolRef) × Nat

/-- The table with another filter. -/
def Table.withFilter (t : Table) (f : Filter) : Table :=
  { t with filtered := f.1, filterHits := f.2 }

/-- Declaring neither reads nor writes the filter. -/
theorem Table.declareFrom_withFilter (table : Nat) (o : Outline) (f : Filter) (fuel : Nat) :
    ∀ (i : Nat) (chain : List String) (t : Table),
      declareFrom table o fuel i chain (t.withFilter f)
        = ((declareFrom table o fuel i chain t).1,
            (declareFrom table o fuel i chain t).2.withFilter f) := by
  induction fuel with
  | zero => intro i chain t; rfl
  | succ fuel ih =>
      intro i chain t
      rw [declareFrom, declareFrom]
      cases o.get? i with
      | none => rfl
      | some d =>
          by_cases hkey : d.key = ""
          · simp only [if_pos hkey]
          · simp only [if_neg hkey]
            -- the key is interned, and symbols are looked up, beside the filter
            have hintern : (t.withFilter f).intern d.key
                = ((t.intern d.key).1, (t.intern d.key).2.withFilter f) := rfl
            rw [hintern]
            rcases t.intern d.key with ⟨number, interned⟩
            have hregistry : (interned.withFilter f).registry = interned.registry := rfl
            dsimp only
            rw [hregistry]
            cases interned.registry.lookup number with
            | some id => rfl
            | none =>
                by_cases hchain : chain.contains d.key = true
                · simp only [if_pos hchain]
                · simp only [if_neg hchain]
                  cases (o.owner? i).bind fun j => (o.get? j).map (j, ·) with
                  | none => rfl
                  | some place =>
                      by_cases howner : place.2.kind ≠ .type
                      · simp only [if_pos howner]
                      · simp only [if_neg howner, ih]
                        rcases declareFrom table o fuel place.1 (chain ++ [d.key]) interned with
                          ⟨_ | _, _⟩ <;> rfl

namespace Atlas

def withFilters (a : Atlas) (fs : Nat → Filter) : Atlas :=
  ⟨a.tables.mapIdx fun i t => t.withFilter (fs i)⟩

section WithFilters

variable (a : Atlas) (fs : Nat → Filter)

theorem tables_withFilters (i : Nat) :
    (a.withFilters fs).tables[i]? = a.tables[i]?.map (·.withFilter (fs i)) := by
  simp [withFilters]

theorem ext_tables {a b : Atlas} (h : ∀ i : Nat, a.tables[i]? = b.tables[i]?) : a = b := by
  cases a
  cases b
  congr 1
  exact Array.ext_getElem? h

theorem withFilters_withFilters (gs : Nat → Filter) :
    (a.withFilters fs).withFilters gs = a.withFilters gs := by
  refine ext_tables fun i => ?_
  simp only [tables_withFilters, Option.map_map]
  rfl

theorem sameSymbols_withFilters : a.SameSymbols (a.withFilters fs) := by
  intro q
  unfold symbol?
  rw [tables_withFilters]
  cases a.tables[q.table]? <;> rfl

@[simp] theorem symbol?_withFilters (q : SymbolRef) : (a.withFilters fs).symbol? q = a.symbol? q :=
  a.sameSymbols_withFilters fs q

@[simp] theorem narrow_withFilters (kind : Kind) (refs : List SymbolRef) :
    (a.withFilters fs).narrow kind refs = a.narrow kind refs := by
  simp only [narrow, symbol?_withFilters]

theorem modifyTable_withFilters (table : Nat) {f : Table → Table}
    (hf : ∀ (t : Table) (x : Filter), f (t.withFilter x) = (f t).withFilter x) :
    (a.withFilters fs).modifyTable table f = (a.modifyTable table f).withFilters fs := by
  refine ext_tables fun i => ?_
  simp only [tables_withFilters, tables_modifyTable]
  split
  · cases a.tables[i]? <;> simp [hf]
  · rfl

theorem modifySymbol_withFilters (r : SymbolRef) (f : Symbol → Symbol) :
    (a.withFilters fs).modifySymbol r f = (a.modifySymbol r f).withFilters fs := by
  unfold modifySymbol
  split
  · rfl
  · exact a.modifyTable_withFilters fs r.table fun _ _ => rfl

theorem modifyTable_filter (table : Nat) {f : Table → Table} {g : Filter → Filter}
    (hf : ∀ (t : Table) (x : Filter), f (t.withFilter x) = t.withFilter (g x)) :
    (a.withFilters fs).modifyTable table f
      = a.withFilters (Function.update fs table (g (fs table))) := by
  refine ext_tables fun i => ?_
  simp only [tables_withFilters, tables_modifyTable]
  by_cases hi : i = table
  · subst hi
    cases a.tables[i]? <;> simp [hf]
  · simp [hi]

theorem closureOf_withFilters (r : SymbolRef) (direct : List (Option SymbolRef)) :
    (a.withFilters fs).closureOf r direct = a.closureOf r direct := by
  have hsize : (a.withFilters fs).size = a.size := by
    unfold size
    congr 1
    apply List.ext_getElem?
    intro i
    rw [List.getElem?_map, List.getElem?_map, Array.getElem?_toList, Array.getElem?_toList,
      tables_withFilters]
    cases a.tables[i]? <;> rfl
  unfold closureOf
  rw [hsize, (a.sameSymbols_withFilters fs).gather_eq]

end WithFilters

end Atlas

/-! ## Operations that leave filters alone -/

namespace AtlasM

open Atlas

variable {α β : Type}

def Plain (x : AtlasM α) : Prop :=
  ∀ a fs, exec x (a.withFilters fs) = ((exec x a).1, (after x a).withFilters fs)

namespace Plain

theorem pure (v : α) : Plain (Pure.pure v : AtlasM α) :=
  fun _ _ => rfl

theorem throw (e : SymbolError) : Plain (MonadExcept.throw e : AtlasM α) :=
  fun _ _ => rfl

theorem bind {x : AtlasM α} {f : α → AtlasM β} (hx : Plain x) (hf : ∀ v, Plain (f v)) :
    Plain (x >>= f) := by
  intro a fs
  unfold after
  rw [exec_bind, hx a fs, exec_bind]
  unfold after
  rcases exec x a with ⟨e | v, b⟩
  · rfl
  · exact hf v b fs

theorem get {f : Atlas → AtlasM α} (hf : ∀ a, Plain (f a))
    (hsame : ∀ a fs, f (a.withFilters fs) = f a) : Plain (MonadState.get >>= f) := by
  intro a fs
  unfold after
  rw [exec_bind_ok (exec_get _), exec_bind_ok (exec_get _), hsame]
  exact hf a a fs

theorem ite {p : Prop} [Decidable p] {x y : AtlasM α} (hx : Plain x) (hy : Plain y) :
    Plain (if p then x else y) := by
  split
  · exact hx
  · exact hy

theorem violate (v : Violation) (r : Option SymbolRef) : Plain (AtlasM.violate v r : AtlasM α) := by
  refine get (fun a => throw _) fun a fs => ?_
  rw [(a.sameSymbols_withFilters fs).text_eq]

theorem read (r : SymbolRef) : Plain (AtlasM.read r) := by
  refine get (fun a => ?_) fun a fs => ?_
  · cases a.symbol? r with
    | none => exact throw _
    | some s => exact pure s
  · rw [symbol?_withFilters]

theorem receiver (r : Option SymbolRef) : Plain (AtlasM.receiver r) := by
  cases r with
  | none => exact throw _
  | some r => exact pure r

theorem update (r : SymbolRef) (f : Symbol → Symbol) : Plain (AtlasM.update r f) := by
  intro a fs
  rw [exec_update, modifySymbol_withFilters]
  rfl

theorem fill (r : SymbolRef) (k : Binding.Slot) (v : Violation) (f : Symbol → Symbol) :
    Plain (AtlasM.fill r k v f) :=
  (read r).bind fun _ => ite ((violate _ _).bind fun _ => update r f) (update r f)

theorem declare (table : Nat) (o : Outline) (i : Nat) : Plain (AtlasM.declare table o i) := by
  intro a fs
  have htables := a.tables_withFilters fs table
  unfold after
  cases ht : a.tables[table]? with
  | none =>
      rw [ht] at htables
      rw [exec_declare_missing htables, exec_declare_missing ht]
      simp [withFilters]
  | some t =>
      rw [ht] at htables
      rw [exec_declare htables, exec_declare ht]
      unfold Table.declare
      rw [Table.declareFrom_withFilter]
      refine Prod.ext rfl (ext_tables fun j => ?_)
      simp only [tables_withFilters, tables_modifyTable]
      split
      · rename_i hj
        subst hj
        rw [ht]
        rfl
      · rfl

theorem setTemplate (r template : Option SymbolRef) : Plain (AtlasM.setTemplate r template) := by
  have hset : Plain (do
      let r' ← AtlasM.receiver r
      if (← AtlasM.read r').template.isSome then AtlasM.violate .templateAlreadySet r
      AtlasM.update r' fun s => { s with template := template }) := by
    refine (receiver r).bind fun r' =>
      (read r').bind fun s => ite ((violate _ _).bind fun _ => ?_) ?_
    all_goals exact update r' _
  exact ite ((violate _ _).bind fun _ => hset) hset

theorem addImplementation (r : SymbolRef) (implementation : Option SymbolRef) :
    Plain (AtlasM.addImplementation r implementation) := by
  cases implementation with
  | none => exact pure _
  | some i => exact ite (pure _) ((read r).bind fun s => ite (pure _) (update r _))

theorem setOverridden (r base : Option SymbolRef) : Plain (AtlasM.setOverridden r base) := by
  cases base with
  | none => exact violate _ _
  | some b =>
      have hset : Plain (do
          let r' ← AtlasM.receiver r
          if (← AtlasM.read r').overridden.isSome then AtlasM.violate .overriddenAlreadySet r
          AtlasM.update r' fun s => { s with overridden := some b }
          AtlasM.addImplementation b (some r')) := by
        refine (receiver r).bind fun r' => (read r').bind fun s =>
          ite ((violate _ _).bind fun _ => ?_) ?_
        all_goals exact (update r' _).bind fun _ => addImplementation b (some r')
      exact ite ((violate _ _).bind fun _ => hset) hset

theorem markBound (r : SymbolRef) : Plain (AtlasM.markBound r) :=
  (read r).bind fun _ => update r _

theorem allDependencies (r : SymbolRef) : Plain (AtlasM.allDependencies r) := by
  refine (read r).bind fun s => ?_
  cases s.closure with
  | some c => exact pure c
  | none =>
      have hcount : Plain (modify fun a => a.modifyTable r.table fun t =>
          { t with closures := t.closures + 1 } : AtlasM PUnit) := by
        intro a fs
        refine Prod.ext rfl ?_
        exact a.modifyTable_withFilters fs r.table fun _ _ => rfl
      refine hcount.bind fun _ => get (fun a => ?_) fun a fs => ?_
      · cases a.closureOf r s.direct with
        | error u => exact violate _ _
        | ok c => exact (update r _).bind fun _ => pure c
      · rw [closureOf_withFilters]

end Plain

/-- What is answered is well-formed, and it is kept. -/
theorem allDependencies_answer {a b : Atlas} {r : SymbolRef} {all : List SymbolRef}
    (ha : a.TidyClosures) (h : exec (allDependencies r) a = (.ok all, b)) :
    a.Tidy r all ∧ b.kept? r = some all := by
  cases hs : a.symbol? r with
  | none =>
      unfold allDependencies at h
      rw [exec_bind_error (exec_read_missing hs)] at h
      cases congrArg Prod.fst h
  | some s =>
      cases hc : s.closure with
      | some c =>
          rw [exec_allDependencies_kept hs hc] at h
          obtain rfl : c = all := Except.ok.inj (congrArg Prod.fst h)
          obtain rfl : a = b := congrArg Prod.snd h
          exact ⟨ha r s c hs hc, (kept?_eq hs).trans hc⟩
      | none =>
          rw [exec_allDependencies_new hs hc] at h
          cases hsearch : a.closureOf r s.direct with
          | error u =>
              rw [hsearch] at h
              cases congrArg Prod.fst h
          | ok c =>
              rw [hsearch] at h
              obtain rfl : c = all := Except.ok.inj (congrArg Prod.fst h)
              obtain rfl : a.publish r c = b := congrArg Prod.snd h
              -- the answer is what the search has found, and it is what is kept
              refine ⟨.closureOf ha hsearch, kept?_keep_self ?_ c⟩
              rw [a.sameSymbols_countClosure r.table r, hs]
              rfl

end AtlasM

/-! ## Filters that tell the truth -/

namespace Atlas

open AtlasM

/-- **All that the filters keep is what would be computed**: an entry narrows the closure that its
symbol keeps. -/
structure Faithful (a : Atlas) (fs : Nat → Filter) : Prop where
  tidy : a.TidyClosures
  entry : ∀ {r kind answer}, (fs r.table).1.get? (r.id, kind) = some answer →
    ∃ c, a.kept? r = some c ∧ answer = a.narrow kind c

theorem narrow_retain {a b : Atlas} (hab : a.Retains b) {root : SymbolRef} {c : List SymbolRef}
    (hc : a.Tidy root c) (kind : Kind) : b.narrow kind c = a.narrow kind c := by
  refine List.filter_congr fun q hq => ?_
  obtain ⟨s, hs, -⟩ := hc.bound q hq
  obtain ⟨s', hs', hkeep⟩ := hab q s hs
  have hkind : s'.kind = s.kind := congrArg (fun sk => sk.1.kind) hkeep.skeleton
  simp [hs, hs', hkind]

namespace Faithful

variable {a b : Atlas} {fs : Nat → Filter}

/-- Entries stay true, because closures that are kept stay and kinds never change. -/
theorem changes (h : a.Faithful fs) {named : List SymbolRef} (hab : Changes named a b) :
    b.Faithful fs where
  tidy := h.tidy.changes hab
  entry := by
    intro r kind answer hentry
    obtain ⟨c, hc, rfl⟩ := h.entry hentry
    obtain ⟨s, hs, hclosure⟩ := Option.bind_eq_some_iff.mp hc
    obtain ⟨s', hs', hkeep⟩ := Changes.retains hab r s hs
    refine ⟨c, (kept?_eq hs').trans (hkeep.closure hclosure), ?_⟩
    exact (narrow_retain (Changes.retains hab) (h.tidy r s c hs hclosure) kind).symm

theorem insert (h : a.Faithful fs) {r : SymbolRef} {c : List SymbolRef} (hc : a.kept? r = some c)
    (kind : Kind) (hits : Nat) :
    a.Faithful (Function.update fs r.table
      ((fs r.table).1.insert (r.id, kind) (a.narrow kind c), hits)) where
  tidy := h.tidy
  entry := by
    intro q k answer hentry
    by_cases hq : q.table = r.table
    · rw [hq, Function.update_self] at hentry
      rcases CachePolicy.answer_add _ hentry with ⟨hkey, rfl⟩ | hold
      · obtain ⟨hid, rfl⟩ := Prod.mk.inj hkey
        obtain rfl : q = r := by
          cases q
          cases r
          cases hq
          cases hid
          rfl
        exact ⟨c, hc, rfl⟩
      · rw [← hq] at hold
        exact h.entry hold
    · rw [Function.update_of_ne hq] at hentry
      exact h.entry hentry

/-- Using an entry again leaves the answers true. -/
theorem touch (h : a.Faithful fs) (r : SymbolRef) (kind : Kind) (hits : Nat) :
    a.Faithful (Function.update fs r.table ((fs r.table).1.touch (r.id, kind), hits)) where
  tidy := h.tidy
  entry := by
    intro q k answer hentry
    by_cases hq : q.table = r.table
    · rw [hq, Function.update_self] at hentry
      have hold := CachePolicy.answer_use _ hentry
      exact h.entry (r := q) (hq ▸ hold)
    · rw [Function.update_of_ne hq] at hentry
      exact h.entry hentry

/-- **A closure narrowed to a kind** is answered as from the closure, and leaves the symbols and
counts as the question for the closure does, whatever the filters keep. -/
theorem allDependenciesOf (h : a.Faithful fs) (r : SymbolRef) (kind : Kind) :
    ∃ fs', exec (AtlasM.allDependenciesOf r kind) (a.withFilters fs)
        = ((exec (AtlasM.allDependencies r) a).1.map (a.narrow kind),
            (after (AtlasM.allDependencies r) a).withFilters fs') ∧
      (after (AtlasM.allDependencies r) a).Faithful fs' := by
  have hacts : Acts [] (AtlasM.allDependencies r) a := .allDependencies r
  have htables := a.tables_withFilters fs r.table
  cases hcached : (a.withFilters fs).tables[r.table]?.bind (·.filtered.get? (r.id, kind)) with
  | some answer =>
      have hentry : (fs r.table).1.get? (r.id, kind) = some answer := by
        rw [htables] at hcached
        cases ht : a.tables[r.table]? with
        | none => rw [ht] at hcached; cases hcached
        | some t => rw [ht] at hcached; exact hcached
      -- the closure was kept when the entry was made, so asking for it changes nothing
      obtain ⟨c, hc, rfl⟩ := h.entry hentry
      obtain ⟨s, hs, hclosure⟩ := Option.bind_eq_some_iff.mp hc
      rw [exec_allDependenciesOf_kept hcached]
      unfold after
      rw [exec_allDependencies_kept hs hclosure]
      refine ⟨_, Prod.ext rfl ?_, h.touch r kind ((fs r.table).2 + 1)⟩
      exact a.modifyTable_filter fs r.table
        (g := fun f => (f.1.touch (r.id, kind), f.2 + 1)) fun _ _ => rfl
  | none =>
      have hafter := h.changes hacts.changes
      rw [exec_allDependenciesOf_new hcached, Plain.allDependencies r a fs]
      unfold after at hafter ⊢
      rcases hall : exec (AtlasM.allDependencies r) a with ⟨e | all, b⟩
      · rw [hall] at hafter
        exact ⟨fs, rfl, hafter⟩
      · obtain ⟨htidy, hkept⟩ := allDependencies_answer h.tidy hall
        have hab : a.Retains b := by
          have hretains := Changes.retains hacts.changes
          unfold after at hretains
          rwa [hall] at hretains
        rw [hall] at hafter
        have hnarrow := narrow_retain hab htidy kind
        have hexist : ∀ q ∈ all, ((b.withFilters fs).symbol? q).isSome := by
          intro q hq
          obtain ⟨s, hs, -⟩ := hab.bound (htidy.bound q hq)
          simp [hs]
        dsimp only
        rw [if_pos hexist, narrow_withFilters, hnarrow]
        refine ⟨_, Prod.ext rfl ?_, hnarrow ▸ hafter.insert hkept kind (fs r.table).2⟩
        rw [← hnarrow]
        exact b.modifyTable_filter fs r.table
          (g := fun f => (f.1.insert (r.id, kind) (b.narrow kind all), f.2)) fun _ _ => rfl

end Faithful

end Atlas

/-! ## Programs that cannot tell filters apart -/

namespace AtlasM

open Atlas

variable {α β : Type}

/-- **The outcome of the program, and the symbols and counts that it leaves, do not depend on the
filters**, as long as these tell the truth; and they still do afterwards. -/
def Transparent (x : AtlasM α) : Prop :=
  ∀ a : Atlas, ∃ (v : Except SymbolError α) (b : Atlas), ∀ fs, a.Faithful fs →
    ∃ fs', exec x (a.withFilters fs) = (v, b.withFilters fs') ∧ b.Faithful fs'

namespace Transparent

theorem of_plain {x : AtlasM α} {named : List SymbolRef} (hx : Plain x)
    (hacts : ∀ a, Acts named x a) :
    Transparent x := by
  intro a
  refine ⟨(exec x a).1, after x a, fun fs hfs => ⟨fs, hx a fs, ?_⟩⟩
  exact hfs.changes (hacts a).changes

theorem of_unchanged {x : AtlasM α} {v : Atlas → Except SymbolError α}
    (hx : ∀ a, exec x a = (v a, a)) (hv : ∀ a fs, v (a.withFilters fs) = v a) : Transparent x := by
  intro a
  refine ⟨v a, a, fun fs hfs => ⟨fs, ?_, hfs⟩⟩
  rw [hx, hv]

theorem bind {x : AtlasM α} {f : α → AtlasM β} (hx : Transparent x) (hf : ∀ v, Transparent (f v)) :
    Transparent (x >>= f) := by
  intro a
  obtain ⟨v, b, hb⟩ := hx a
  cases v with
  | error e =>
      refine ⟨.error e, b, fun fs hfs => ?_⟩
      obtain ⟨fs', hrun, hfs'⟩ := hb fs hfs
      exact ⟨fs', exec_bind_error hrun f, hfs'⟩
  | ok v =>
      obtain ⟨w, c, hc⟩ := hf v b
      refine ⟨w, c, fun fs hfs => ?_⟩
      obtain ⟨fs', hrun, hfs'⟩ := hb fs hfs
      obtain ⟨fs'', hrun', hfs''⟩ := hc fs' hfs'
      exact ⟨fs'', (exec_bind_ok hrun f).trans hrun', hfs''⟩

theorem tryCatch {x : AtlasM α} {f : SymbolError → AtlasM α} (hx : Transparent x)
    (hf : ∀ e, Transparent (f e)) : Transparent (MonadExcept.tryCatch x f) := by
  intro a
  obtain ⟨v, b, hb⟩ := hx a
  cases v with
  | error e =>
      obtain ⟨w, c, hc⟩ := hf e b
      refine ⟨w, c, fun fs hfs => ?_⟩
      obtain ⟨fs', hrun, hfs'⟩ := hb fs hfs
      obtain ⟨fs'', hrun', hfs''⟩ := hc fs' hfs'
      refine ⟨fs'', ?_, hfs''⟩
      rw [exec_tryCatch, hrun]
      exact hrun'
  | ok v =>
      refine ⟨.ok v, b, fun fs hfs => ?_⟩
      obtain ⟨fs', hrun, hfs'⟩ := hb fs hfs
      refine ⟨fs', ?_, hfs'⟩
      rw [exec_tryCatch, hrun]

theorem allDependenciesOf (r : SymbolRef) (kind : Kind) :
    Transparent (AtlasM.allDependenciesOf r kind) :=
  fun _ => ⟨_, _, fun _ hfs => hfs.allDependenciesOf r kind⟩

theorem declare (table : Nat) (o : Outline) (i : Nat) : Transparent (AtlasM.declare table o i) :=
  of_plain (.declare table o i) fun a => (.declare table o i : Acts [] _ a)

theorem allDependencies (r : SymbolRef) : Transparent (AtlasM.allDependencies r) :=
  of_plain (.allDependencies r) fun a => (.allDependencies r : Acts [] _ a)

theorem markBound (r : SymbolRef) : Transparent (AtlasM.markBound r) :=
  of_plain (.markBound r) (Operation.markBound r).acts

theorem bindStep (r : SymbolRef) {step : AtlasM Unit} (hstep : Transparent step) :
    Transparent (AtlasM.bind r step) := by
  have hdone : Transparent (Pure.pure () : AtlasM Unit) :=
    of_unchanged (fun _ => rfl) fun _ _ => rfl
  have hread : Transparent (AtlasM.read r) := by
    refine of_plain (Plain.read r) fun a => (?_ : Acts [] _ a)
    cases hs : a.symbol? r with
    | none => exact .of_unchanged (exec_read_missing hs)
    | some s => exact .of_unchanged (exec_read hs)
  refine hread.bind fun s => ?_
  split
  · exact hdone
  · exact hstep.bind fun _ => markBound r

theorem perform (op : Operation) : Transparent op.perform := by
  cases op with
  | declare table o i =>
      exact (declare table o i).bind fun _ => of_unchanged (fun _ => rfl) fun _ _ => rfl
  | setAttributes r attrs =>
      exact of_plain (Plain.fill r .attributes _ _) (Operation.setAttributes r attrs).acts
  | setDependencies r deps =>
      exact of_plain (Plain.fill r .dependencies _ _) (Operation.setDependencies r deps).acts
  | setTemplate r template =>
      exact of_plain (.setTemplate r template) (Operation.setTemplate r template).acts
  | setOverridden r base =>
      exact of_plain (.setOverridden r base) (Operation.setOverridden r base).acts
  | addImplementation r i =>
      exact of_plain (.addImplementation r i) (Operation.addImplementation r i).acts
  | markBound r => exact markBound r
  | allDependencies r =>
      exact (allDependencies r).bind fun _ => of_unchanged (fun _ => rfl) fun _ _ => rfl
  | allDependenciesOf r kind =>
      exact (allDependenciesOf r kind).bind fun _ => of_unchanged (fun _ => rfl) fun _ _ => rfl

end Transparent

end AtlasM

/-! ## Clients -/

open AtlasM

/-- **A program that uses an atlas through its operations.** What it does next may depend on all
that it was answered, and on all it can see of the atlas but the filters; it may fail, and go on
after a failure. The step that binds a symbol is itself such a program. -/
inductive Client : {α : Type} → AtlasM α → Prop
  | pure {α : Type} (v : α) : Client (Pure.pure v)
  | throw {α : Type} (e : SymbolError) : Client (MonadExcept.throw e : AtlasM α)
  | seq {α β : Type} {x : AtlasM α} {f : α → AtlasM β} (hx : Client x) (hf : ∀ v, Client (f v)) :
      Client (x >>= f)
  | tryCatch {α : Type} {x : AtlasM α} {f : SymbolError → AtlasM α} (hx : Client x)
      (hf : ∀ e, Client (f e)) : Client (MonadExcept.tryCatch x f)
  | look {α : Type} (f : Atlas → α) (hf : ∀ a fs, f (a.withFilters fs) = f a) :
      Client (f <$> MonadState.get)
  | operation (op : Operation) : Client op.perform
  | declare (table : Nat) (o : Outline) (i : Nat) : Client (AtlasM.declare table o i)
  | bind (r : SymbolRef) {step : AtlasM Unit} (hstep : Client step) : Client (AtlasM.bind r step)
  | allDependencies (r : SymbolRef) : Client (AtlasM.allDependencies r)
  | allDependenciesOf (r : SymbolRef) (kind : Kind) : Client (AtlasM.allDependenciesOf r kind)

/-- **A client cannot tell filters apart.** -/
theorem Client.transparent {α : Type} {x : AtlasM α} (h : Client x) : Transparent x := by
  induction h with
  | pure v => exact .of_unchanged (fun _ => rfl) fun _ _ => rfl
  | throw e => exact .of_unchanged (fun _ => rfl) fun _ _ => rfl
  | seq _ _ ihx ihf => exact ihx.bind ihf
  | tryCatch _ _ ihx ihf => exact ihx.tryCatch ihf
  | look f hf => exact .of_unchanged (fun _ => rfl) fun a fs => congrArg _ (hf a fs)
  | operation op => exact .perform op
  | declare table o i => exact .declare table o i
  | bind r _ ih => exact .bindStep r ih
  | allDependencies r => exact .allDependencies r
  | allDependenciesOf r kind => exact .allDependenciesOf r kind

namespace Atlas

def filtersUnder (policies : List (CachePolicy (Nat × Kind) (List SymbolRef))) (i : Nat) : Filter :=
  ({ policy := policies.getD i .nothing }, 0)

variable {policies policies' : List (CachePolicy (Nat × Kind) (List SymbolRef))}

theorem blankUnder_withFilters (hlen : policies'.length = policies.length) :
    (blankUnder policies).withFilters (filtersUnder policies') = blankUnder policies' := by
  refine ext_tables fun i => ?_
  rw [tables_withFilters]
  unfold blankUnder
  simp only [List.getElem?_toArray, List.getElem?_map]
  by_cases hi : i < policies.length
  · have hi' : i < policies'.length := by omega
    simp [hi, hi', Table.withFilter, filtersUnder, Table.under]
  · have hi' : ¬ i < policies'.length := by omega
    simp [hi, hi']

theorem faithful_filtersUnder (policies' : List (CachePolicy (Nat × Kind) (List SymbolRef))) :
    (blankUnder policies).Faithful (filtersUnder policies') where
  tidy := by
    intro r s c hs
    simp at hs
  entry := by
    intro r kind answer hentry
    cases hentry

end Atlas

/-- **The cache of narrowed closures does not show.** A client has the same outcome under whatever
policies the tables keep narrowed closures, such as for the latest ones and any capacity, and leaves
atlases that differ in their filters only. Where it ends, a closure narrowed to a kind is asked for
with success exactly if the closure is; the answer is the part of the closure of that kind, in its
order, and the errors are the same. -/
theorem filters_transparent {α : Type} {x : AtlasM α} (hx : Client x)
    {policies policies' : List (CachePolicy (Nat × Kind) (List SymbolRef))}
    (hlen : policies'.length = policies.length) :
    ∃ v a fs, exec x (.blankUnder policies) = (v, a) ∧
      exec x (.blankUnder policies') = (v, a.withFilters fs) ∧
      ∀ r kind, (exec (AtlasM.allDependenciesOf r kind) a).1
        = (exec (AtlasM.allDependencies r) a).1.map (a.narrow kind) := by
  obtain ⟨v, b, hb⟩ := hx.transparent (.blankUnder policies)
  obtain ⟨fs, hrun, hfs⟩ := hb _ (Atlas.faithful_filtersUnder policies)
  obtain ⟨fs', hrun', -⟩ := hb _ (Atlas.faithful_filtersUnder policies')
  rw [Atlas.blankUnder_withFilters rfl] at hrun
  rw [Atlas.blankUnder_withFilters hlen] at hrun'
  refine ⟨v, b.withFilters fs, fs', hrun, ?_, fun r kind => ?_⟩
  · rw [hrun', Atlas.withFilters_withFilters]
  · obtain ⟨_, hof, -⟩ := hfs.allDependenciesOf r kind
    have hnarrow : (b.withFilters fs).narrow kind = b.narrow kind :=
      funext (b.narrow_withFilters fs kind)
    rw [hof, Plain.allDependencies r b fs, hnarrow]

/-- A type, and a method beside it. -/
def typeAndMethod : Outline where
  items := #[⟨⟨"A", "A", .type, {}, none⟩, none⟩, ⟨⟨"f", "f", .method, {}, none⟩, none⟩]

/-- Asks three times for a closure narrowed to a kind, the last time as the first. -/
def narrowing : AtlasM (List (List SymbolRef)) := do
  let t ← AtlasM.declare 0 typeAndMethod 0
  let m ← AtlasM.declare 0 typeAndMethod 1
  AtlasM.bind t (Operation.setDependencies t [some t, none, some m]).perform
  AtlasM.bind m (pure ())
  let first ← AtlasM.allDependenciesOf t .method
  let second ← AtlasM.allDependenciesOf t .type
  let third ← AtlasM.allDependenciesOf t .method
  return [first, second, third]

theorem client_narrowing : Client narrowing := by
  refine .seq (.declare _ _ _) fun t => .seq (.declare _ _ _) fun m =>
    .seq (.bind t (.operation _)) fun _ => .seq (.bind m (.pure _)) fun _ => ?_
  exact .seq (.allDependenciesOf _ _) fun _ => .seq (.allDependenciesOf _ _) fun _ =>
    .seq (.allDependenciesOf _ _) fun _ => .pure _

/-- With room for one entry nothing is found again, with room for four the third answer is; it is
the same, also where nothing is kept. -/
theorem filters_transparent_narrowing :
    Client narrowing ∧
    (exec narrowing (.blank [1])).1 = .ok [[⟨0, 2⟩], [], [⟨0, 2⟩]] ∧
    (exec narrowing (.blank [4])).1 = (exec narrowing (.blank [1])).1 ∧
    (exec narrowing (.blankUnder [.nothing])).1 = (exec narrowing (.blank [1])).1 ∧
    (after narrowing (.blank [1])).stats 0 = (1, 0) ∧
    (after narrowing (.blank [4])).stats 0 = (1, 1) := by
  obtain ⟨v, a, fs, hone, hfour, -⟩ := filters_transparent client_narrowing
    (show [Table.policy 4].length = [Table.policy 1].length from rfl)
  obtain ⟨w, b, gs, hone', hnothing, -⟩ := filters_transparent client_narrowing
    (show [CachePolicy.nothing].length = [Table.policy 1].length from rfl)
  have hblank : ∀ capacity, Atlas.blank [capacity] = .blankUnder [Table.policy capacity] :=
    fun _ => rfl
  refine ⟨client_narrowing, by decide +kernel, ?_, ?_, by decide +kernel, by decide +kernel⟩
  · rw [hblank, hblank, hone, hfour]
  · rw [hblank, hone', hnothing]

end SymbolAtlas
