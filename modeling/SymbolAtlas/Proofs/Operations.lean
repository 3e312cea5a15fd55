import SymbolAtlas.Proofs.FreeRuns
import SymbolAtlas.Proofs.Scripts

set_option autoImplicit false

/-! # What an operation can do

A client changes an atlas through a handful of operations. `Atlas.Change` says once what they can do
to the symbols: nothing, a declaration, one write to one symbol, or the keeping of a closure. Each
operation is a short chain of such changes, and one that breaks a contract does nothing
(`Operation.acts`). What a change keeps (`Change.retains`) every operation keeps. -/

namespace SymbolAtlas

/-! ## What is kept -/

/-- **What a symbol keeps for ever**: what it was declared as, its mark, and what is in its slots.
Its implementations only grow at the end. -/
structure Symbol.Retains (s s' : Symbol) : Prop extends s.Ages s' where
  skeleton : s'.skeleton = s.skeleton
  attributes : ∀ {attrs}, s.attributes = some attrs → s'.attributes = some attrs
  template : ∀ {definition}, s.template = some definition → s'.template = some definition
  overridden : ∀ {base}, s.overridden = some base → s'.overridden = some base
  implementations : s.implementations <+: s'.implementations

theorem Symbol.Retains.refl (s : Symbol) : s.Retains s :=
  ⟨.refl s, rfl, fun h => h, fun h => h, fun h => h, List.prefix_rfl⟩

theorem Symbol.Retains.trans {s t u : Symbol} (h : s.Retains t) (h' : t.Retains u) : s.Retains u :=
  ⟨h.toAges.trans h'.toAges, h'.skeleton.trans h.skeleton,
    fun hs => h'.attributes (h.attributes hs), fun hs => h'.template (h.template hs),
    fun hs => h'.overridden (h.overridden hs), h.implementations.trans h'.implementations⟩

namespace Atlas

/-- Every symbol is still there and has kept what it keeps. -/
def Retains (a b : Atlas) : Prop :=
  ∀ q s, a.symbol? q = some s → ∃ s', b.symbol? q = some s' ∧ s.Retains s'

namespace Retains

variable {a b c : Atlas}

theorem refl (a : Atlas) : a.Retains a :=
  fun _ s hs => ⟨s, hs, .refl s⟩

theorem trans (h : a.Retains b) (h' : b.Retains c) : a.Retains c := by
  intro q s hs
  obtain ⟨t, ht, hst⟩ := h q s hs
  obtain ⟨u, hu, htu⟩ := h' q t ht
  exact ⟨u, hu, hst.trans htu⟩

theorem of_sameSymbols (h : a.SameSymbols b) : a.Retains b :=
  fun q s hs => ⟨s, (h q).trans hs, .refl s⟩

theorem of_extends (h : a.Extends b) : a.Retains b :=
  fun _ s hs => ⟨s, h.keeps hs, .refl s⟩

theorem modifySymbol {r : SymbolRef} {f : Symbol → Symbol}
    (hf : ∀ s, a.symbol? r = some s → s.Retains (f s)) : a.Retains (a.modifySymbol r f) := by
  intro q s hs
  by_cases hq : q = r
  · subst hq
    exact ⟨f s, symbol?_modifySymbol_self hs f, hf s hs⟩
  · exact ⟨s, by rw [symbol?_modifySymbol_ne a hq, hs], .refl s⟩

theorem isSome (h : a.Retains b) {q : SymbolRef} (hq : (a.symbol? q).isSome) :
    (b.symbol? q).isSome := by
  obtain ⟨s, hs⟩ := Option.isSome_iff_exists.mp hq
  obtain ⟨s', hs', -⟩ := h q s hs
  simp [hs']

theorem bound (h : a.Retains b) {q : SymbolRef} (hq : a.Bound q) : b.Bound q := by
  obtain ⟨s, hs, hb⟩ := hq
  obtain ⟨s', hs', hkeep⟩ := h q s hs
  exact ⟨s', hs', hkeep.bound hb⟩

end Retains

end Atlas

/-! ## Changes -/

namespace Binding.Effect

def other? : Effect → Option SymbolRef
  | template _ definition => some definition
  | overridden _ base => some base
  | implementation _ i => some i
  | report _ | attributes _ _ | dependencies _ _ | bound _ => none

theorem retains_write {x : Effect} {r : SymbolRef} {s : Symbol} (hx : x.target? = some r)
    (hfree : ∀ k, x.slot? = some (k, r) → k.full s = false) : s.Retains (x.write s) := by
  have hkeep := Symbol.Retains.refl s
  -- an effect that fills a slot found it empty; the others only add
  cases x with
  | report d => exact hkeep
  | attributes q attrs =>
      obtain rfl : q = r := Option.some.inj hx
      have hempty : s.attributes = none := by simpa [Slot.full] using hfree .attributes rfl
      exact { hkeep with attributes := fun h => by rw [hempty] at h; cases h }
  | dependencies q deps =>
      obtain rfl : q = r := Option.some.inj hx
      have hempty : s.dependencies = none := by simpa [Slot.full] using hfree .dependencies rfl
      exact { hkeep with dependencies := fun h => by rw [hempty] at h; cases h }
  | template q definition =>
      obtain rfl : q = r := Option.some.inj hx
      have hempty : s.template = none := by simpa [Slot.full] using hfree .template rfl
      exact { hkeep with template := fun h => by rw [hempty] at h; cases h }
  | overridden q base =>
      obtain rfl : q = r := Option.some.inj hx
      have hempty : s.overridden = none := by simpa [Slot.full] using hfree .overridden rfl
      exact { hkeep with overridden := fun h => by rw [hempty] at h; cases h }
  | implementation q i =>
      rw [write]
      split
      · exact hkeep
      · exact { hkeep with implementations := List.prefix_append _ _ }
  | bound q => exact { hkeep with bound := fun _ => rfl }

@[simp] theorem closure_write (x : Effect) (s : Symbol) : (x.write s).closure = s.closure := by
  cases x <;> simp only [write]
  case implementation r i => split <;> rfl

theorem mem_write_implementation {r i : SymbolRef} (hne : i ≠ r) (s : Symbol) :
    i ∈ ((Effect.implementation r i).write s).implementations := by
  rw [write]
  split
  · rename_i h
    exact h.resolve_left hne
  · exact List.mem_append_right _ List.mem_cons_self

end Binding.Effect

namespace Atlas

open Binding

/-- **What an operation can do to the symbols** in one go. `named` are the symbols that the
operation is given. It changes none, or it declares some, or it writes to one symbol: to a slot that
is empty, a link to another symbol, and a link to an overridden member only once that member lists
the symbol. Or it keeps the closure that was found for a symbol without one. -/
inductive Change (named : List SymbolRef) (a : Atlas) : Atlas → Prop
  | same {b : Atlas} (h : a.SameSymbols b) : Change named a b
  | declared {b : Atlas} (h : a.Extends b) : Change named a b
  | write {x : Effect} {r : SymbolRef} {s : Symbol} (hx : x.target? = some r)
      (hs : a.symbol? r = some s) (hfree : ∀ k, x.slot? = some (k, r) → k.full s = false)
      (hother : ∀ q, x.other? = some q → q ∈ named ∧ q ≠ r)
      (hlisted : ∀ base t, x = .overridden r base → a.symbol? base = some t →
        r ∈ t.implementations) :
      Change named a (a.modifySymbol r x.write)
  | keep {r : SymbolRef} {s : Symbol} {c : List SymbolRef} (hs : a.symbol? r = some s)
      (hnone : s.closure = none) (hc : a.closureOf r s.direct = .ok c) :
      Change named a (a.publish r c)

theorem Change.retains {named : List SymbolRef} {a b : Atlas} (h : a.Change named b) :
    a.Retains b := by
  cases h with
  | same h => exact .of_sameSymbols h
  | declared h => exact .of_extends h
  | write hx hs hfree hother hlisted =>
      refine .modifySymbol fun t ht => ?_
      obtain rfl := Option.some.inj (hs.symm.trans ht)
      exact Effect.retains_write hx hfree
  | @keep r s c hs hnone hc =>
      have hcount := a.sameSymbols_countClosure r.table
      refine (Retains.of_sameSymbols hcount).trans (.modifySymbol fun t ht => ?_)
      rw [hcount r, hs] at ht
      obtain rfl := Option.some.inj ht
      exact { Symbol.Retains.refl s with closure := fun h => by rw [hnone] at h; cases h }

/-- Writes to different symbols may be exchanged. -/
theorem sameSymbols_modifySymbol_comm (a : Atlas) {r q : SymbolRef} (hne : q ≠ r)
    (f g : Symbol → Symbol) :
    SameSymbols ((a.modifySymbol q g).modifySymbol r f)
      ((a.modifySymbol r f).modifySymbol q g) := by
  intro p
  simp only [symbol?_modifySymbol]
  by_cases hr : p = r
  · subst hr
    simp [hne.symm]
  · simp [hr]

/-- The names among some that stand for a symbol of a kind. -/
def narrow (a : Atlas) (kind : Kind) (refs : List SymbolRef) : List SymbolRef :=
  refs.filter fun q => (a.symbol? q).any (·.kind = kind)

/-- Some changes, one after the other. -/
def Changes (named : List SymbolRef) : Atlas → Atlas → Prop :=
  Relation.ReflTransGen (Change named)

theorem Changes.retains {named : List SymbolRef} {a b : Atlas} (h : Changes named a b) :
    a.Retains b := by
  induction h with
  | refl => exact .refl a
  | tail _ hstep ih => exact ih.trans hstep.retains

end Atlas

/-! ## Operations -/

/-- What a client may ask of an atlas. -/
inductive Operation where
  | declare (table : Nat) (o : Outline) (i : Nat)
  | setAttributes (r : SymbolRef) (attrs : List Attribute)
  | setDependencies (r : SymbolRef) (deps : List (Option SymbolRef))
  | setTemplate (r template : Option SymbolRef)
  | setOverridden (r base : Option SymbolRef)
  | addImplementation (r : SymbolRef) (implementation : Option SymbolRef)
  | markBound (r : SymbolRef)
  | allDependencies (r : SymbolRef)
  | allDependenciesOf (r : SymbolRef) (kind : Kind)

namespace Operation

/-- The program of an operation, whose answer is dropped. -/
def perform : Operation → AtlasM Unit
  | declare table o i => discard (AtlasM.declare table o i)
  | setAttributes r attrs => AtlasM.setAttributes r attrs
  | setDependencies r deps => AtlasM.setDependencies r deps
  | setTemplate r template => AtlasM.setTemplate r template
  | setOverridden r base => AtlasM.setOverridden r base
  | addImplementation r implementation => AtlasM.addImplementation r implementation
  | markBound r => AtlasM.markBound r
  | allDependencies r => discard (AtlasM.allDependencies r)
  | allDependenciesOf r kind => discard (AtlasM.allDependenciesOf r kind)

/-- The symbols that an operation is given. -/
def named : Operation → List SymbolRef
  | declare _ _ _ => []
  | setAttributes r _ | markBound r | allDependencies r | allDependenciesOf r _ => [r]
  | setDependencies r deps => r :: deps.filterMap id
  | setTemplate r other | setOverridden r other => r.toList ++ other.toList
  | addImplementation r implementation => r :: implementation.toList

end Operation

namespace AtlasM

open Atlas Binding

variable {α : Type} {named : List SymbolRef}

/-- **A program that acts by changes**, and does nothing to the symbols if it breaks a contract. -/
structure Acts (named : List SymbolRef) (x : AtlasM α) (a : Atlas) : Prop where
  changes : Changes named a (after x a)
  refused : ∀ {e b}, exec x a = (.error e, b) → e.isInvalidState = true → a.SameSymbols b

theorem exec_discard (x : AtlasM α) (a : Atlas) :
    exec (discard x) a = ((exec x a).1.map fun _ => (), (exec x a).2) := by
  show exec (x >>= fun _ => pure ()) a = _
  rw [exec_bind]
  rcases exec x a with ⟨_ | _, _⟩ <;> rfl

namespace Acts

variable {x : AtlasM α} {a : Atlas}

theorem of_same {v : Except SymbolError α} {b : Atlas} (hx : exec x a = (v, b))
    (h : a.SameSymbols b) : Acts named x a := by
  refine ⟨?_, fun he _ => ?_⟩
  · unfold after
    rw [hx]
    exact .single (.same h)
  · rw [hx] at he
    obtain rfl := congrArg Prod.snd he
    exact h

theorem of_unchanged {v : Except SymbolError α} (hx : exec x a = (v, a)) : Acts named x a :=
  of_same hx fun _ => rfl

/-- What does not break a contract only has to act by changes. -/
theorem of_changes {v : Except SymbolError α} {b : Atlas} (hx : exec x a = (v, b))
    (hv : ∀ e, v = .error e → e.isInvalidState = false) (h : Changes named a b) :
    Acts named x a := by
  refine ⟨?_, fun {e c} he hinvalid => ?_⟩
  · unfold after
    rw [hx]
    exact h
  · rw [hx] at he
    rw [hv e (congrArg Prod.fst he)] at hinvalid
    cases hinvalid

theorem discard (h : Acts named x a) : Acts named (Functor.discard x) a := by
  refine ⟨?_, fun {e b} he hinvalid => ?_⟩
  · unfold after
    rw [exec_discard]
    exact h.changes
  · rw [exec_discard] at he
    rcases hx : exec x a with ⟨e' | v, b'⟩ <;> rw [hx] at he
    · obtain rfl : e' = e := Except.error.inj (congrArg Prod.fst he)
      obtain rfl : b' = b := congrArg Prod.snd he
      exact h.refused hx hinvalid
    · cases congrArg Prod.fst he

theorem write {r : SymbolRef} {y : Effect} {v : α}
    (hx : exec x a = (.ok v, a.modifySymbol r y.write)) {s : Symbol} (hy : y.target? = some r)
    (hs : a.symbol? r = some s)
    (hfree : ∀ k, y.slot? = some (k, r) → k.full s = false)
    (hother : ∀ q, y.other? = some q → q ∈ named ∧ q ≠ r) (hbase : ∀ base, y ≠ .overridden r base) :
    Acts named x a := by
  refine of_changes hx (fun e he => by cases he) (.single (.write hy hs hfree hother ?_))
  exact fun base _ heq => absurd heq (hbase base)

end Acts

/-! ## Narrowing -/

/-- **Narrowing to a kind** keeps the symbols of that kind in their order. It fails if a name stands
for no symbol. -/
theorem exec_ofKind (kind : Kind) (refs : List SymbolRef) (a : Atlas) :
    exec (ofKind kind (refs.map some)) a
      = (if ∀ q ∈ refs, (a.symbol? q).isSome then .ok (a.narrow kind refs)
          else .error (.fault .missingSymbol), a) := by
  induction refs with
  | nil => rfl
  | cons q refs ih =>
      rw [List.map_cons, ofKind]
      rw [exec_bind_ok (show exec (receiver (some q)) a = (.ok q, a) from rfl)]
      cases hs : a.symbol? q with
      | none =>
          -- the first name stands for nothing
          rw [exec_bind_error (exec_read_missing hs), if_neg]
          exact fun hall => by simpa [hs] using hall q List.mem_cons_self
      | some s =>
          rw [exec_bind_ok (exec_read hs)]
          by_cases hrefs : ∀ q ∈ refs, (a.symbol? q).isSome
          · rw [if_pos hrefs] at ih
            have hall : ∀ p ∈ q :: refs, (a.symbol? p).isSome := by
              intro p hp
              rcases List.mem_cons.mp hp with rfl | hp
              · simp [hs]
              · exact hrefs p hp
            rw [exec_bind_ok ih, if_pos hall]
            unfold Atlas.narrow
            by_cases hkind : s.kind = kind <;> simp [hs, hkind]
          · -- a later name stands for nothing
            rw [if_neg hrefs] at ih
            rw [exec_bind_error ih, if_neg]
            exact fun hall => hrefs fun p hp => hall p (List.mem_cons_of_mem q hp)

/-- What is asked for a kind is found in the cache, or is the closure narrowed to that kind. -/
theorem exec_allDependenciesOf_new {a : Atlas} {r : SymbolRef} {kind : Kind}
    (h : a.tables[r.table]?.bind (·.filtered.get? (r.id, kind)) = none) :
    exec (allDependenciesOf r kind) a = match exec (allDependencies r) a with
      | (.error e, b) => (.error e, b)
      | (.ok all, b) =>
        if ∀ q ∈ all, (b.symbol? q).isSome then
          (.ok (b.narrow kind all), b.modifyTable r.table fun t =>
            { t with filtered := t.filtered.insert (r.id, kind) (b.narrow kind all) })
        else (.error (.fault .missingSymbol), b) := by
  unfold allDependenciesOf
  dsimp only
  rw [exec_bind_ok (exec_get a), h]
  dsimp only
  rw [exec_bind]
  rcases exec (allDependencies r) a with ⟨e | all, b⟩
  · rfl
  · dsimp only
    rw [exec_bind, exec_ofKind]
    by_cases hall : ∀ q ∈ all, (b.symbol? q).isSome
    · simp only [if_pos hall]
      rfl
    · simp only [if_neg hall]

theorem exec_allDependenciesOf_kept {a : Atlas} {r : SymbolRef} {kind : Kind}
    {answer : List SymbolRef}
    (h : a.tables[r.table]?.bind (·.filtered.get? (r.id, kind)) = some answer) :
    exec (allDependenciesOf r kind) a = (.ok answer, a.modifyTable r.table fun t =>
      { t with filterHits := t.filterHits + 1, filtered := t.filtered.touch (r.id, kind) }) := by
  unfold allDependenciesOf
  dsimp only
  rw [exec_bind_ok (exec_get a), h]
  rfl

/-! ## Every operation acts by changes -/

def fill (r : SymbolRef) (k : Slot) (v : Violation) (f : Symbol → Symbol) : AtlasM Unit := do
  let s ← read r
  if k.full s then violate v (some r)
  update r f

/-- A slot that is empty is written to; otherwise nothing changes. -/
theorem fill_cases (r : SymbolRef) (k : Slot) (v : Violation) (f : Symbol → Symbol) (a : Atlas) :
    (∃ e, exec (fill r k v f) a = (.error e, a)) ∨
    ∃ s, a.symbol? r = some s ∧ k.full s = false ∧
      exec (fill r k v f) a = (.ok (), a.modifySymbol r f) := by
  unfold fill
  cases hs : a.symbol? r with
  | none => exact Or.inl ⟨_, exec_bind_error (exec_read_missing hs) _⟩
  | some s =>
      rw [exec_bind_ok (exec_read hs)]
      cases hfull : k.full s with
      | true => exact Or.inl ⟨_, rfl⟩
      | false => exact Or.inr ⟨s, rfl, hfull, rfl⟩

theorem setTemplate_eq {r definition : SymbolRef} (hne : definition ≠ r) :
    setTemplate (some r) (some definition)
      = fill r .template .templateAlreadySet (Effect.template r definition).write := by
  unfold setTemplate
  rw [if_neg (by simp [hne])]
  rfl

theorem setOverridden_eq_fill {r base : SymbolRef} (hne : base ≠ r) :
    setOverridden (some r) (some base)
      = fill r .overridden .overriddenAlreadySet (Effect.overridden r base).write >>= fun _ =>
        addImplementation base (some r) :=
  setOverridden_eq hne

theorem exec_addImplementation_missing {a : Atlas} {r i : SymbolRef} (hr : a.symbol? r = none)
    (hir : i ≠ r) :
    exec (addImplementation r (some i)) a = (.error (.fault .missingSymbol), a) := by
  unfold addImplementation
  dsimp only
  rw [if_neg hir]
  exact exec_bind_error (exec_read_missing hr) _

namespace Acts

variable {a : Atlas}

theorem fill {r : SymbolRef} {x : Effect} {k : Slot} {v : Violation} (hslot : x.slot? = some (k, r))
    (hx : x.target? = some r) (hother : ∀ q, x.other? = some q → q ∈ named ∧ q ≠ r)
    (hbase : ∀ base, x ≠ .overridden r base) : Acts named (AtlasM.fill r k v x.write) a := by
  rcases fill_cases r k v x.write a with ⟨e, hrun⟩ | ⟨s, hs, hempty, hrun⟩
  · exact of_unchanged hrun
  · refine write hrun hx hs (fun k' hk => ?_) hother hbase
    obtain rfl : k = k' := congrArg Prod.fst (Option.some.inj (hslot.symm.trans hk))
    exact hempty

theorem declare (table : Nat) (o : Outline) (i : Nat) :
    Acts named (AtlasM.declare table o i) a := by
  refine ⟨.single (.declared (extends_declare a table o i)), fun {e b} he hinvalid => ?_⟩
  -- a declaration is never refused for the state of a symbol
  cases ht : a.tables[table]? with
  | none =>
      rw [exec_declare_missing ht] at he
      obtain rfl := Except.error.inj (congrArg Prod.fst he)
      cases hinvalid
  | some t =>
      rw [exec_declare ht] at he
      cases hd : (t.declare table o i).1 with
      | ok r => rw [hd] at he; cases congrArg Prod.fst he
      | error cause =>
          rw [hd] at he
          obtain rfl := Except.error.inj (congrArg Prod.fst he)
          cases hinvalid

theorem setTemplate (r template : Option SymbolRef) (hnamed : ∀ q, template = some q → q ∈ named) :
    Acts named (AtlasM.setTemplate r template) a := by
  by_cases hself : template = none ∨ template = r
  · refine of_unchanged (v := .error (.contract .templateNotOther (a.text r))) ?_
    unfold AtlasM.setTemplate
    rw [if_pos hself]
    rfl
  · push Not at hself
    obtain ⟨definition, rfl⟩ := Option.ne_none_iff_exists'.mp hself.1
    cases r with
    | none => exact of_unchanged (v := .error (.fault .missingSymbol)) rfl
    | some r =>
        have hne : definition ≠ r := fun heq => hself.2 (by rw [heq])
        rw [setTemplate_eq hne]
        refine fill rfl rfl (fun q hq => ?_) (by simp)
        obtain rfl := Option.some.inj hq
        exact ⟨hnamed definition rfl, hne⟩

theorem addImplementation (r : SymbolRef) (i : Option SymbolRef)
    (hnamed : ∀ q, i = some q → q ∈ named) :
    Acts named (AtlasM.addImplementation r i) a := by
  cases i with
  | none => exact of_unchanged rfl
  | some i =>
      by_cases hir : i = r
      · refine of_unchanged (v := .ok ()) ?_
        unfold AtlasM.addImplementation
        dsimp only
        rw [if_pos hir]
        rfl
      · cases hs : a.symbol? r with
        | none => exact of_unchanged (exec_addImplementation_missing hs hir)
        | some s =>
            refine write (exec_addImplementation hs i) rfl hs (fun k hk => by cases hk) ?_ (by simp)
            intro q hq
            obtain rfl := Option.some.inj hq
            exact ⟨hnamed i rfl, hir⟩

/-- After the overridden member was recorded, the symbol is listed there. The same symbols come from
listing it first. -/
theorem recorded {r b : SymbolRef} {s : Symbol} {x : AtlasM Unit} (hne : b ≠ r)
    (hs : a.symbol? r = some s) (hempty : Slot.overridden.full s = false)
    (hx : exec x a = (.ok (), a.modifySymbol r (Effect.overridden r b).write)) (hb : b ∈ named)
    (hr : r ∈ named) : Acts named (x >>= fun _ => AtlasM.addImplementation b (some r)) a := by
  have hrecord : ∀ {a' : Atlas}, a'.symbol? r = some s →
      (∀ t, a'.symbol? b = some t → r ∈ t.implementations) →
      a'.Change named (a'.modifySymbol r (Effect.overridden r b).write) := by
    intro a' hs' hlisted
    refine .write rfl hs' (fun k hk => ?_) (fun q hq => ?_) (fun base t heq ht => ?_)
    · obtain rfl : Slot.overridden = k := congrArg Prod.fst (Option.some.inj hk)
      exact hempty
    · obtain rfl := Option.some.inj hq
      exact ⟨hb, hne⟩
    · obtain rfl : b = base := (Effect.overridden.inj heq).2
      exact hlisted t ht
  have hmissing := symbol?_modifySymbol_ne a hne (Effect.overridden r b).write
  cases ht : a.symbol? b with
  | none =>
      rw [ht] at hmissing
      -- nothing can be listed at a name without a symbol, and no contract is broken
      have hrun := (exec_bind_ok hx fun _ => AtlasM.addImplementation b (some r)).trans
        (exec_addImplementation_missing hmissing hne.symm)
      refine of_changes hrun (fun e he => ?_) (.single (hrecord hs fun t ht' => ?_))
      · obtain rfl := Except.error.inj he
        rfl
      · rw [ht] at ht'
        cases ht'
  | some t =>
      rw [ht] at hmissing
      have hrun := (exec_bind_ok hx fun _ => AtlasM.addImplementation b (some r)).trans
        (exec_addImplementation hmissing r)
      refine of_changes hrun (fun e he => by cases he) ?_
      -- recording before listing is no change by itself, but both together are the same the other
      -- way round
      have hlist : a.Change named (a.modifySymbol b (Effect.implementation b r).write) := by
        refine .write rfl ht (fun k hk => by cases hk) (fun q hq => ?_)
          (fun base t heq => by cases heq)
        obtain rfl := Option.some.inj hq
        exact ⟨hr, hne.symm⟩
      refine ((Relation.ReflTransGen.single hlist).tail (hrecord ?_ fun t' ht' => ?_)).tail
        (.same (a.sameSymbols_modifySymbol_comm hne _ _))
      · rw [symbol?_modifySymbol_ne a hne.symm, hs]
      · rw [symbol?_modifySymbol_self ht] at ht'
        obtain rfl := Option.some.inj ht'
        exact Effect.mem_write_implementation hne.symm t

/-- **Overriding writes to two symbols.** That the overriding symbol is recorded before it is listed
does not show afterwards. -/
theorem setOverridden (r base : Option SymbolRef)
    (hnamed : ∀ q, r = some q ∨ base = some q → q ∈ named) :
    Acts named (AtlasM.setOverridden r base) a := by
  cases base with
  | none => exact of_unchanged (v := .error (.contract .overriddenNotOther (a.text r))) rfl
  | some b =>
      by_cases hself : some b = r
      · refine of_unchanged (v := .error (.contract .overriddenNotOther (a.text r))) ?_
        unfold AtlasM.setOverridden
        dsimp only
        rw [if_pos hself]
        rfl
      · cases r with
        | none => exact of_unchanged (v := .error (.fault .missingSymbol)) rfl
        | some r =>
            have hne : b ≠ r := fun heq => hself (by rw [heq])
            rw [setOverridden_eq_fill hne]
            rcases fill_cases r .overridden .overriddenAlreadySet
              (Effect.overridden r b).write a with
              ⟨e, hrun⟩ | ⟨s, hs, hempty, hrun⟩
            · exact of_unchanged (exec_bind_error hrun _)
            · refine recorded hne hs hempty hrun ?_ ?_
              · exact hnamed b (Or.inr rfl)
              · exact hnamed r (Or.inl rfl)

theorem markBound (r : SymbolRef) : Acts named (AtlasM.markBound r) a := by
  cases hs : a.symbol? r with
  | none => exact of_unchanged (exec_bind_error (exec_read_missing hs) _)
  | some s =>
      refine write (y := .bound r) (exec_markBound hs) rfl hs (fun k hk => ?_)
        (by simp [Effect.other?])
        (by simp)
      obtain rfl : Slot.bound = k := congrArg Prod.fst (Option.some.inj hk)
      rfl

theorem allDependencies (r : SymbolRef) : Acts named (AtlasM.allDependencies r) a := by
  cases hs : a.symbol? r with
  | none => exact of_unchanged (exec_bind_error (exec_read_missing hs) _)
  | some s =>
      cases hc : s.closure with
      | some c => exact of_unchanged (exec_allDependencies_kept hs hc)
      | none =>
          have hrun := exec_allDependencies_new hs hc
          cases hsearch : a.closureOf r s.direct with
          | error u =>
              rw [hsearch] at hrun
              exact of_same hrun (a.sameSymbols_countClosure r.table)
          | ok c =>
              rw [hsearch] at hrun
              exact of_changes hrun (fun e he => by cases he) (.single (.keep hs hc hsearch))

theorem allDependenciesOf (r : SymbolRef) (kind : Kind) :
    Acts named (AtlasM.allDependenciesOf r kind) a := by
  have hall : Acts named (AtlasM.allDependencies r) a := allDependencies r
  refine ⟨allDependenciesOf_invariant (Changes named a) (fun hsame h => h.tail (.same hsame)) r kind
    .refl hall.changes, fun {e b} he hinvalid => ?_⟩
  cases h : a.tables[r.table]?.bind (·.filtered.get? (r.id, kind)) with
  | some answer =>
      rw [exec_allDependenciesOf_kept h] at he
      cases congrArg Prod.fst he
  | none =>
      rw [exec_allDependenciesOf_new h] at he
      rcases hx : exec (AtlasM.allDependencies r) a with ⟨e' | all, b'⟩
      · rw [hx] at he
        obtain rfl : e' = e := Except.error.inj (congrArg Prod.fst he)
        obtain rfl : b' = b := congrArg Prod.snd he
        exact hall.refused hx hinvalid
      · rw [hx] at he
        dsimp only at he
        split at he
        · cases congrArg Prod.fst he
        · obtain rfl := Except.error.inj (congrArg Prod.fst he)
          cases hinvalid

end Acts

end AtlasM

/-- **Every operation acts by changes**, and if it breaks a contract it changes no symbol. -/
theorem Operation.acts (op : Operation) (a : Atlas) : AtlasM.Acts op.named op.perform a := by
  cases op with
  | declare table o i => exact (AtlasM.Acts.declare table o i).discard
  | setAttributes r attrs =>
      exact .fill (k := .attributes) (x := .attributes r attrs) rfl rfl
        (by simp [Binding.Effect.other?]) (by simp)
  | setDependencies r deps =>
      exact .fill (k := .dependencies) (x := .dependencies r deps) rfl rfl
        (by simp [Binding.Effect.other?]) (by simp)
  | setTemplate r template =>
      exact .setTemplate r template fun q hq => by simp [named, hq]
  | setOverridden r base =>
      exact .setOverridden r base fun q hq => by rcases hq with rfl | rfl <;> simp [named]
  | addImplementation r i => exact .addImplementation r i fun q hq => by simp [named, hq]
  | markBound r => exact .markBound r
  | allDependencies r => exact (AtlasM.Acts.allDependencies r).discard
  | allDependenciesOf r kind => exact (AtlasM.Acts.allDependenciesOf r kind).discard

end SymbolAtlas
