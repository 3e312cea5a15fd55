import SymbolAtlas.Proofs.ClosureRuns
import SymbolAtlas.Proofs.RunSteps
import SymbolAtlas.Proofs.Skeleton

set_option autoImplicit false

/-! # The effects of a run

Everything that linking and binding do to a run is one of a few effects: a report, a write to a slot
that is filled once, an entry in a list of implementations, or the mark of a bound symbol. `Written`
says what a symbol looks like after a list of effects, by membership in that list alone. So the
order of the effects only shows in the order of the reports and of the implementations. As long as
no slot is written twice, effects never fail (`exec_perform`). -/

namespace SymbolAtlas.Binding

/-- One change of what the steps of a run share. -/
inductive Effect where
  | report (d : Diagnostic)
  | attributes (r : SymbolRef) (attrs : List Attribute)
  | dependencies (r : SymbolRef) (deps : List (Option SymbolRef))
  | template (r definition : SymbolRef)
  | overridden (r base : SymbolRef)
  | implementation (r implementer : SymbolRef)
  | bound (r : SymbolRef)

/-- What is done at most once to a symbol. -/
inductive Slot where
  | attributes
  | dependencies
  | template
  | overridden
  | bound
  deriving DecidableEq

/-- Whether writing to a slot is refused because it is filled; marking a symbol bound never is. -/
def Slot.full (s : Symbol) : Slot → Bool
  | .attributes => s.attributes.isSome
  | .dependencies => s.dependencies.isSome
  | .template => s.template.isSome
  | .overridden => s.overridden.isSome
  | .bound => false

/-- Records the member that a symbol overrides, and registers the symbol nowhere. -/
def recordOverridden (r base : SymbolRef) : AtlasM Unit := do
  if (← AtlasM.read r).overridden.isSome then AtlasM.violate .overriddenAlreadySet (some r)
  AtlasM.update r fun s => { s with overridden := some base }

namespace Effect

def target? : Effect → Option SymbolRef
  | report _ => none
  | attributes r _ | dependencies r _ | template r _ | overridden r _ | implementation r _
  | bound r => some r

/-- The slot that an effect fills. -/
def slot? : Effect → Option (Slot × SymbolRef)
  | attributes r _ => some (.attributes, r)
  | dependencies r _ => some (.dependencies, r)
  | template r _ => some (.template, r)
  | overridden r _ => some (.overridden, r)
  | bound r => some (.bound, r)
  | report _ | implementation _ _ => none

def perform : Effect → RunM Unit
  | report d => RunM.report d
  | attributes r attrs => RunM.onAtlas (AtlasM.setAttributes r attrs)
  | dependencies r deps => RunM.onAtlas (AtlasM.setDependencies r deps)
  | template r definition => RunM.onAtlas (AtlasM.setTemplate (some r) (some definition))
  | overridden r base => RunM.onAtlas (recordOverridden r base)
  | implementation r i => RunM.onAtlas (AtlasM.addImplementation r (some i))
  | bound r => RunM.onAtlas (AtlasM.markBound r)

/-- What a successful effect makes of the symbol that it writes to. -/
def write : Effect → Symbol → Symbol
  | report _, s => s
  | attributes _ attrs, s => { s with attributes := some attrs }
  | dependencies _ deps, s => { s with dependencies := some deps }
  | template _ definition, s => { s with template := some definition }
  | overridden _ base, s => { s with overridden := some base }
  | implementation r i, s =>
    if i = r ∨ i ∈ s.implementations then s
    else { s with implementations := s.implementations ++ [i] }
  | bound _, s => { s with bound := true }

def change (x : Effect) (a : Atlas) : Atlas :=
  match x.target? with
  | none => a
  | some r => a.modifySymbol r x.write

def reports : Effect → List Diagnostic
  | report d => [d]
  | _ => []

/-- The symbol that is written to is there, and no symbol is its own template. -/
def Fits (a : Atlas) (x : Effect) : Prop :=
  (∀ r, x.target? = some r → (a.symbol? r).isSome) ∧ ∀ r, x ≠ template r r

theorem skeleton_write (x : Effect) (s : Symbol) : (x.write s).skeleton = s.skeleton := by
  cases x <;> simp only [write]
  case implementation r i => split <;> rfl
  all_goals rfl

@[simp] theorem skeleton_change (x : Effect) (a : Atlas) : (x.change a).skeleton = a.skeleton := by
  unfold change
  cases x.target? with
  | none => rfl
  | some r => exact a.skeleton_modifySymbol r x.skeleton_write

@[simp] theorem stats_change (x : Effect) (a : Atlas) (table : Nat) :
    (x.change a).stats table = a.stats table := by
  unfold change
  cases x.target? with
  | none => rfl
  | some r => exact a.stats_modifySymbol r x.write table

theorem Fits.congr {a b : Atlas} {x : Effect} (h : x.Fits a) (hsk : b.skeleton = a.skeleton) :
    x.Fits b := by
  refine ⟨fun r hr => ?_, h.2⟩
  obtain ⟨s, hs⟩ := Option.isSome_iff_exists.mp (h.1 r hr)
  obtain ⟨s', hs', -⟩ := Atlas.exists_symbol_of_skeleton hsk.symm hs
  simp [hs']

end Effect

/-! ## What a list of effects writes -/

/-- **A symbol after the effects of `done`**, if it was as declared before them. -/
structure Written (done : List Effect) (r : SymbolRef) (s : Symbol) : Prop where
  attributes : ∀ attrs, s.attributes = some attrs ↔ .attributes r attrs ∈ done
  dependencies : ∀ deps, s.dependencies = some deps ↔ .dependencies r deps ∈ done
  template : ∀ definition, s.template = some definition ↔ .template r definition ∈ done
  overridden : ∀ base, s.overridden = some base ↔ .overridden r base ∈ done
  implementations : ∀ i, i ∈ s.implementations ↔ i ≠ r ∧ .implementation r i ∈ done
  nodup_implementations : s.implementations.Nodup
  bound : s.bound = true ↔ s.isExternal = true ∨ .bound r ∈ done
  closure : s.closure = none

namespace Written

variable {done : List Effect} {r : SymbolRef} {s : Symbol} {x : Effect}

theorem ofDeclaration (d : Declaration) (c : Option SymbolRef) :
    Written [] r (Symbol.ofDeclaration d c) where
  attributes := by simp [Symbol.ofDeclaration]
  dependencies := by simp [Symbol.ofDeclaration]
  template := by simp [Symbol.ofDeclaration]
  overridden := by simp [Symbol.ofDeclaration]
  implementations := by simp [Symbol.ofDeclaration]
  nodup_implementations := List.nodup_nil
  bound := by simp [Symbol.ofDeclaration, Symbol.isExternal]
  closure := rfl

theorem congr {done' : List Effect} (h : Written done r s) (hmem : ∀ x, x ∈ done ↔ x ∈ done') :
    Written done' r s where
  attributes := fun attrs => (h.attributes attrs).trans (hmem _)
  dependencies := fun deps => (h.dependencies deps).trans (hmem _)
  template := fun definition => (h.template definition).trans (hmem _)
  overridden := fun base => (h.overridden base).trans (hmem _)
  implementations := fun i => (h.implementations i).trans (and_congr_right fun _ => hmem _)
  nodup_implementations := h.nodup_implementations
  bound := h.bound.trans (or_congr_right (hmem _))
  closure := h.closure

theorem skip (h : Written done r s) (hx : x.target? ≠ some r) : Written (done ++ [x]) r s := by
  have hmem : ∀ y : Effect, y.target? = some r → (y ∈ done ++ [x] ↔ y ∈ done) := by
    intro y hy
    rw [List.mem_append, List.mem_singleton]
    constructor
    · rintro (hdone | rfl)
      · exact hdone
      · exact absurd hy hx
    · exact Or.inl
  refine ⟨?_, ?_, ?_, ?_, ?_, h.nodup_implementations, ?_, h.closure⟩
  · exact fun attrs => (h.attributes attrs).trans (hmem _ rfl).symm
  · exact fun deps => (h.dependencies deps).trans (hmem _ rfl).symm
  · exact fun definition => (h.template definition).trans (hmem _ rfl).symm
  · exact fun base => (h.overridden base).trans (hmem _ rfl).symm
  · intro i
    rw [h.implementations, hmem (.implementation r i) rfl]
  · rw [h.bound, hmem (.bound r) rfl]

theorem full_eq_false (h : Written done r s) {k : Slot}
    (hk : (k, r) ∉ done.filterMap Effect.slot?) : k.full s = false := by
  have hnot : ∀ y : Effect, y.slot? = some (k, r) → y ∉ done :=
    fun y hy hmem => hk (List.mem_filterMap.mpr ⟨y, hmem, hy⟩)
  rw [Bool.eq_false_iff]
  intro hfull
  -- what stands in a full slot was written by an effect
  cases k with
  | attributes =>
      obtain ⟨attrs, hattrs⟩ := Option.isSome_iff_exists.mp hfull
      exact hnot _ rfl ((h.attributes attrs).mp hattrs)
  | dependencies =>
      obtain ⟨deps, hdeps⟩ := Option.isSome_iff_exists.mp hfull
      exact hnot _ rfl ((h.dependencies deps).mp hdeps)
  | template =>
      obtain ⟨definition, hdef⟩ := Option.isSome_iff_exists.mp hfull
      exact hnot _ rfl ((h.template definition).mp hdef)
  | overridden =>
      obtain ⟨base, hbase⟩ := Option.isSome_iff_exists.mp hfull
      exact hnot _ rfl ((h.overridden base).mp hbase)
  | bound => exact Bool.false_ne_true hfull

/-- An implementation is listed once, however often it is named, and no symbol implements itself. -/
theorem write_implementation (h : Written done r s) (i : SymbolRef) :
    Written (done ++ [.implementation r i]) r ((Effect.implementation r i).write s) := by
  by_cases hi : i = r ∨ i ∈ s.implementations
  · -- the implementation is the symbol itself or was listed before, so nothing is written
    have hw : (Effect.implementation r i).write s = s := if_pos hi
    rw [hw]
    refine ⟨by simp [h.attributes], by simp [h.dependencies], by simp [h.template],
      by simp [h.overridden], ?_, h.nodup_implementations, by simp [h.bound], h.closure⟩
    intro j
    rw [h.implementations, List.mem_append, List.mem_singleton]
    constructor
    · exact fun hj => ⟨hj.1, Or.inl hj.2⟩
    · rintro ⟨hne, hmem | heq⟩
      · exact ⟨hne, hmem⟩
      · obtain rfl : j = i := (Effect.implementation.inj heq).2
        exact (h.implementations j).mp (hi.resolve_left hne)
  · -- it is new, and joins at the end
    have hw : (Effect.implementation r i).write s
        = { s with implementations := s.implementations ++ [i] } := if_neg hi
    rw [hw]
    push Not at hi
    refine ⟨by simp [h.attributes], by simp [h.dependencies], by simp [h.template],
      by simp [h.overridden], ?_, ?_, by simpa [Symbol.isExternal] using h.bound, h.closure⟩
    · intro j
      show j ∈ s.implementations ++ [i] ↔ _
      rw [List.mem_append, List.mem_append, List.mem_singleton, List.mem_singleton,
        h.implementations]
      constructor
      · rintro (hj | rfl)
        · exact ⟨hj.1, Or.inl hj.2⟩
        · exact ⟨hi.1, Or.inr rfl⟩
      · rintro ⟨hne, hmem | heq⟩
        · exact Or.inl ⟨hne, hmem⟩
        · exact Or.inr (Effect.implementation.inj heq).2
    · exact h.nodup_implementations.append (List.nodup_singleton i)
        (List.disjoint_singleton.mpr hi.2)

/-- **One effect on the symbol itself.** The slot that it fills is still free, so what it writes is
what a reader finds. -/
theorem write (h : Written done r s) (hx : x.target? = some r)
    (hfree : ∀ k, x.slot? = some k → k ∉ done.filterMap Effect.slot?) :
    Written (done ++ [x]) r (x.write s) := by
  -- no value was written to the slot of `x` before, so the value of `x` is the only one
  have hnot : ∀ y : Effect, y.slot? = x.slot? → y.slot? ≠ none → y ∉ done := by
    intro y hy hne hmem
    obtain ⟨k, hk⟩ := Option.ne_none_iff_exists'.mp hne
    exact hfree k (hy ▸ hk) (List.mem_filterMap.mpr ⟨y, hmem, hk⟩)
  cases x with
  | report d => simp [Effect.target?] at hx
  | attributes q attrs =>
      obtain rfl : q = r := Option.some.inj hx
      have hold : ∀ v, Effect.attributes q v ∉ done := fun v => hnot _ rfl (by simp [Effect.slot?])
      exact ⟨by simp [Effect.write, hold, eq_comm], by simp [Effect.write, h.dependencies],
        by simp [Effect.write, h.template], by simp [Effect.write, h.overridden],
        by simp [Effect.write, h.implementations], h.nodup_implementations,
        by simpa [Effect.write, Symbol.isExternal] using h.bound, h.closure⟩
  | dependencies q deps =>
      obtain rfl : q = r := Option.some.inj hx
      have hold : ∀ v, Effect.dependencies q v ∉ done :=
        fun v => hnot _ rfl (by simp [Effect.slot?])
      exact ⟨by simp [Effect.write, h.attributes], by simp [Effect.write, hold, eq_comm],
        by simp [Effect.write, h.template], by simp [Effect.write, h.overridden],
        by simp [Effect.write, h.implementations], h.nodup_implementations,
        by simpa [Effect.write, Symbol.isExternal] using h.bound, h.closure⟩
  | template q definition =>
      obtain rfl : q = r := Option.some.inj hx
      have hold : ∀ v, Effect.template q v ∉ done := fun v => hnot _ rfl (by simp [Effect.slot?])
      exact ⟨by simp [Effect.write, h.attributes], by simp [Effect.write, h.dependencies],
        by simp [Effect.write, hold, eq_comm], by simp [Effect.write, h.overridden],
        by simp [Effect.write, h.implementations], h.nodup_implementations,
        by simpa [Effect.write, Symbol.isExternal] using h.bound, h.closure⟩
  | overridden q base =>
      obtain rfl : q = r := Option.some.inj hx
      have hold : ∀ v, Effect.overridden q v ∉ done := fun v => hnot _ rfl (by simp [Effect.slot?])
      exact ⟨by simp [Effect.write, h.attributes], by simp [Effect.write, h.dependencies],
        by simp [Effect.write, h.template], by simp [Effect.write, hold, eq_comm],
        by simp [Effect.write, h.implementations], h.nodup_implementations,
        by simpa [Effect.write, Symbol.isExternal] using h.bound, h.closure⟩
  | bound q =>
      obtain rfl : q = r := Option.some.inj hx
      exact ⟨by simp [Effect.write, h.attributes], by simp [Effect.write, h.dependencies],
        by simp [Effect.write, h.template], by simp [Effect.write, h.overridden],
        by simp [Effect.write, h.implementations], h.nodup_implementations,
        by simp [Effect.write], h.closure⟩
  | implementation q i =>
      obtain rfl : q = r := Option.some.inj hx
      exact h.write_implementation i

end Written

/-! ## Effects on the atlas -/

def changeAll (xs : List Effect) (a : Atlas) : Atlas :=
  xs.foldl (fun a x => x.change a) a

theorem changeAll_append (xs ys : List Effect) (a : Atlas) :
    changeAll (xs ++ ys) a = changeAll ys (changeAll xs a) :=
  List.foldl_append

@[simp] theorem skeleton_changeAll (xs : List Effect) (a : Atlas) :
    (changeAll xs a).skeleton = a.skeleton := by
  induction xs generalizing a with
  | nil => rfl
  | cons x xs ih => exact (ih (x.change a)).trans (x.skeleton_change a)

@[simp] theorem stats_changeAll (xs : List Effect) (a : Atlas) (table : Nat) :
    (changeAll xs a).stats table = a.stats table := by
  induction xs generalizing a with
  | nil => rfl
  | cons x xs ih => exact (ih (x.change a)).trans (x.stats_change a table)

/-- Every symbol of the atlas is as the effects of `done` have left it. -/
def WrittenBy (done : List Effect) (a : Atlas) : Prop :=
  ∀ r s, a.symbol? r = some s → Written done r s

theorem WrittenBy.change {done : List Effect} {a : Atlas} (h : WrittenBy done a) {x : Effect}
    (hfree : ∀ k, x.slot? = some k → k ∉ done.filterMap Effect.slot?) :
    WrittenBy (done ++ [x]) (x.change a) := by
  intro q s hs
  unfold Effect.change at hs
  cases hx : x.target? with
  | none =>
      rw [hx] at hs
      exact (h q s hs).skip (by rw [hx]; simp)
  | some r =>
      rw [hx] at hs
      by_cases hq : q = r
      · subst hq
        rw [Atlas.symbol?_modifySymbol, if_pos rfl] at hs
        obtain ⟨s₀, hs₀, rfl⟩ := Option.map_eq_some_iff.mp hs
        exact (h q s₀ hs₀).write hx hfree
      · dsimp only at hs
        rw [Atlas.symbol?_modifySymbol_ne a hq] at hs
        exact (h q s hs).skip (by rw [hx]; exact fun heq => hq (Option.some.inj heq).symm)

/-- The effects of `xs` may follow those of `done`: no slot is filled twice. -/
def Compatible (done xs : List Effect) : Prop :=
  ((done ++ xs).filterMap Effect.slot?).Nodup

theorem Compatible.head {done xs : List Effect} {x : Effect} (h : Compatible done (x :: xs)) :
    ∀ k, x.slot? = some k → k ∉ done.filterMap Effect.slot? := by
  intro k hk hmem
  unfold Compatible at h
  rw [List.filterMap_append, List.filterMap_cons_some hk] at h
  exact List.disjoint_of_nodup_append h hmem List.mem_cons_self

theorem Compatible.tail {done xs : List Effect} {x : Effect} (h : Compatible done (x :: xs)) :
    Compatible (done ++ [x]) xs := by
  unfold Compatible at h ⊢
  rwa [List.append_assoc, List.singleton_append]

theorem Compatible.left {done xs ys : List Effect} (h : Compatible done (xs ++ ys)) :
    Compatible done xs := by
  unfold Compatible at h ⊢
  rw [← List.append_assoc, List.filterMap_append] at h
  exact h.of_append_left

theorem WrittenBy.changeAll {xs : List Effect} :
    ∀ {done : List Effect} {a : Atlas}, WrittenBy done a → Compatible done xs →
      WrittenBy (done ++ xs) (changeAll xs a) := by
  induction xs with
  | nil =>
      intro done a h _
      rw [List.append_nil]
      exact h
  | cons x xs ih =>
      intro done a h hc
      have hnext := ih (h.change hc.head) hc.tail
      rwa [List.append_assoc, List.singleton_append] at hnext

/-! ## Effects on a run -/

/-- The run after some effects. -/
def Run.enact (run : Run) (xs : List Effect) : Run :=
  { run with
    atlas := changeAll xs run.atlas
    bag := run.bag.addAll (xs.flatMap Effect.reports) }

theorem enact_append (run : Run) (xs ys : List Effect) :
    run.enact (xs ++ ys) = (run.enact xs).enact ys := by
  unfold Run.enact changeAll
  simp only [List.foldl_append, List.flatMap_append, Bag.addAll_append]

theorem enact_write (run : Run) {x : Effect} {r : SymbolRef} (hx : x.target? = some r) :
    run.enact [x] = { run with atlas := run.atlas.modifySymbol r x.write } := by
  have hreports : x.reports = [] := by
    cases x with
    | report d => simp [Effect.target?] at hx
    | _ => rfl
  have hchange : changeAll [x] run.atlas = run.atlas.modifySymbol r x.write := by
    show x.change run.atlas = _
    rw [Effect.change, hx]
  unfold Run.enact
  rw [hchange, List.flatMap_singleton, hreports]
  rfl

/-- Changing an entry of an array is what it makes of that entry. -/
theorem modify_congr {α : Type} {xs : Array α} {i : Nat} {f g : α → α}
    (h : ∀ x, xs[i]? = some x → f x = g x) : xs.modify i f = xs.modify i g := by
  apply Array.ext_getElem?
  intro j
  rw [Array.getElem?_modify, Array.getElem?_modify]
  by_cases hij : i = j
  · rw [if_pos hij, if_pos hij, ← hij]
    cases hx : xs[i]? with
    | none => rfl
    | some x => rw [Option.map_some, Option.map_some, h x hx]
  · rw [if_neg hij, if_neg hij]

theorem modify_id {α : Type} (xs : Array α) (i : Nat) : (xs.modify i fun x => x) = xs := by
  apply Array.ext_getElem?
  intro j
  simp [Array.getElem?_modify]

/-- A change is what it makes of the symbol that it changes. -/
theorem modifySymbol_congr {a : Atlas} {r : SymbolRef} {s : Symbol} (hs : a.symbol? r = some s)
    {f g : Symbol → Symbol} (hf : f s = g s) : a.modifySymbol r f = a.modifySymbol r g := by
  unfold Atlas.symbol? at hs
  obtain ⟨t, ht, hget⟩ := Option.bind_eq_some_iff.mp hs
  unfold Table.get? at hget
  by_cases hr : r.id = 0
  · simp [hr] at hget
  · rw [if_neg hr] at hget
    have hsymbols : t.symbols.modify (r.id - 1) f = t.symbols.modify (r.id - 1) g := by
      refine modify_congr fun s' hs' => ?_
      rw [Option.some.inj (hs'.symm.trans hget), hf]
    have htables : ∀ t', a.tables[r.table]? = some t' →
        ({ t' with symbols := t'.symbols.modify (r.id - 1) f } : Table)
          = { t' with symbols := t'.symbols.modify (r.id - 1) g } := by
      intro t' ht'
      rw [Option.some.inj (ht'.symm.trans ht), hsymbols]
    unfold Atlas.modifySymbol Atlas.modifyTable
    rw [if_neg hr, if_neg hr, modify_congr htables]

theorem modifySymbol_id (a : Atlas) (r : SymbolRef) : a.modifySymbol r (fun s => s) = a := by
  unfold Atlas.modifySymbol Atlas.modifyTable
  by_cases hr : r.id = 0
  · rw [if_pos hr]
  · rw [if_neg hr]
    simp only [modify_id]

section Steps

variable {a : Atlas} {r : SymbolRef} {s : Symbol} (hs : a.symbol? r = some s)

include hs

theorem exec_setAttributes (hempty : s.attributes = none) (attrs : List Attribute) :
    exec (AtlasM.setAttributes r attrs) a
      = (.ok (), a.modifySymbol r fun s => { s with attributes := some attrs }) := by
  unfold AtlasM.setAttributes
  rw [exec_bind_ok (AtlasM.exec_read hs), hempty]
  rfl

theorem exec_setTemplate (hempty : s.template = none) {definition : SymbolRef}
    (hne : definition ≠ r) :
    exec (AtlasM.setTemplate (some r) (some definition)) a
      = (.ok (), a.modifySymbol r fun s => { s with template := some definition }) := by
  unfold AtlasM.setTemplate
  rw [if_neg (by simp [hne])]
  show exec (AtlasM.read r >>= _) a = _
  rw [exec_bind_ok (AtlasM.exec_read hs), hempty]
  rfl

theorem exec_recordOverridden (hempty : s.overridden = none) (base : SymbolRef) :
    exec (recordOverridden r base) a
      = (.ok (), a.modifySymbol r fun s => { s with overridden := some base }) := by
  unfold recordOverridden
  rw [exec_bind_ok (AtlasM.exec_read hs), hempty]
  rfl

theorem exec_addImplementation (i : SymbolRef) :
    exec (AtlasM.addImplementation r (some i)) a
      = (.ok (), a.modifySymbol r (Effect.implementation r i).write) := by
  by_cases hi : i = r ∨ i ∈ s.implementations
  · -- nothing is added
    have hw : (Effect.implementation r i).write s = s := if_pos hi
    rw [modifySymbol_congr (g := fun s => s) hs hw, modifySymbol_id]
    unfold AtlasM.addImplementation
    by_cases hir : i = r
    · simp [hir]
    · simp only [hir, if_false]
      rw [exec_bind_ok (AtlasM.exec_read hs), if_pos (by simpa [hir] using hi)]
      rfl
  · have hw : (Effect.implementation r i).write s
        = { s with implementations := s.implementations ++ [i] } := if_neg hi
    rw [modifySymbol_congr (g := fun s => { s with implementations := s.implementations ++ [i] })
      hs hw]
    push Not at hi
    unfold AtlasM.addImplementation
    simp only [hi.1, if_false]
    rw [exec_bind_ok (AtlasM.exec_read hs), if_neg (by simpa using hi.2)]
    rfl

end Steps

/-- **An effect whose slot is free succeeds.** -/
theorem exec_perform {done : List Effect} {run : Run} (hw : WrittenBy done run.atlas) {x : Effect}
    (hfit : x.Fits run.atlas) (hfree : ∀ k, x.slot? = some k → k ∉ done.filterMap Effect.slot?) :
    exec x.perform run = (.ok (), run.enact [x]) := by
  -- every writer checks its slot, and the slot is empty because nothing done so far fills it
  cases x with
  | report d => rfl
  | attributes r attrs =>
      obtain ⟨s, hs⟩ := Option.isSome_iff_exists.mp (hfit.1 r rfl)
      have hempty : s.attributes = none := by
        simpa [Slot.full] using (hw r s hs).full_eq_false (hfree (.attributes, r) rfl)
      rw [enact_write run rfl, Effect.perform,
        RunM.exec_onAtlas_ok (exec_setAttributes hs hempty attrs)]
      rfl
  | dependencies r deps =>
      obtain ⟨s, hs⟩ := Option.isSome_iff_exists.mp (hfit.1 r rfl)
      have hempty : s.dependencies = none := by
        simpa [Slot.full] using (hw r s hs).full_eq_false (hfree (.dependencies, r) rfl)
      have hset := AtlasM.exec_setDependencies hs deps
      rw [hempty] at hset
      rw [enact_write run rfl, Effect.perform, RunM.exec_onAtlas_ok hset]
      rfl
  | template r definition =>
      obtain ⟨s, hs⟩ := Option.isSome_iff_exists.mp (hfit.1 r rfl)
      have hempty : s.template = none := by
        simpa [Slot.full] using (hw r s hs).full_eq_false (hfree (.template, r) rfl)
      have hne : definition ≠ r := fun heq => hfit.2 r (by rw [heq])
      rw [enact_write run rfl, Effect.perform,
        RunM.exec_onAtlas_ok (exec_setTemplate hs hempty hne)]
      rfl
  | overridden r base =>
      obtain ⟨s, hs⟩ := Option.isSome_iff_exists.mp (hfit.1 r rfl)
      have hempty : s.overridden = none := by
        simpa [Slot.full] using (hw r s hs).full_eq_false (hfree (.overridden, r) rfl)
      rw [enact_write run rfl, Effect.perform,
        RunM.exec_onAtlas_ok (exec_recordOverridden hs hempty base)]
      rfl
  | implementation r i =>
      obtain ⟨s, hs⟩ := Option.isSome_iff_exists.mp (hfit.1 r rfl)
      rw [enact_write run rfl, Effect.perform, RunM.exec_onAtlas_ok (exec_addImplementation hs i)]
  | bound r =>
      obtain ⟨s, hs⟩ := Option.isSome_iff_exists.mp (hfit.1 r rfl)
      rw [enact_write run rfl, Effect.perform, RunM.exec_onAtlas_ok (AtlasM.exec_markBound hs)]
      rfl

/-- The effects of `xs` can be performed from here: their symbols are there, and no slot that they
fill has been filled before. -/
def Ready (xs : List Effect) (a : Atlas) : Prop :=
  ∃ done, WrittenBy done a ∧ (∀ x ∈ xs, x.Fits a) ∧ Compatible done xs

theorem Ready.left {xs ys : List Effect} {a : Atlas} (h : Ready (xs ++ ys) a) : Ready xs a := by
  obtain ⟨done, hw, hfit, hc⟩ := h
  exact ⟨done, hw, fun x hx => hfit x (List.mem_append_left ys hx), hc.left⟩

theorem Ready.perm {xs ys : List Effect} {a : Atlas} (h : Ready xs a) (hp : xs.Perm ys) :
    Ready ys a := by
  obtain ⟨done, hw, hfit, hc⟩ := h
  refine ⟨done, hw, fun y hy => hfit y (hp.mem_iff.mpr hy), ?_⟩
  exact ((hp.append_left done).filterMap Effect.slot?).nodup_iff.mp hc

/-- What was going to follow can still be done afterwards. -/
theorem Ready.right {xs ys : List Effect} {a : Atlas} (h : Ready (xs ++ ys) a) :
    Ready ys (changeAll xs a) := by
  obtain ⟨done, hw, hfit, hc⟩ := h
  refine ⟨done ++ xs, hw.changeAll hc.left, ?_, ?_⟩
  · intro y hy
    exact (hfit y (List.mem_append_right xs hy)).congr (skeleton_changeAll xs a)
  · unfold Compatible at hc ⊢
    rwa [List.append_assoc]

theorem Ready.enact {xs ys : List Effect} {run : Run} (h : Ready (xs ++ ys) run.atlas) :
    Ready ys (run.enact xs).atlas :=
  h.right

theorem Ready.perform {x : Effect} {run : Run} (h : Ready [x] run.atlas) :
    exec x.perform run = (.ok (), run.enact [x]) := by
  obtain ⟨done, hw, hfit, hc⟩ := h
  exact exec_perform hw (hfit x List.mem_cons_self) hc.head

end SymbolAtlas.Binding
