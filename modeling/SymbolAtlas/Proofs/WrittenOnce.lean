import SymbolAtlas.Proofs.Operations

set_option autoImplicit false

/-! # What holds of every symbol at all times

Operations come in any order, on any symbols and with any arguments. Then a slot that is filled
never changes, and what stands in the slots of a symbol fits together (`Symbol.Clean`): links lead
to other symbols, an overridden member lists the symbols that override it, and a closure that is
kept lists bound symbols, each once. For closures the invariant has to go through the search,
because a search takes over what was kept before (`Tidy.gather`). Nothing is said here about which
symbols a closure holds: without the rules of `LawfulRun` a closure that is kept may be out of date,
but it is never malformed. -/

namespace SymbolAtlas

/-! ## Well-formed closures -/

namespace Atlas

/-- A list that may be kept as the closure of `root`: bound symbols other than `root`, each once. -/
structure Tidy (a : Atlas) (root : SymbolRef) (c : List SymbolRef) : Prop where
  nodup : c.Nodup
  not_mem : root ∉ c
  bound : ∀ q ∈ c, a.Bound q

/-- Every closure that is kept is well-formed. -/
def TidyClosures (a : Atlas) : Prop :=
  ∀ r s c, a.symbol? r = some s → s.closure = some c → a.Tidy r c

theorem Tidy.retain {a b : Atlas} {root : SymbolRef} {c : List SymbolRef} (h : a.Tidy root c)
    (hab : a.Retains b) : b.Tidy root c :=
  ⟨h.nodup, h.not_mem, fun q hq => hab.bound (h.bound q hq)⟩

section Search

variable {a : Atlas} {root r : SymbolRef} {pending found pending' found' : List SymbolRef}

theorem Tidy.push (h : a.Tidy root found) (hr : a.Bound r) (hne : r ≠ root) (hnew : r ∉ found) :
    a.Tidy root (found ++ [r]) where
  nodup := h.nodup.append (List.nodup_singleton r) (List.disjoint_singleton.mpr hnew)
  not_mem := by
    rw [List.mem_append, List.mem_singleton, not_or]
    exact ⟨h.not_mem, hne.symm⟩
  bound := by
    intro q hq
    rcases List.mem_append.mp hq with hq | hq
    · exact h.bound q hq
    · obtain rfl := List.mem_singleton.mp hq
      exact hr

theorem Tidy.absorb (h : a.Tidy root found) {c : List SymbolRef} (hc : ∀ q ∈ c, a.Bound q) :
    a.Tidy root (absorb root c found) where
  nodup := nodup_absorb root c h.nodup
  not_mem := by
    rw [mem_absorb, not_or]
    exact ⟨h.not_mem, fun hroot => hroot.2 rfl⟩
  bound := by
    intro q hq
    rcases (mem_absorb root c found q).mp hq with hq | ⟨hq, -⟩
    · exact h.bound q hq
    · exact hc q hq

/-- **One round of a search finds bound symbols only**, and the root neither joins them nor the
queue. -/
theorem Tidy.visit (ha : a.TidyClosures) (h : a.Tidy root found) (hroot : root ∉ r :: pending)
    (hv : a.visit root r pending found = .ok (pending', found')) :
    a.Tidy root found' ∧ root ∉ pending' := by
  obtain ⟨hne, hpending⟩ := List.ne_and_not_mem_of_not_mem_cons hroot
  obtain ⟨s, hs, hb, hround⟩ := visit_cases hv
  have hr : a.Bound r := ⟨s, hs, hb⟩
  rcases hround with ⟨-, rfl, rfl⟩ | ⟨hnew, c, hc, rfl, rfl⟩ | ⟨hnew, rfl, rfl⟩
  · exact ⟨h, hpending⟩
  · exact ⟨(h.push hr hne.symm hnew).absorb (ha r s c hs hc).bound, hpending⟩
  · refine ⟨h.push hr hne.symm hnew, ?_⟩
    rw [mem_enqueue, not_or]
    exact ⟨hpending, fun hin => hin.2.1 rfl⟩

/-- What a search finds is well-formed if all that was kept before is. -/
theorem Tidy.gather (ha : a.TidyClosures) (fuel : Nat) :
    ∀ {pending found c : List SymbolRef}, a.Tidy root found → root ∉ pending →
      a.gather root fuel pending found = .ok c → a.Tidy root c := by
  induction fuel with
  | zero =>
      intro pending found c h _ hc
      obtain rfl := Except.ok.inj hc
      exact h
  | succ fuel ih =>
      intro pending found c h hroot hc
      -- the root is never in the queue, so no round can find it
      cases pending with
      | nil =>
          obtain rfl := Except.ok.inj hc
          exact h
      | cons r pending =>
          rw [gather_cons] at hc
          cases hv : a.visit root r pending found with
          | error u => rw [hv] at hc; cases hc
          | ok next =>
              rw [hv] at hc
              obtain ⟨hfound, hpending⟩ := Tidy.visit ha h hroot hv
              exact ih hfound hpending hc

theorem Tidy.closureOf (ha : a.TidyClosures) {direct : List (Option SymbolRef)}
    {c : List SymbolRef} (hc : a.closureOf root direct = .ok c) :
    a.Tidy root c := by
  refine Tidy.gather ha _ ⟨List.nodup_nil, by simp, by simp⟩ ?_ hc
  -- a symbol that depends on itself is left out of the first queue
  rw [mem_enqueue]
  simp

end Search

open Binding in
/-- **A change leaves well-formed closures**: only a search makes a new one. -/
theorem TidyClosures.change {named : List SymbolRef} {a b : Atlas} (ha : a.TidyClosures)
    (h : a.Change named b) : b.TidyClosures := by
  have hab := h.retains
  intro q s c hs hc
  cases h with
  | same h =>
      rw [h q] at hs
      exact (ha q s c hs hc).retain hab
  | declared h =>
      -- a symbol that was just declared keeps no closure
      rcases h.fresh hs with hs | ⟨-, d, c', rfl⟩
      · exact (ha q s c hs hc).retain hab
      · cases hc
  | @write x r s₀ hx hs₀ hfree hother hlisted =>
      rcases symbol?_of_modifySymbol hs with hs | ⟨rfl, t, ht, rfl⟩
      · exact (ha q s c hs hc).retain hab
      · -- no effect writes to the closure
        rw [x.closure_write t] at hc
        exact (ha q t c ht hc).retain hab
  | @keep r s₀ c₀ hs₀ hnone hsearch =>
      rw [symbol?_publish] at hs
      split at hs
      · -- the one new closure is what a search has found
        rename_i hq
        subst hq
        rw [hs₀] at hs
        obtain rfl := Option.some.inj hs
        obtain rfl := Option.some.inj hc
        exact (Tidy.closureOf ha hsearch).retain hab
      · exact (ha q s c hs hc).retain hab

theorem TidyClosures.changes {named : List SymbolRef} {a b : Atlas} (ha : a.TidyClosures)
    (h : Changes named a b) : b.TidyClosures := by
  induction h with
  | refl => exact ha
  | tail _ hstep ih => exact ih.change hstep

end Atlas

/-! ## Well-formed symbols -/

/-- **What is in the slots of a symbol fits together.** `r` is the name of the symbol in `a`. -/
structure Symbol.Clean (a : Atlas) (r : SymbolRef) (s : Symbol) : Prop where
  template_ne : ∀ {definition}, s.template = some definition → definition ≠ r
  overridden : ∀ {base}, s.overridden = some base →
    base ≠ r ∧ ∃ t, a.symbol? base = some t ∧ r ∈ t.implementations
  nodup_implementations : s.implementations.Nodup
  implementation : ∀ i ∈ s.implementations, i ≠ r ∧ (a.symbol? i).isSome
  closure : ∀ {c}, s.closure = some c → a.Tidy r c

namespace Symbol.Clean

variable {a b : Atlas} {r : SymbolRef} {s : Symbol}

theorem ofDeclaration (a : Atlas) (r : SymbolRef) (d : Declaration)
    (containing : Option SymbolRef) :
    Clean a r (Symbol.ofDeclaration d containing) where
  template_ne := fun h => by cases h
  overridden := fun h => by cases h
  nodup_implementations := List.nodup_nil
  implementation := fun i hi => by cases hi
  closure := fun h => by cases h

/-- A symbol stays clean while the others keep what they keep. -/
theorem retain (h : s.Clean a r) (hab : a.Retains b) : s.Clean b r where
  template_ne := h.template_ne
  overridden := by
    intro base hbase
    obtain ⟨hne, t, ht, hlisted⟩ := h.overridden hbase
    obtain ⟨t', ht', hkeep⟩ := hab base t ht
    exact ⟨hne, t', ht', hkeep.implementations.subset hlisted⟩
  nodup_implementations := h.nodup_implementations
  implementation := fun i hi => ⟨(h.implementation i hi).1, hab.isSome (h.implementation i hi).2⟩
  closure := fun hc => (h.closure hc).retain hab

open Binding in
/-- **A write that a change allows leaves a symbol clean**, if the link it makes leads to a
symbol. -/
theorem write {x : Effect} (h : s.Clean a r) (hx : x.target? = some r)
    (hother : ∀ q, x.other? = some q → (a.symbol? q).isSome ∧ q ≠ r)
    (hlisted : ∀ base t, x = .overridden r base → a.symbol? base = some t → r ∈ t.implementations) :
    (x.write s).Clean a r := by
  cases x with
  | report d => exact h
  | attributes q attrs =>
      exact ⟨h.template_ne, h.overridden, h.nodup_implementations, h.implementation, h.closure⟩
  | dependencies q deps =>
      exact ⟨h.template_ne, h.overridden, h.nodup_implementations, h.implementation, h.closure⟩
  | bound q =>
      exact ⟨h.template_ne, h.overridden, h.nodup_implementations, h.implementation, h.closure⟩
  | template q definition =>
      refine ⟨fun heq => ?_, h.overridden, h.nodup_implementations, h.implementation, h.closure⟩
      obtain rfl := Option.some.inj heq
      exact (hother definition rfl).2
  | overridden q base =>
      obtain rfl : q = r := Option.some.inj hx
      refine ⟨h.template_ne, fun heq => ?_, h.nodup_implementations, h.implementation, h.closure⟩
      obtain rfl := Option.some.inj heq
      obtain ⟨hbase, hne⟩ := hother base rfl
      obtain ⟨t, ht⟩ := Option.isSome_iff_exists.mp hbase
      exact ⟨hne, t, ht, hlisted base t rfl ht⟩
  | implementation q i =>
      obtain rfl : q = r := Option.some.inj hx
      rw [Effect.write]
      split
      · exact h
      · rename_i hnew
        -- a new implementation joins at the end
        rw [not_or] at hnew
        refine ⟨h.template_ne, h.overridden, ?_, fun j hj => ?_, h.closure⟩
        · exact h.nodup_implementations.append (List.nodup_singleton i)
            (List.disjoint_singleton.mpr hnew.2)
        · rcases List.mem_append.mp hj with hj | hj
          · exact h.implementation j hj
          · obtain rfl := List.mem_singleton.mp hj
            exact ⟨hnew.1, (hother j rfl).1⟩

end Symbol.Clean

namespace Atlas

/-- Every symbol is clean. -/
def Clean (a : Atlas) : Prop :=
  ∀ r s, a.symbol? r = some s → s.Clean a r

/-- **A change keeps all symbols clean** if the operation is given symbols that are there. -/
theorem Clean.change {named : List SymbolRef} {a b : Atlas} (ha : a.Clean) (h : a.Change named b)
    (hnamed : ∀ q ∈ named, (a.symbol? q).isSome) : b.Clean := by
  have hab := h.retains
  have htidy : b.TidyClosures := TidyClosures.change (fun q s c hs hc => (ha q s hs).closure hc) h
  intro q s hs
  cases h with
  | same h =>
      rw [h q] at hs
      exact (ha q s hs).retain hab
  | declared h =>
      rcases h.fresh hs with hs | ⟨-, d, c, rfl⟩
      · exact (ha q s hs).retain hab
      · exact .ofDeclaration b q d c
  | @write x r s₀ hx hs₀ hfree hother hlisted =>
      rcases symbol?_of_modifySymbol hs with hs | ⟨rfl, t, ht, rfl⟩
      · exact (ha q s hs).retain hab
      · -- what the write needs holds before it, and the others keep what they have
        refine ((ha q t ht).write hx (fun p hp => ?_) hlisted).retain hab
        exact ⟨hnamed p (hother p hp).1, (hother p hp).2⟩
  | @keep r s₀ c hs₀ hnone hc =>
      have hkeep := hs
      rw [symbol?_publish] at hs
      split at hs
      · rename_i hq
        subst hq
        obtain ⟨t, ht, rfl⟩ := Option.map_eq_some_iff.mp hs
        have hold := (ha q t ht).retain hab
        exact ⟨hold.template_ne, hold.overridden, hold.nodup_implementations, hold.implementation,
          fun hc => htidy q _ _ hkeep hc⟩
      · exact (ha q s hs).retain hab

theorem Clean.changes {named : List SymbolRef} {a b : Atlas} (ha : a.Clean) (h : Changes named a b)
    (hnamed : ∀ q ∈ named, (a.symbol? q).isSome) : b.Clean := by
  induction h with
  | refl => exact ha
  | tail hab hstep ih => exact ih.change hstep fun q hq =>
      (Changes.retains hab).isSome (hnamed q hq)

end Atlas

/-! ## Runs of any operations -/

open AtlasM

/-- **Any operations in any order**, from one atlas to another. Symbols that an operation is given
are symbols of the atlas, of any table; names may be missing, and a symbol may be linked with
itself. The step that binds a symbol is any program that is itself such a run. -/
inductive SymbolRun : Atlas → Atlas → Prop
  | refl (a : Atlas) : SymbolRun a a
  | step {a b : Atlas} (h : SymbolRun a b) (op : Operation)
      (hnamed : ∀ q ∈ op.named, (b.symbol? q).isSome) : SymbolRun a (after op.perform b)
  | bind {a b : Atlas} (h : SymbolRun a b) (r : SymbolRef) (step : AtlasM Unit)
      (hstep : ¬ b.Bound r → SymbolRun b (after step b)) :
      SymbolRun a (after (AtlasM.bind r step) b)

theorem SymbolRun.retains {a b : Atlas} (h : SymbolRun a b) : a.Retains b := by
  induction h with
  | refl a => exact .refl a
  | step h op hnamed ih => exact ih.trans (op.acts _).changes.retains
  | @bind a b h r step hstep ih ihstep =>
      refine bind_invariant (Atlas.Retains a) r step ih (fun hr => ih.trans (ihstep hr)) ?_
      exact fun b hb => hb.trans ((Operation.markBound r).acts b).changes.retains

/-- **Along a run of any operations all symbols stay clean.** -/
theorem SymbolRun.clean {a b : Atlas} (h : SymbolRun a b) (ha : a.Clean) : b.Clean := by
  induction h with
  | refl a => exact ha
  | step h op hnamed ih => exact (ih ha).changes (op.acts _).changes hnamed
  | @bind a b h r step hstep ih ihstep =>
      refine bind_invariant Atlas.Clean r step (ih ha) (fun hr => ihstep hr (ih ha)) ?_
      intro c hc
      have hmark : Acts [] (AtlasM.markBound r) c := .markBound r
      exact hc.changes hmark.changes (by simp)

theorem Atlas.clean_blank (capacities : List Int) : (Atlas.blank capacities).Clean := by
  intro r s hs
  simp at hs

/-- **What holds of every symbol, after any operations with any arguments.** What is in the slots of
a symbol fits together. Whatever comes next, a slot that is filled and the mark of a bound symbol
never change, and implementations are only added at the end. An operation that breaks a contract
changes no symbol. -/
theorem slots_written_once {capacities : List Int} {a b : Atlas}
    (ha : SymbolRun (.blank capacities) a) (hab : SymbolRun a b) :
    (∀ r s, a.symbol? r = some s → s.Clean a r) ∧
    (∀ r s, a.symbol? r = some s → ∃ s', b.symbol? r = some s' ∧ s.Retains s') ∧
    ∀ (op : Operation) (e : SymbolError) (c : Atlas), exec op.perform a = (.error e, c) →
      e.isInvalidState = true → ∀ q, c.symbol? q = a.symbol? q :=
  ⟨ha.clean (Atlas.clean_blank capacities), hab.retains, fun op _ _ hfail hinvalid =>
    (op.acts a).refused hfail hinvalid⟩

/-- Calls on a type of each of two tables. The first depends on nothing, on itself and on the
second, overrides it, is refused as its own template, and asks for its closure. -/
def linkingCalls : List Operation :=
  [.declare 0 twoTypes 0, .declare 1 twoTypes 1,
    .setDependencies ⟨0, 1⟩ [none, some ⟨0, 1⟩, some ⟨1, 1⟩],
    .setTemplate (some ⟨0, 1⟩) (some ⟨0, 1⟩), .setOverridden (some ⟨0, 1⟩) (some ⟨1, 1⟩),
    .addImplementation ⟨1, 1⟩ (some ⟨0, 1⟩),
    .markBound ⟨1, 1⟩, .allDependencies ⟨0, 1⟩]

/-- The two types after the calls. -/
def linkedTypes : Atlas :=
  linkingCalls.foldl (fun a op => after op.perform a) (.blank [4, 4])

theorem symbolRun_linkedTypes : SymbolRun (.blank [4, 4]) linkedTypes := by
  unfold linkedTypes linkingCalls
  simp only [List.foldl_cons, List.foldl_nil]
  refine .step
    (.step (.step (.step (.step (.step (.step (.step (.refl _) _ ?_) _ ?_) _ ?_) _ ?_) _ ?_)
    _ ?_) _ ?_) _ ?_ <;> decide

/-- Marking the first type bound keeps its closure, and overriding a second time changes nothing. -/
theorem slots_written_once_linkedTypes :
    SymbolRun (.blank [4, 4]) linkedTypes ∧
    SymbolRun linkedTypes (after (Operation.markBound ⟨0, 1⟩).perform linkedTypes) ∧
    (∃ s, (after (Operation.markBound ⟨0, 1⟩).perform linkedTypes).symbol? ⟨0, 1⟩ = some s ∧
      s.closure = some [⟨1, 1⟩] ∧ s.overridden = some ⟨1, 1⟩) ∧
    (after (Operation.setOverridden (some ⟨0, 1⟩) (some ⟨1, 1⟩)).perform linkedTypes).symbol? ⟨1, 1⟩
      = linkedTypes.symbol? ⟨1, 1⟩ := by
  have hmark : SymbolRun linkedTypes (after (Operation.markBound ⟨0, 1⟩).perform linkedTypes) :=
    .step (.refl linkedTypes) _ (by decide)
  obtain ⟨-, hkeeps, hrefused⟩ := slots_written_once symbolRun_linkedTypes hmark
  obtain ⟨s, hs, hkeep⟩ := hkeeps ⟨0, 1⟩ _ rfl
  exact ⟨symbolRun_linkedTypes, hmark, ⟨s, hs, hkeep.closure rfl, hkeep.overridden rfl⟩,
    hrefused (.setOverridden (some ⟨0, 1⟩) (some ⟨1, 1⟩)) _ _ rfl rfl ⟨1, 1⟩⟩

end SymbolAtlas
