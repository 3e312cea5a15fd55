import SymbolAtlas.Proofs.ConcurrentClosures

set_option autoImplicit false

/-! # The deeds of calls that share an atlas

A step of a call changes the shared atlas in one of two ways: the computation of a closure is
counted when its search begins, or a closure is kept at its end. `Calls.deeds` lists what the calls
did along a run, and the atlas at the end is what these deeds make of the first one
(`atlas_follow`).

A deed marks its symbol for good: a kept closure stays, and what was started stays started. So no
symbol is met twice among the deeds of one sort (`Consistent.nodup_deeds`). With the exactness of
what is kept this gives `account_follow`, all that calls on one atlas may rely on. -/

namespace SymbolAtlas

/-- What a step of a call does to the atlas. -/
inductive Call.Deed where
  /-- The computation of a closure is counted. -/
  | count (r : SymbolRef)
  /-- A closure is kept. -/
  | keep (r : SymbolRef) (closure : List SymbolRef)

namespace Call.Deed

def perform (a : Atlas) : Deed → Atlas
  | count r => a.countClosure r.table
  | keep r closure => a.keep r closure

/-- The symbol whose closure is counted. -/
def counted? : Deed → Option SymbolRef
  | count r => some r
  | keep _ _ => none

/-- The symbol whose closure is kept. -/
def kept? : Deed → Option SymbolRef
  | count _ => none
  | keep r _ => some r

end Call.Deed

/-- What the next step of a call does to the atlas, if it does anything. -/
def Call.deed? (a : Atlas) (c : Call) : Option Call.Deed :=
  match c.phase with
  | .locked => if (a.kept? c.root).isSome then none else some (.count c.root)
  | .searching [] found => some (.keep c.root found)
  | _ => none

/-- What calls do to the atlas when they take steps in the given order. -/
def Calls.deeds (s : Calls) : (turns : List Nat) → List Call.Deed
  | [] => []
  | i :: turns =>
    match s.calls[i]?, s.step i with
    | some c, some s' => (c.deed? s.atlas).toList ++ s'.deeds turns
    | _, _ => []

/-- Calls for the closures of some symbols, none of which has taken a step. -/
def Calls.opened (a : Atlas) (roots : List SymbolRef) : Calls :=
  ⟨a, roots.map fun root => { root }⟩

/-! ## One step -/

namespace Call

/-- **The atlas changes by the deed of the step**, and not otherwise. -/
theorem Phase.Step.perform {a : Atlas} {free : Bool} {r : SymbolRef} {before : Phase} {a' : Atlas}
    {after : Phase} (h : Phase.Step a free r before a' after) :
    a' = ((Call.mk r before).deed? a).toList.foldl Deed.perform a := by
  cases h with
  | recheck hk => simp [deed?, hk]
  | search hs hk => simp [deed?, hk, Deed.perform]
  | hit | miss | lock | visit | refuse | keep | release => rfl

/-- A deed is done at the beginning of a search that finds nothing kept, or at the end of one. -/
theorem deed?_cases {a : Atlas} {c : Call} {d : Deed} (h : c.deed? a = some d) :
    (d = .count c.root ∧ c.phase = .locked ∧ a.kept? c.root = none) ∨
      ∃ found, d = .keep c.root found ∧ c.phase = .searching [] found := by
  unfold deed? at h
  split at h
  · next hphase =>
      split at h
      · cases h
      · next hk => exact Or.inl ⟨(Option.some.inj h).symm, hphase, by simpa using hk⟩
  · next found hphase => exact Or.inr ⟨found, (Option.some.inj h).symm, hphase⟩
  · cases h

end Call

namespace Calls

theorem atlas_step {s s' : Calls} {i : Nat} {c : Call} (hc : s.calls[i]? = some c)
    (hstep : s.step i = some s') :
    s'.atlas = (c.deed? s.atlas).toList.foldl Call.Deed.perform s.atlas := by
  obtain ⟨c', a, phase, hc', hnext, rfl⟩ := step_cases hstep
  obtain rfl := Option.some.inj (hc'.symm.trans hc)
  exact hnext.perform

namespace Consistent

variable {b : Atlas} {s s' : Calls} {i : Nat}

theorem kept_step (h : Consistent b s) (hstep : s.step i = some s') {r : SymbolRef}
    {closure : List SymbolRef} (hk : s.atlas.kept? r = some closure) :
    s'.atlas.kept? r = some closure := by
  obtain ⟨c, a, phase, hc, hnext, rfl⟩ := step_cases hstep
  rcases hnext.kept r with hsame | ⟨rfl, hsearch⟩
  · exact hsame.trans hk
  · rw [(h.searching hc hsearch).1] at hk
    cases hk

theorem started_step (h : Consistent b s) (hstep : s.step i = some s') {r : SymbolRef}
    (hr : s.Started r) : s'.Started r := by
  obtain ⟨c, a, phase, hc, hnext, rfl⟩ := step_cases hstep
  obtain ⟨sc, hsc⟩ := h.exists_symbol hc
  rcases hnext.counts h.settled hsc (h.fact hc) with ⟨hlocked, -, -, rfl⟩ | ⟨-, hback, hforth⟩
  · -- the call that begins to search was not searching before
    rw [started_iff hc, hlocked] at hr
    rw [started_set_iff hc, Atlas.kept?_countClosure]
    rcases hr with hkept | ⟨-, hsearch⟩ | hother
    · exact Or.inl hkept
    · cases hsearch
    · exact Or.inr (Or.inr hother)
  · exact (h.started_next_iff hc hnext hback hforth r).mpr hr

/-- The closure that a step keeps was not kept before. -/
theorem keep_step (h : Consistent b s) (hstep : s.step i = some s') {c : Call}
    (hc : s.calls[i]? = some c) {r : SymbolRef} {closure : List SymbolRef}
    (hd : c.deed? s.atlas = some (.keep r closure)) :
    s.atlas.kept? r = none ∧ s'.atlas.kept? r = some closure := by
  rcases Call.deed?_cases hd with ⟨hcount, -⟩ | ⟨found, hkeep, hphase⟩
  · cases hcount
  · obtain ⟨rfl, rfl⟩ := Call.Deed.keep.inj hkeep
    have hsearch : c.phase.isSearching = true := by
      rw [hphase]
      rfl
    obtain ⟨sc, hsc⟩ := h.exists_symbol hc
    refine ⟨(h.searching hc hsearch).1, ?_⟩
    rw [atlas_step hc hstep, hd]
    exact Atlas.kept?_keep_self (by simp [hsc]) closure

/-- The closure that a step counts was not started before, and is from then on. -/
theorem count_step (h : Consistent b s) (hstep : s.step i = some s') {c : Call}
    (hc : s.calls[i]? = some c) {r : SymbolRef} (hd : c.deed? s.atlas = some (.count r)) :
    ¬ s.Started r ∧ s'.Started r := by
  rcases Call.deed?_cases hd with ⟨hcount, hphase, hnone⟩ | ⟨found, hkeep, -⟩
  · obtain rfl := Call.Deed.count.inj hcount
    refine ⟨h.not_started hc hphase hnone, ?_⟩
    obtain ⟨c', a, phase, hc', hnext, rfl⟩ := step_cases hstep
    obtain rfl := Option.some.inj (hc'.symm.trans hc)
    rw [hphase] at hnext
    rw [started_set_iff hc']
    cases hnext with
    | recheck hk =>
        rw [hnone] at hk
        cases hk
    | search => exact Or.inr (Or.inl ⟨rfl, rfl⟩)
  · cases hkeep

end Consistent

/-! ## Whole runs -/

theorem follow_cons {s s' : Calls} {i : Nat} {turns : List Nat}
    (hrun : s.follow (i :: turns) = some s') :
    ∃ c t, s.calls[i]? = some c ∧ s.step i = some t ∧ t.follow turns = some s' ∧
      s.deeds (i :: turns) = (c.deed? s.atlas).toList ++ t.deeds turns := by
  unfold follow at hrun
  rw [List.foldlM_cons] at hrun
  obtain ⟨t, hstep, hrest⟩ := Option.bind_eq_some_iff.mp hrun
  obtain ⟨c, -, -, hc, -⟩ := step_cases hstep
  refine ⟨c, t, hc, hstep, hrest, ?_⟩
  rw [deeds, hc, hstep]

/-- **The atlas after a run is what the deeds of the run make of it.** -/
theorem atlas_follow {turns : List Nat} {s s' : Calls} (hrun : s.follow turns = some s') :
    s'.atlas = (s.deeds turns).foldl Call.Deed.perform s.atlas := by
  induction turns generalizing s with
  | nil =>
      obtain rfl : s = s' := Option.some.inj hrun
      rfl
  | cons i turns ih =>
      obtain ⟨c, t, hc, hstep, hrest, hdeeds⟩ := follow_cons hrun
      rw [hdeeds, List.foldl_append, ← atlas_step hc hstep]
      exact ih hrest

namespace Consistent

variable {b : Atlas}

theorem kept_follow {turns : List Nat} {s s' : Calls} (h : Consistent b s)
    (hrun : s.follow turns = some s') {r : SymbolRef} {closure : List SymbolRef}
    (hk : s.atlas.kept? r = some closure) : s'.atlas.kept? r = some closure :=
  (foldlM_invariant (P := fun t => Consistent b t ∧ t.atlas.kept? r = some closure)
    (fun ht hstep => ⟨ht.1.step hstep, ht.1.kept_step hstep ht.2⟩) ⟨h, hk⟩ hrun).2

/-- A closure that was kept along a run is kept at its end. -/
theorem kept_of_mem_deeds {turns : List Nat} {s s' : Calls} (h : Consistent b s)
    (hrun : s.follow turns = some s') {r : SymbolRef} {closure : List SymbolRef}
    (hmem : .keep r closure ∈ s.deeds turns) : s'.atlas.kept? r = some closure := by
  induction turns generalizing s with
  | nil => cases hmem
  | cons i turns ih =>
      obtain ⟨c, t, hc, hstep, hrest, hdeeds⟩ := follow_cons hrun
      rw [hdeeds, List.mem_append, Option.mem_toList] at hmem
      rcases hmem with hfirst | hmem
      · exact (h.step hstep).kept_follow hrest (h.keep_step hstep hc hfirst).2
      · exact ih (h.step hstep) hrest hmem

/-- **Deeds that mark their symbol for good are done once for each symbol.** The sort of the deeds
is given by the symbol `f` that they are about, the mark by `M`. -/
theorem nodup_deeds {f : Call.Deed → Option SymbolRef} {M : Calls → SymbolRef → Prop}
    (hstay : ∀ {s t : Calls} {i : Nat} {r : SymbolRef}, Consistent b s → s.step i = some t →
      M s r → M t r)
    (hmark : ∀ {s t : Calls} {i : Nat} {c : Call} {d : Call.Deed} {r : SymbolRef},
      Consistent b s → s.step i = some t → s.calls[i]? = some c → c.deed? s.atlas = some d →
      f d = some r → ¬ M s r ∧ M t r)
    {turns : List Nat} {s s' : Calls} (h : Consistent b s) (hrun : s.follow turns = some s') :
    ((s.deeds turns).filterMap f).Nodup ∧ ∀ r ∈ (s.deeds turns).filterMap f, ¬ M s r := by
  induction turns generalizing s with
  | nil => exact ⟨List.nodup_nil, fun r hr => by cases hr⟩
  | cons i turns ih =>
      obtain ⟨c, t, hc, hstep, hrest, hdeeds⟩ := follow_cons hrun
      obtain ⟨hnodup, hnew⟩ := ih (h.step hstep) hrest
      have hlater : ∀ r ∈ (t.deeds turns).filterMap f, ¬ M s r :=
        fun r hr hM => hnew r hr (hstay h hstep hM)
      rw [hdeeds, List.filterMap_append]
      cases hd : c.deed? s.atlas with
      | none => exact ⟨hnodup, hlater⟩
      | some d =>
          cases hf : f d with
          | none =>
              have hnone : [d].filterMap f = [] := by simp [hf]
              rw [Option.toList_some, hnone]
              exact ⟨hnodup, hlater⟩
          | some r =>
              -- this deed marks `r`, and later ones are about symbols that are not marked then
              obtain ⟨hbefore, hafter⟩ := hmark h hstep hc hd hf
              have hone : [d].filterMap f = [r] := by simp [hf]
              rw [Option.toList_some, hone, List.singleton_append]
              refine ⟨List.nodup_cons.mpr ⟨fun hr => hnew r hr hafter, hnodup⟩, ?_⟩
              intro q hq
              rcases List.mem_cons.mp hq with rfl | hq
              · exact hbefore
              · exact hlater q hq

/-- **Every closure is kept at most once**, and only if it was not kept at the beginning. -/
theorem nodup_kept {turns : List Nat} {s s' : Calls} (h : Consistent b s)
    (hrun : s.follow turns = some s') :
    ((s.deeds turns).filterMap Call.Deed.kept?).Nodup ∧
      ∀ r ∈ (s.deeds turns).filterMap Call.Deed.kept?, ¬ (s.atlas.kept? r).isSome := by
  refine nodup_deeds (M := fun t r => (t.atlas.kept? r).isSome) ?_ ?_ h hrun
  · intro s t i r hs hstep hk
    obtain ⟨closure, hclosure⟩ := Option.isSome_iff_exists.mp hk
    simp [hs.kept_step hstep hclosure]
  · intro s t i c d r hs hstep hc hd hr
    cases d with
    | count q => cases hr
    | keep q closure =>
        obtain rfl := Option.some.inj hr
        obtain ⟨hnone, hsome⟩ := hs.keep_step hstep hc hd
        simp [hnone, hsome]

/-- **Every closure is counted at most once**, and only if it was not started at the beginning. -/
theorem nodup_counted {turns : List Nat} {s s' : Calls} (h : Consistent b s)
    (hrun : s.follow turns = some s') :
    ((s.deeds turns).filterMap Call.Deed.counted?).Nodup ∧
      ∀ r ∈ (s.deeds turns).filterMap Call.Deed.counted?, ¬ s.Started r := by
  refine nodup_deeds (M := Started) ?_ ?_ h hrun
  · exact fun hs hstep hr => hs.started_step hstep hr
  · intro s t i c d r hs hstep hc hd hr
    cases d with
    | count q =>
        obtain rfl := Option.some.inj hr
        exact hs.count_step hstep hc hd
    | keep q closure => cases hr

/-- A step raises the counter of a table by the closures of the table that it counts. -/
theorem stats_step {s s' : Calls} {i : Nat} (h : Consistent b s) (hstep : s.step i = some s')
    {c : Call} (hc : s.calls[i]? = some c) (table : Nat) :
    (s'.atlas.stats table).1 = (s.atlas.stats table).1 +
      ((c.deed? s.atlas).toList.filterMap Call.Deed.counted?).countP (·.table = table) := by
  obtain ⟨sc, hsc⟩ := h.exists_symbol hc
  rw [atlas_step hc hstep]
  cases hd : c.deed? s.atlas with
  | none => rfl
  | some d =>
      rcases Call.deed?_cases hd with ⟨rfl, -⟩ | ⟨found, rfl, -⟩
      · have hcount := Atlas.stats_countClosure hsc table
        simpa [Call.Deed.perform, Call.Deed.counted?, List.countP_cons] using hcount
      · have hkeep := s.atlas.stats_keep c.root found table
        simp [Call.Deed.perform, Call.Deed.counted?, hkeep]

/-- **The counter of a table grows by one for each closure of the table that is counted.** -/
theorem stats_follow {turns : List Nat} {s s' : Calls} (h : Consistent b s)
    (hrun : s.follow turns = some s') (table : Nat) :
    (s'.atlas.stats table).1 = (s.atlas.stats table).1 +
      ((s.deeds turns).filterMap Call.Deed.counted?).countP (·.table = table) := by
  induction turns generalizing s with
  | nil =>
      obtain rfl : s = s' := Option.some.inj hrun
      rfl
  | cons i turns ih =>
      obtain ⟨c, t, hc, hstep, hrest, hdeeds⟩ := follow_cons hrun
      have hfirst := h.stats_step hstep hc table
      have hlater := ih (h.step hstep) hrest
      rw [hdeeds, List.filterMap_append, List.countP_append]
      omega

/-- While a call is not over, some call that is not over can take its next step. -/
theorem exists_step {s : Calls} (h : Consistent b s) {i : Nat} {c : Call}
    (hc : s.calls[i]? = some c) (hover : c.phase.isAnswered = false) :
    ∃ (j : Nat) (d : Call), s.calls[j]? = some d ∧ d.phase.isAnswered = false ∧
      (s.step j).isSome := by
  obtain ⟨j, d, hd, ⟨a, phase⟩, hnext⟩ := h.progress hc hover
  refine ⟨j, d, hd, ?_, ?_⟩
  · cases hp : d.phase with
    | answered answer =>
        rw [hp] at hnext
        cases hnext
    | asked | missed | locked | searching | releasing => rfl
  · unfold Calls.step
    simp [hd, hnext]

end Consistent

/-! ## All that calls may rely on -/

/-- The account of calls on the atlas `b` that have come to `s` by these deeds. -/
structure Account (b : Atlas) (s : Calls) (deeds : List Call.Deed) : Prop where
  /-- The atlas has changed by the deeds, and not otherwise. -/
  performed : s.atlas = deeds.foldl Call.Deed.perform b
  /-- No closure was kept twice, -/
  kept_once : (deeds.filterMap Call.Deed.kept?).Nodup
  /-- nor after it was there already, and none is replaced. -/
  kept_new : ∀ {r closure}, .keep r closure ∈ deeds →
    b.kept? r = none ∧ s.atlas.kept? r = some closure
  /-- What is kept holds every other symbol that is reached, each once, and nothing else. -/
  exact : ∀ {r closure}, s.atlas.kept? r = some closure →
    closure.Nodup ∧ ∀ q, q ∈ closure ↔ q ≠ r ∧ b.Reaches r q
  /-- A call that is over has found the closure that is kept, -/
  answered : ∀ {i : Nat} {c : Call} {answer}, s.calls[i]? = some c → c.phase = .answered answer →
    ∃ closure, answer = .ok closure ∧ s.atlas.kept? c.root = some closure
  /-- and all calls on one symbol have one answer. -/
  agree : ∀ {i j : Nat} {c d : Call} {answer answer'}, s.calls[i]? = some c →
    s.calls[j]? = some d → c.root = d.root → c.phase = .answered answer →
    d.phase = .answered answer' → answer = answer'
  /-- No closure was counted twice, -/
  counted_once : (deeds.filterMap Call.Deed.counted?).Nodup
  /-- and the counters say how many were counted. -/
  counted : ∀ table, (s.atlas.stats table).1 = (b.stats table).1 +
    (deeds.filterMap Call.Deed.counted?).countP (·.table = table)
  /-- While a call is not over, there is one that is not over and can go on. -/
  goes_on : ∀ {i : Nat} {c : Call}, s.calls[i]? = some c → c.phase.isAnswered = false →
    ∃ (j : Nat) (d : Call), s.calls[j]? = some d ∧ d.phase.isAnswered = false ∧ (s.step j).isSome
  /-- Every step leaves less to do, -/
  nearer : ∀ {i : Nat} {t : Calls}, s.step i = some t → t.left < s.left
  /-- and all calls can be brought to their end. -/
  ends : ∃ turns t, s.follow turns = some t ∧ ∀ c ∈ t.calls, c.phase.isAnswered = true
  /-- A further call does what `allDependencies` does, if the others stand still. -/
  alone : ∀ {i : Nat} {c : Call}, s.calls[i]? = some c → ∃ answer,
    Leads ⟨s.atlas, [{ root := c.root }]⟩
      ⟨(exec (AtlasM.allDependencies c.root) s.atlas).2, [⟨c.root, .answered answer⟩]⟩ ∧
    (exec (AtlasM.allDependencies c.root) s.atlas).1
      = answer.mapError fun u => .contract .unboundReached (s.atlas.text (some u))

/-- **Calls on one atlas share their closures.** Any number of calls for the closures of any symbols
of a settled atlas may take their steps in any order. -/
theorem account_follow {b : Atlas} (hb : b.Settled) {roots : List SymbolRef}
    (hroots : ∀ r ∈ roots, (b.symbol? r).isSome) {turns : List Nat} {s : Calls}
    (hrun : (opened b roots).follow turns = some s) :
    s.Account b ((opened b roots).deeds turns) := by
  have hstart : Consistent b (opened b roots) := .start hb hroots
  have hend : Consistent b s := hstart.follow hrun
  obtain ⟨hkept, hnew⟩ := hstart.nodup_kept hrun
  have hanswer : ∀ {i : Nat} {c : Call} {answer}, s.calls[i]? = some c →
      c.phase = .answered answer →
      ∃ closure, answer = .ok closure ∧ s.atlas.kept? c.root = some closure := by
    intro i c answer hc hphase
    have hfact := hend.fact hc
    rw [hphase] at hfact
    exact hfact
  -- what is left: the new closures, their exactness, and equal answers
  refine ⟨atlas_follow hrun, hkept, ?_, ?_, hanswer, ?_, (hstart.nodup_counted hrun).1,
    hstart.stats_follow hrun, hend.exists_step, hend.left_lt, hend.exists_end, ?_⟩
  · intro r closure hmem
    have hr : ¬ (b.kept? r).isSome := hnew r (List.mem_filterMap.mpr ⟨_, hmem, rfl⟩)
    exact ⟨by simpa using hr, hstart.kept_of_mem_deeds hrun hmem⟩
  · intro r closure hk
    have hexact := hend.same.symm.isClosure (hend.settled.isClosure hk)
    exact ⟨hexact.nodup, hexact.mem_iff⟩
  · intro i j c d answer answer' hc hd hroot hphase hphase'
    obtain ⟨closure, rfl, hk⟩ := hanswer hc hphase
    obtain ⟨closure', rfl, hk'⟩ := hanswer hd hphase'
    rw [hroot, hk'] at hk
    rw [Option.some.inj hk]
  · intro i c hc
    obtain ⟨sc, hsc⟩ := hend.exists_symbol hc
    exact leads_allDependencies hend.settled.coherent hsc

def answers (s : Calls) : List (Option (List SymbolRef)) :=
  s.calls.map fun c => match c.phase with
    | .answered (.ok closure) => some closure
    | _ => none

end Calls

/-- Two types that depend on each other, both bound, and no closure is kept. -/
def mutualTypes : Atlas :=
  [AtlasM.after (AtlasM.declare 0 twoTypes 0), AtlasM.after (AtlasM.declare 0 twoTypes 1),
    AtlasM.after (AtlasM.setDependencies ⟨0, 1⟩ [some ⟨0, 2⟩, none]),
    AtlasM.after (AtlasM.setDependencies ⟨0, 2⟩ [some ⟨0, 1⟩, some ⟨0, 2⟩]),
    AtlasM.after (AtlasM.markBound ⟨0, 1⟩),
    AtlasM.after (AtlasM.markBound ⟨0, 2⟩)].foldl (fun a f => f a) (.blank [4])

/-- Two calls for the closure of the one type and one for that of the other: the first and the
second search at the same time, and the third waits for the first. In the end all have their
answers. -/
theorem account_mutualTypes : ∃ s,
    (Calls.opened mutualTypes [⟨0, 1⟩, ⟨0, 2⟩, ⟨0, 1⟩]).follow
      [0, 1, 2, 0, 1, 0, 1, 1, 0, 1, 1, 0, 0, 2, 2, 2] = some s ∧
    s.answers = [some [⟨0, 2⟩], some [⟨0, 1⟩], some [⟨0, 2⟩]] ∧ s.left = 0 ∧
    s.Account mutualTypes ((Calls.opened mutualTypes [⟨0, 1⟩, ⟨0, 2⟩, ⟨0, 1⟩]).deeds
      [0, 1, 2, 0, 1, 0, 1, 1, 0, 1, 1, 0, 0, 2, 2, 2]) := by
  have hsettled : mutualTypes.Settled := .of_unkept (by decide)
  have hroots : ∀ r ∈ [⟨0, 1⟩, ⟨0, 2⟩, ⟨0, 1⟩], (mutualTypes.symbol? r).isSome := by decide
  have hrun : ((Calls.opened mutualTypes [⟨0, 1⟩, ⟨0, 2⟩, ⟨0, 1⟩]).follow
      [0, 1, 2, 0, 1, 0, 1, 1, 0, 1, 1, 0, 0, 2, 2, 2]).map (fun s => (s.answers, s.left))
      = some ([some [⟨0, 2⟩], some [⟨0, 1⟩], some [⟨0, 2⟩]], 0) := by decide +kernel
  obtain ⟨s, hs, hend⟩ := Option.map_eq_some_iff.mp hrun
  obtain ⟨hanswers, hleft⟩ := Prod.mk.inj hend
  exact ⟨s, hs, hanswers, hleft, Calls.account_follow hsettled hroots hs⟩

end SymbolAtlas
