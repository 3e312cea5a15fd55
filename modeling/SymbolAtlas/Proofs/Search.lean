import SymbolAtlas.Proofs.Lookup
import SymbolAtlas.Symbol.Closure

set_option autoImplicit false

/-! # The search for a closure

`Reaches` is the declarative side of a closure: one or more direct dependencies in a row. The search
of `gather` is compared with it through the invariant `Search`, which one round keeps (`visit_ok`)
whether the round skips a symbol, takes over a known closure or expands the direct dependencies.
`closureOf_spec` reads the invariant off at the end of the search, and `gather_fuel` says that the
search has ended by then. -/

namespace SymbolAtlas.Atlas

/-! ## Reachability -/

def DependsOn (a : Atlas) (x y : SymbolRef) : Prop :=
  ∃ s, a.symbol? x = some s ∧ some y ∈ s.direct

/-- One or more direct dependencies lead from a symbol to another. -/
def Reaches (a : Atlas) : SymbolRef → SymbolRef → Prop :=
  Relation.TransGen a.DependsOn

def Bound (a : Atlas) (r : SymbolRef) : Prop :=
  ∃ s, a.symbol? r = some s ∧ s.bound = true

theorem bound_iff {a : Atlas} {r : SymbolRef} :
    a.Bound r ↔ (a.symbol? r).map Symbol.bound = some true := by
  simp [Bound]

instance (a : Atlas) (r : SymbolRef) : Decidable (a.Bound r) :=
  decidable_of_iff _ bound_iff.symm

/-- **What the closure of `r` has to be**: the symbols other than `r` that `r` reaches, each once
and every one bound. -/
structure IsClosure (a : Atlas) (r : SymbolRef) (c : List SymbolRef) : Prop where
  nodup : c.Nodup
  mem_iff : ∀ q, q ∈ c ↔ q ≠ r ∧ a.Reaches r q
  bound : ∀ q ∈ c, a.Bound q

/-- Every direct dependency is a symbol, and every closure that is kept is exact. -/
structure Coherent (a : Atlas) : Prop where
  exists_of_dependsOn : ∀ {x y}, a.DependsOn x y → (a.symbol? y).isSome
  bound_of_closure : ∀ {r s c}, a.symbol? r = some s → s.closure = some c → s.bound = true
  isClosure : ∀ {r s c}, a.symbol? r = some s → s.closure = some c → a.IsClosure r c

theorem Coherent.exists_of_reaches {a : Atlas} (h : a.Coherent) {x y : SymbolRef}
    (hxy : a.Reaches x y) : (a.symbol? y).isSome := by
  cases hxy with
  | single hy => exact h.exists_of_dependsOn hy
  | tail _ hy => exact h.exists_of_dependsOn hy

/-- What can be met on the way from `root` is a symbol, and the closures kept there are exact. -/
structure CoherentFrom (a : Atlas) (root : SymbolRef) : Prop where
  exists_of_reaches : ∀ {q}, a.Reaches root q → (a.symbol? q).isSome
  isClosure : ∀ {q s c}, a.Reaches root q → a.symbol? q = some s → s.closure = some c →
    a.IsClosure q c

theorem Coherent.fromRoot {a : Atlas} (h : a.Coherent) (root : SymbolRef) : a.CoherentFrom root :=
  ⟨h.exists_of_reaches, fun _ => h.isClosure⟩

/-! ## The two ways to meet symbols -/

/-- What is pending after the new dependencies have joined. -/
theorem mem_enqueue (root : SymbolRef) (found : List SymbolRef) (deps : List (Option SymbolRef))
    (pending : List SymbolRef) (q : SymbolRef) :
    q ∈ enqueue root found deps pending
      ↔ q ∈ pending ∨ (some q ∈ deps ∧ q ≠ root ∧ q ∉ found) := by
  induction deps generalizing pending with
  | nil => simp [enqueue]
  | cons dep deps ih =>
      cases dep with
      | none => simp [enqueue, ih]
      | some d =>
          by_cases hd : d = root ∨ d ∈ found ∨ d ∈ pending
          · rw [enqueue, if_pos hd, ih]
            constructor
            · rintro (h | ⟨h1, h2⟩)
              · exact Or.inl h
              · exact Or.inr ⟨List.mem_cons_of_mem _ h1, h2⟩
            · rintro (h | ⟨h1, h2, h3⟩)
              · exact Or.inl h
              · rcases List.mem_cons.mp h1 with h1 | h1
                · -- the head itself was passed over, so it is pending already
                  obtain rfl : q = d := by simpa using h1
                  exact Or.inl (by tauto)
                · exact Or.inr ⟨h1, h2, h3⟩
          · rw [enqueue, if_neg hd, ih]
            push Not at hd
            constructor
            · rintro (h | ⟨h1, h2⟩)
              · rcases List.mem_append.mp h with h | h
                · exact Or.inl h
                · obtain rfl : q = d := by simpa using h
                  exact Or.inr ⟨List.mem_cons_self, hd.1, hd.2.1⟩
              · exact Or.inr ⟨List.mem_cons_of_mem _ h1, h2⟩
            · rintro (h | ⟨h1, h2, h3⟩)
              · exact Or.inl (List.mem_append_left _ h)
              · rcases List.mem_cons.mp h1 with h1 | h1
                · obtain rfl : q = d := by simpa using h1
                  exact Or.inl (by simp)
                · exact Or.inr ⟨h1, h2, h3⟩

/-- No symbol is queued twice over a search whose visited symbols are all found. -/
theorem nodup_enqueue (root : SymbolRef) (found : List SymbolRef)
    (deps : List (Option SymbolRef)) {visited pending : List SymbolRef}
    (hn : (visited ++ pending).Nodup) (hv : ∀ q ∈ visited, q ∈ found) :
    (visited ++ enqueue root found deps pending).Nodup := by
  induction deps generalizing pending with
  | nil => exact hn
  | cons dep deps ih =>
      cases dep with
      | none => exact ih hn
      | some d =>
          by_cases hd : d = root ∨ d ∈ found ∨ d ∈ pending
          · rw [enqueue, if_pos hd]
            exact ih hn
          · rw [enqueue, if_neg hd]
            push Not at hd
            have hfresh : d ∉ visited ++ pending := by
              rw [List.mem_append]
              rintro (h | h)
              · exact hd.2.1 (hv d h)
              · exact hd.2.2 h
            refine ih ?_
            rw [← List.append_assoc]
            exact hn.append (List.nodup_singleton d) (List.disjoint_singleton.mpr hfresh)

/-- What is found after a closure has been taken over. -/
theorem mem_absorb (root : SymbolRef) (closure found : List SymbolRef) (q : SymbolRef) :
    q ∈ absorb root closure found ↔ q ∈ found ∨ (q ∈ closure ∧ q ≠ root) := by
  induction closure generalizing found with
  | nil => simp [absorb]
  | cons d closure ih =>
      by_cases hd : d = root ∨ d ∈ found
      · rw [absorb, if_pos hd, ih, List.mem_cons]
        constructor
        · tauto
        · rintro (h | ⟨rfl | h, hne⟩) <;> tauto
      · rw [absorb, if_neg hd, ih, List.mem_append, List.mem_singleton, List.mem_cons]
        push Not at hd
        constructor
        · rintro ((h | rfl) | h)
          · exact Or.inl h
          · exact Or.inr ⟨Or.inl rfl, hd.1⟩
          · exact Or.inr ⟨Or.inr h.1, h.2⟩
        · tauto

theorem nodup_absorb (root : SymbolRef) (closure : List SymbolRef) {found : List SymbolRef}
    (hn : found.Nodup) : (absorb root closure found).Nodup := by
  induction closure generalizing found with
  | nil => exact hn
  | cons d closure ih =>
      by_cases hd : d = root ∨ d ∈ found
      · rw [absorb, if_pos hd]
        exact ih hn
      · rw [absorb, if_neg hd]
        push Not at hd
        exact ih (hn.append (List.nodup_singleton d) (List.disjoint_singleton.mpr hd.2))

theorem length_le_absorb (root : SymbolRef) (closure found : List SymbolRef) :
    found.length ≤ (absorb root closure found).length := by
  induction closure generalizing found with
  | nil => exact Nat.le_refl _
  | cons d closure ih =>
      by_cases hd : d = root ∨ d ∈ found
      · rw [absorb, if_pos hd]
        exact ih found
      · have hle := ih (found ++ [d])
        rw [List.length_append, List.length_singleton] at hle
        rw [absorb, if_neg hd]
        omega

/-! ## One round -/

/-- One round of the search: `r` was first among the pending symbols. -/
def visit (a : Atlas) (root r : SymbolRef) (pending found : List SymbolRef) :
    Except SymbolRef (List SymbolRef × List SymbolRef) :=
  match a.symbol? r with
  | none => .error r
  | some s =>
    if !s.bound then .error r
    else if r ∈ found then .ok (pending, found)
    else
      match s.closure with
      | some closure => .ok (pending, absorb root closure (found ++ [r]))
      | none => .ok (enqueue root (found ++ [r]) s.direct pending, found ++ [r])

theorem gather_cons (a : Atlas) (root r : SymbolRef) (fuel : Nat) (pending found : List SymbolRef) :
    a.gather root (fuel + 1) (r :: pending) found
      = match a.visit root r pending found with
        | .error u => .error u
        | .ok (pending, found) => a.gather root fuel pending found := by
  rw [gather, visit]
  cases a.symbol? r with
  | none => rfl
  | some s =>
      by_cases hb : s.bound
      · by_cases hr : r ∈ found
        · simp [hb, hr]
        · cases hc : s.closure <;> simp [hb, hr, hc]
      · simp [hb]

/-- **The invariant of the search.** `visited` are the symbols taken from the queue so far. All that
was met is reached from the root; what the root or a found symbol depends on is the root, found or
still pending. A pending symbol may have been found meanwhile, as part of a closure. -/
structure Search (a : Atlas) (root : SymbolRef) (visited pending found : List SymbolRef) :
    Prop where
  queued_nodup : (visited ++ pending).Nodup
  found_nodup : found.Nodup
  visited_found : ∀ q ∈ visited, q ∈ found
  found_bound : ∀ q ∈ found, a.Bound q
  found_reached : ∀ q ∈ found, q ≠ root ∧ a.Reaches root q
  pending_reached : ∀ q ∈ pending, q ≠ root ∧ a.Reaches root q
  closed : ∀ q, q = root ∨ q ∈ found → ∀ d, a.DependsOn q d → d = root ∨ d ∈ found ∨ d ∈ pending

namespace Search

variable {a : Atlas} {root r : SymbolRef} {visited pending found : List SymbolRef} {s : Symbol}

/-- The search starts from the direct dependencies of the root. -/
theorem start (hs : a.symbol? root = some s) :
    a.Search root [] (enqueue root [] s.direct []) [] where
  queued_nodup := nodup_enqueue root [] s.direct List.nodup_nil (by simp)
  found_nodup := List.nodup_nil
  visited_found := by simp
  found_bound := by simp
  found_reached := by simp
  pending_reached := by
    intro q hq
    rw [mem_enqueue] at hq
    rcases hq with hq | ⟨hdep, hne, -⟩
    · simp at hq
    · exact ⟨hne, .single ⟨s, hs, hdep⟩⟩
  closed := by
    rintro q (rfl | hq) d ⟨s', hs', hd⟩
    · obtain rfl : s = s' := Option.some.inj (hs.symm.trans hs')
      by_cases hdr : d = q
      · exact Or.inl hdr
      · exact Or.inr (Or.inr ((mem_enqueue ..).mpr (Or.inr ⟨hd, hdr, by simp⟩)))
    · simp at hq

theorem queued_cons (h : a.Search root visited (r :: pending) found) :
    ((visited ++ [r]) ++ pending).Nodup := by
  rw [List.append_assoc]
  exact h.queued_nodup

/-- **A round keeps the invariant.** It takes `r` from the queue, finds `r` and some symbols that
`r` reaches, queues others, and leaves no dependency of what it finds behind. -/
theorem round (h : a.Search root visited (r :: pending) found) {pending' found' : List SymbolRef}
    (hqueued : ((visited ++ [r]) ++ pending').Nodup) (hnodup : found'.Nodup) (hr : r ∈ found')
    (hfound : found ⊆ found') (hpending : pending ⊆ pending')
    (hnew : ∀ q ∈ found', q ∈ found ∨ a.Bound q ∧ q ≠ root ∧ (q = r ∨ a.Reaches r q))
    (hnext : ∀ q ∈ pending', q ∈ pending ∨ q ≠ root ∧ a.Reaches r q)
    (hclosed : ∀ q ∈ found', q ∉ found → ∀ d, a.DependsOn q d → d = root ∨ d ∈ found' ∨
      d ∈ pending') :
    a.Search root (visited ++ [r]) pending' found' := by
  have hreach : r ≠ root ∧ a.Reaches root r := h.pending_reached r List.mem_cons_self
  refine ⟨hqueued, hnodup, ?_, ?_, ?_, ?_, ?_⟩
  · intro q hq
    rcases List.mem_append.mp hq with hq | hq
    · exact hfound (h.visited_found q hq)
    · rwa [List.mem_singleton.mp hq]
  · intro q hq
    rcases hnew q hq with hold | ⟨hb, -, -⟩
    · exact h.found_bound q hold
    · exact hb
  · intro q hq
    rcases hnew q hq with hold | ⟨-, hne, rfl | hrq⟩
    · exact h.found_reached q hold
    · exact hreach
    · exact ⟨hne, hreach.2.trans hrq⟩
  · intro q hq
    rcases hnext q hq with hold | ⟨hne, hrq⟩
    · exact h.pending_reached q (List.mem_cons_of_mem r hold)
    · exact ⟨hne, hreach.2.trans hrq⟩
  · intro q hq d hd
    by_cases hold : q = root ∨ q ∈ found
    · -- what was pending is still so, unless it is the symbol of the round
      rcases h.closed q hold d hd with hroot | hd | hd
      · exact Or.inl hroot
      · exact Or.inr (Or.inl (hfound hd))
      · rcases List.mem_cons.mp hd with rfl | hd
        · exact Or.inr (Or.inl hr)
        · exact Or.inr (Or.inr (hpending hd))
    · rw [not_or] at hold
      exact hclosed q (hq.resolve_left hold.1) hold.2 d hd

/-- A symbol that was found as part of a closure is passed over. -/
theorem skip (h : a.Search root visited (r :: pending) found) (hr : r ∈ found) :
    a.Search root (visited ++ [r]) pending found :=
  h.round h.queued_cons h.found_nodup hr (List.Subset.refl _) (List.Subset.refl _) (fun _ hq =>
    Or.inl hq)
    (fun _ hq => Or.inl hq) fun _ hq hnot => absurd hq hnot

/-- The exact closure of `r` is taken over as a whole: what its members depend on is in it. -/
theorem takeOver (h : a.Search root visited (r :: pending) found) (hb : a.Bound r)
    (hr : r ∉ found) {c : List SymbolRef} (hc : a.IsClosure r c) :
    a.Search root (visited ++ [r]) pending (absorb root c (found ++ [r])) := by
  have hmem : ∀ q, q ∈ absorb root c (found ++ [r]) ↔ (q ∈ found ∨ q = r) ∨ (q ∈ c ∧ q ≠ root) := by
    intro q
    rw [mem_absorb, List.mem_append, List.mem_singleton]
  have hnodup : (absorb root c (found ++ [r])).Nodup :=
    nodup_absorb root c
      (h.found_nodup.append (List.nodup_singleton r) (List.disjoint_singleton.mpr hr))
  -- whatever `r` reaches is the root or has been found by now
  have hall : ∀ d, a.Reaches r d → d = root ∨ d ∈ absorb root c (found ++ [r]) ∨ d ∈ pending := by
    intro d hd
    by_cases hdroot : d = root
    · exact Or.inl hdroot
    · refine Or.inr (Or.inl ((hmem d).mpr ?_))
      by_cases hdr : d = r
      · exact Or.inl (Or.inr hdr)
      · exact Or.inr ⟨(hc.mem_iff d).mpr ⟨hdr, hd⟩, hdroot⟩
  refine h.round h.queued_cons hnodup ((hmem r).mpr (Or.inl (Or.inr rfl)))
    (fun q hq => (hmem q).mpr (Or.inl (Or.inl hq))) (List.Subset.refl _) ?_ (fun _ hq =>
    Or.inl hq) ?_
  · intro q hq
    rcases (hmem q).mp hq with (hold | rfl) | ⟨hq, hne⟩
    · exact Or.inl hold
    · exact Or.inr ⟨hb, (h.pending_reached q List.mem_cons_self).1, Or.inl rfl⟩
    · exact Or.inr ⟨hc.bound q hq, hne, Or.inr ((hc.mem_iff q).mp hq).2⟩
  · intro q hq hnot d hd
    rcases (hmem q).mp hq with (hold | rfl) | ⟨hq, -⟩
    · exact absurd hold hnot
    · exact hall d (.single hd)
    · exact hall d (((hc.mem_iff q).mp hq).2.tail hd)

/-- The direct dependencies of `r` join the queue. -/
theorem expand (h : a.Search root visited (r :: pending) found) (hs : a.symbol? r = some s)
    (hb : s.bound = true) (hr : r ∉ found) :
    a.Search root (visited ++ [r]) (enqueue root (found ++ [r]) s.direct pending)
      (found ++ [r]) := by
  have hmem : r ∈ found ++ [r] := List.mem_append_right _ (List.mem_singleton.mpr rfl)
  have hfound : found ⊆ found ++ [r] := List.subset_append_left _ _
  have hvisited : ∀ q ∈ visited ++ [r], q ∈ found ++ [r] := by
    intro q hq
    rcases List.mem_append.mp hq with hq | hq
    · exact hfound (h.visited_found q hq)
    · rwa [List.mem_singleton.mp hq]
  have hnodup : (found ++ [r]).Nodup :=
    h.found_nodup.append (List.nodup_singleton r) (List.disjoint_singleton.mpr hr)
  -- what joins the queue is told by `mem_enqueue`
  refine h.round (nodup_enqueue root (found ++ [r]) s.direct h.queued_cons hvisited) hnodup
    hmem hfound
    (fun q hq => (mem_enqueue ..).mpr (Or.inl hq)) ?_ ?_ ?_
  · intro q hq
    rcases List.mem_append.mp hq with hold | hq
    · exact Or.inl hold
    · obtain rfl := List.mem_singleton.mp hq
      exact Or.inr ⟨⟨s, hs, hb⟩, (h.pending_reached q List.mem_cons_self).1, Or.inl rfl⟩
  · intro q hq
    rcases (mem_enqueue ..).mp hq with hold | ⟨hdep, hne, -⟩
    · exact Or.inl hold
    · exact Or.inr ⟨hne, .single ⟨s, hs, hdep⟩⟩
  · intro q hq hnot d hd
    obtain rfl := List.mem_singleton.mp ((List.mem_append.mp hq).resolve_left hnot)
    obtain ⟨s', hs', hd⟩ := hd
    obtain rfl : s = s' := Option.some.inj (hs.symm.trans hs')
    by_cases hdroot : d = root
    · exact Or.inl hdroot
    by_cases hdfound : d ∈ found ++ [q]
    · exact Or.inr (Or.inl hdfound)
    · exact Or.inr (Or.inr ((mem_enqueue ..).mpr (Or.inr ⟨hd, hdroot, hdfound⟩)))

/-- **At the end of a search the found symbols are the closure.** -/
theorem isClosure (h : a.Search root visited [] found) : a.IsClosure root found where
  nodup := h.found_nodup
  bound := h.found_bound
  mem_iff := by
    intro q
    constructor
    · exact h.found_reached q
    · rintro ⟨hne, hreach⟩
      -- along a path from the root no step leaves what was found
      have hpath : ∀ {q}, a.Reaches root q → q = root ∨ q ∈ found := by
        intro q hq
        induction hq with
        | single hd => simpa using h.closed root (Or.inl rfl) _ hd
        | tail _ hd ih => simpa using h.closed _ ih _ hd
      rcases hpath hreach with h' | h'
      · exact absurd h' hne
      · exact h'

end Search

/-! ## A whole search -/

section Runs

variable {a : Atlas} {root r : SymbolRef} {visited pending found : List SymbolRef}

/-- What a round that goes on can do: pass over a symbol, take over its closure, or expand it. -/
theorem visit_cases {pending' found' : List SymbolRef}
    (hv : a.visit root r pending found = .ok (pending', found')) :
    ∃ s, a.symbol? r = some s ∧ s.bound = true ∧
      ((r ∈ found ∧ pending' = pending ∧ found' = found) ∨
        (r ∉ found ∧ ∃ c, s.closure = some c ∧ pending' = pending ∧
          found' = absorb root c (found ++ [r])) ∨
        (r ∉ found ∧ pending' = enqueue root (found ++ [r]) s.direct pending ∧
          found' = found ++ [r])) := by
  unfold visit at hv
  cases hs : a.symbol? r with
  | none => simp [hs] at hv
  | some s =>
      by_cases hb : s.bound = true
      · refine ⟨s, rfl, hb, ?_⟩
        by_cases hr : r ∈ found
        · simp only [hs, hb, Bool.not_true, Bool.false_eq_true, if_false, hr, if_true,
            Except.ok.injEq, Prod.mk.injEq] at hv
          exact Or.inl ⟨hr, hv.1.symm, hv.2.symm⟩
        · cases hcl : s.closure with
          | some c =>
              simp only [hs, hb, Bool.not_true, Bool.false_eq_true, if_false, hr, hcl,
                Except.ok.injEq, Prod.mk.injEq] at hv
              exact Or.inr (Or.inl ⟨hr, c, rfl, hv.1.symm, hv.2.symm⟩)
          | none =>
              simp only [hs, hb, Bool.not_true, Bool.false_eq_true, if_false, hr, hcl,
                Except.ok.injEq, Prod.mk.injEq] at hv
              exact Or.inr (Or.inr ⟨hr, hv.1.symm, hv.2.symm⟩)
      · simp [hs, hb] at hv

/-- A round that goes on keeps the invariant; only the closure that it may read has to be exact. -/
theorem visit_ok (h : a.Search root visited (r :: pending) found)
    (hc : ∀ s c, a.symbol? r = some s → s.closure = some c → a.IsClosure r c)
    {pending' found' : List SymbolRef}
    (hv : a.visit root r pending found = .ok (pending', found')) :
    a.Search root (visited ++ [r]) pending' found' := by
  obtain ⟨s, hs, hb, ⟨hr, rfl, rfl⟩ | ⟨hr, c, hcl, rfl, rfl⟩ | ⟨hr, rfl, rfl⟩⟩ := visit_cases hv
  · exact h.skip hr
  · exact h.takeOver ⟨s, hs, hb⟩ hr (hc s c hs hcl)
  · exact h.expand hs hb hr

/-- A round that finds nothing new has one symbol less to go. -/
theorem visit_grows {pending' found' : List SymbolRef}
    (hv : a.visit root r pending found = .ok (pending', found')) :
    (pending' = pending ∧ found' = found) ∨ found.length < found'.length := by
  obtain ⟨s, -, -, ⟨-, hpending, hfound⟩ | ⟨-, c, -, -, rfl⟩ | ⟨-, -, rfl⟩⟩ := visit_cases hv
  · exact Or.inl ⟨hpending, hfound⟩
  · have hle := length_le_absorb root c (found ++ [r])
    rw [List.length_append, List.length_singleton] at hle
    exact Or.inr (by omega)
  · exact Or.inr (by rw [List.length_append, List.length_singleton]; omega)

/-- A round fails exactly on a symbol that is not bound. -/
theorem visit_error_iff {u : SymbolRef} :
    a.visit root r pending found = .error u ↔ u = r ∧ ¬ a.Bound r := by
  unfold visit Bound
  cases hs : a.symbol? r with
  | none =>
      have hr : r = u ↔ u = r := eq_comm
      simp [hr]
  | some s =>
      by_cases hb : s.bound = true
      · by_cases hr : r ∈ found
        · simp [hb, hr]
        · cases hcl : s.closure <;> simp [hb, hr, hcl]
      · have hr : r = u ↔ u = r := eq_comm
        simp [hb, hr]

section Bounds

variable (ha : a.CoherentFrom root) (h : a.Search root visited pending found)

include ha h

theorem Search.found_le : found.length ≤ a.size :=
  length_le_size h.found_nodup fun q hq => ha.exists_of_reaches (h.found_reached q hq).2

/-- What is queued exists, so a search has no more than `size` symbols before and behind it. -/
theorem Search.queued_le : visited.length + pending.length ≤ a.size := by
  have hexists : ∀ q ∈ visited ++ pending, (a.symbol? q).isSome := by
    intro q hq
    rcases List.mem_append.mp hq with hq | hq
    · exact ha.exists_of_reaches (h.found_reached q (h.visited_found q hq)).2
    · exact ha.exists_of_reaches (h.pending_reached q hq).2
  rw [← List.length_append]
  exact length_le_size h.queued_nodup hexists

end Bounds

theorem Search.visited_lt (ha : a.CoherentFrom root)
    (h : a.Search root visited (r :: pending) found) :
    visited.length < a.size := by
  have hle := h.queued_le ha
  rw [List.length_cons] at hle
  omega

/-- **The search is exact.** It gives the closure of the root, or names a symbol that the root
reaches and that is not bound. -/
theorem gather_spec (ha : a.CoherentFrom root) (fuel : Nat) :
    ∀ {visited pending found}, a.Search root visited pending found →
      a.size < visited.length + fuel →
      (∃ c, a.gather root fuel pending found = .ok c ∧ a.IsClosure root c) ∨
      (∃ u, a.gather root fuel pending found = .error u ∧ u ≠ root ∧ a.Reaches root u
        ∧ ¬ a.Bound u) := by
  induction fuel with
  | zero =>
      intro visited pending found h hfuel
      cases pending with
      | nil => exact Or.inl ⟨found, rfl, h.isClosure⟩
      | cons r pending =>
          -- more symbols would have been visited than there are
          have := h.visited_lt ha
          omega
  | succ fuel ih =>
      intro visited pending found h hfuel
      cases pending with
      | nil => exact Or.inl ⟨found, rfl, h.isClosure⟩
      | cons r pending =>
          rw [gather_cons]
          cases hv : a.visit root r pending found with
          | error u =>
              obtain ⟨rfl, hb⟩ := visit_error_iff.mp hv
              have hr := h.pending_reached u List.mem_cons_self
              exact Or.inr ⟨u, rfl, hr.1, hr.2, hb⟩
          | ok next =>
              obtain ⟨pending', found'⟩ := next
              have hr := h.pending_reached r List.mem_cons_self
              refine ih (visit_ok h (fun s c hs hc => ha.isClosure hr.2 hs hc) hv) ?_
              rw [List.length_append, List.length_singleton]
              omega

/-- **The search ends**: allowing more visits than there are symbols changes nothing. -/
theorem gather_fuel (ha : a.Coherent) (fuel : Nat) :
    ∀ {visited pending found}, a.Search root visited pending found →
      a.size < visited.length + fuel →
      ∀ {more}, fuel ≤ more →
      a.gather root more pending found = a.gather root fuel pending found := by
  induction fuel with
  | zero =>
      intro visited pending found h hfuel more _
      -- all symbols are visited by now, so nothing can be pending
      cases pending with
      | nil => cases more <;> rfl
      | cons r pending =>
          have := h.visited_lt (ha.fromRoot root)
          omega
  | succ fuel ih =>
      intro visited pending found h hfuel more hmore
      obtain ⟨more, rfl⟩ : ∃ m, more = m + 1 := ⟨more - 1, by omega⟩
      cases pending with
      | nil => rfl
      | cons r pending =>
          rw [gather_cons, gather_cons]
          cases hv : a.visit root r pending found with
          | error u => rfl
          | ok next =>
              obtain ⟨pending', found'⟩ := next
              refine ih (visit_ok h (fun s c hs hc => ha.isClosure hs hc) hv) ?_ (by omega)
              rw [List.length_append, List.length_singleton]
              omega

theorem closureOf_from (ha : a.CoherentFrom root) {s : Symbol} (hs : a.symbol? root = some s) :
    (∃ c, a.closureOf root s.direct = .ok c ∧ a.IsClosure root c) ∨
    (∃ u, a.closureOf root s.direct = .error u ∧ u ≠ root ∧ a.Reaches root u ∧ ¬ a.Bound u) :=
  gather_spec ha (a.size + 1) (Search.start hs) (by simp)

theorem closureOf_spec (ha : a.Coherent) {s : Symbol} (hs : a.symbol? root = some s) :
    (∃ c, a.closureOf root s.direct = .ok c ∧ a.IsClosure root c) ∨
    (∃ u, a.closureOf root s.direct = .error u ∧ u ≠ root ∧ a.Reaches root u ∧ ¬ a.Bound u) :=
  closureOf_from (ha.fromRoot root) hs

end Runs

end SymbolAtlas.Atlas
