import SymbolAtlas.Proofs.SettledAtlas

set_option autoImplicit false

/-! # Closures computed at the same time

Several calls may ask for closures of one atlas at the same time. A call first looks for a closure
that is kept. If there is none it takes the lock of its symbol, looks again, and then searches; one
step of the search visits one symbol and reads the closure that this symbol has at that moment. At
the end the closure is kept and the lock released. A call never takes the lock of another symbol.

`Calls.step` lets one call take its next step. Whatever the order of the steps, calls stay
consistent (`Consistent.step`): a kept closure is exact and stays, and every closure is counted
once. Some call can always go on (`Consistent.progress`), every step brings its call nearer to its
end (`Step.left_lt`), and so all calls can be brought to their end (`Consistent.exists_end`). A call
that nothing interrupts does what `allDependencies` does (`leads_allDependencies`). -/

namespace SymbolAtlas

/-- How far a call for a closure has come. -/
inductive Call.Phase where
  /-- Nothing has been read yet. -/
  | asked
  /-- No closure was kept at first sight. -/
  | missed
  /-- The lock of the symbol is taken. -/
  | locked
  /-- No closure was kept at second sight either, and the search is going on. -/
  | searching (pending found : List SymbolRef)
  /-- The answer is known, the closure or an unbound symbol; the lock is still held. -/
  | releasing (answer : Except SymbolRef (List SymbolRef))
  /-- The call is over. -/
  | answered (answer : Except SymbolRef (List SymbolRef))

namespace Call.Phase

def holds : Phase → Bool
  | locked | searching _ _ | releasing _ => true
  | asked | missed | answered _ => false

def isSearching : Phase → Bool
  | searching _ _ => true
  | _ => false

def isAnswered : Phase → Bool
  | answered _ => true
  | _ => false

/-- More than the steps that a call can still take among `n` symbols. What is found is found for
good, and the queue holds at most `n` symbols. -/
def left (n : Nat) : Phase → Nat
  | asked => (n + 1) * (n + 1) + 5
  | missed => (n + 1) * (n + 1) + 4
  | locked => (n + 1) * (n + 1) + 3
  | searching pending found => (n + 1) * (n - found.length) + pending.length + 2
  | releasing _ => 1
  | answered _ => 0

theorem isSearching_iff {phase : Phase} :
    phase.isSearching = true ↔ ∃ pending found, phase = searching pending found := by
  cases phase <;> simp [isSearching]

theorem isAnswered_iff {phase : Phase} :
    phase.isAnswered = true ↔ ∃ answer, phase = answered answer := by
  cases phase <;> simp [isAnswered]

/-- The next step of a call for the closure of `r`: what it makes of the atlas, and the phase after
it. A call waits while the lock is not free. -/
def next (a : Atlas) (free : Bool) (r : SymbolRef) : Phase → Option (Atlas × Phase)
  | asked =>
    match a.kept? r with
    | some c => some (a, answered (.ok c))
    | none => some (a, missed)
  | missed => if free then some (a, locked) else none
  | locked =>
    match a.symbol? r with
    | none => none
    | some s =>
      match s.closure with
      | some c => some (a, releasing (.ok c))
      | none => some (a.countClosure r.table, searching (Atlas.enqueue r [] s.direct []) [])
  | searching [] found => some (a.keep r found, releasing (.ok found))
  | searching (q :: pending) found =>
    match a.visit r q pending found with
    | .ok (pending, found) => some (a, searching pending found)
    | .error u => some (a, releasing (.error u))
  | releasing answer => some (a, answered answer)
  | answered _ => none

end Call.Phase

/-- A call for the closure of a symbol. -/
structure Call where
  root : SymbolRef
  phase : Call.Phase := .asked

/-- Calls that share an atlas. -/
structure Calls where
  atlas : Atlas
  calls : List Call

namespace Calls

/-- Whether no call holds the lock of a symbol. -/
def free (s : Calls) (r : SymbolRef) : Bool :=
  s.calls.all fun c => !(c.root = r && c.phase.holds)

/-- Lets call number `i` take its next step, unless it is over or has to wait. -/
def step (s : Calls) (i : Nat) : Option Calls :=
  match s.calls[i]? with
  | none => none
  | some c =>
    match c.phase.next s.atlas (s.free c.root) c.root with
    | none => none
    | some (atlas, phase) => some ⟨atlas, s.calls.set i { c with phase }⟩

def follow (s : Calls) (turns : List Nat) : Option Calls :=
  turns.foldlM step s

end Calls

/-- What every step keeps up holds after every list of steps. -/
theorem foldlM_invariant {α β : Type} {step : β → α → Option β} {P : β → Prop}
    (hstep : ∀ {x y i}, P x → step x i = some y → P y) {turns : List α} {x y : β} (h : P x)
    (hrun : turns.foldlM step x = some y) : P y := by
  induction turns generalizing x with
  | nil =>
      obtain rfl : x = y := Option.some.inj hrun
      exact h
  | cons i turns ih =>
      rw [List.foldlM_cons] at hrun
      obtain ⟨z, hz, hrest⟩ := Option.bind_eq_some_iff.mp hrun
      exact ih (hstep h hz) hrest

/-- **Steps come to an end** where each leaves less to do, and there is one as long as not all is
done. -/
theorem foldlM_completion {α β : Type} {step : β → α → Option β} {P : β → Prop} (left : β → Nat)
    (done : β → Prop) (hstep : ∀ {x y i}, P x → step x i = some y → P y ∧ left y < left x)
    (hgo : ∀ {x}, P x → ¬ done x → ∃ i y, step x i = some y) {x : β} (h : P x) :
    ∃ (turns : List α) (y : β), turns.foldlM step x = some y ∧ P y ∧ done y := by
  induction hn : left x using Nat.strong_induction_on generalizing x with
  | _ n ih =>
      by_cases hdone : done x
      · exact ⟨[], x, rfl, h, hdone⟩
      · obtain ⟨i, z, hz⟩ := hgo h hdone
        obtain ⟨hzP, hlt⟩ := hstep h hz
        obtain ⟨turns, y, hrun, hy⟩ := ih (left z) (hn ▸ hlt) hzP rfl
        refine ⟨i :: turns, y, ?_, hy⟩
        rw [List.foldlM_cons, hz]
        exact hrun

theorem exists_split {α : Type} {xs : List α} {i : Nat} {x : α} (h : xs[i]? = some x) :
    ∃ before after, xs = before ++ x :: after ∧ ∀ y, xs.set i y = before ++ y :: after := by
  obtain ⟨hi, rfl⟩ := List.getElem?_eq_some_iff.mp h
  refine ⟨xs.take i, xs.drop (i + 1), ?_, fun y =>
    List.set_eq_take_append_cons_drop .. ▸ by simp [hi]⟩
  rw [← List.drop_eq_getElem_cons hi, List.take_append_drop]

/-! ## One step of one call -/

namespace Atlas

theorem SameButClosures.search {a b : Atlas} (h : a.SameButClosures b) {r : SymbolRef}
    {visited pending found : List SymbolRef} (hs : a.Search r visited pending found) :
    b.Search r visited pending found where
  queued_nodup := hs.queued_nodup
  found_nodup := hs.found_nodup
  visited_found := hs.visited_found
  found_bound := fun q hq => h.bound (hs.found_bound q hq)
  found_reached := fun q hq => by
    rw [h.reaches_iff]
    exact hs.found_reached q hq
  pending_reached := fun q hq => by
    rw [h.reaches_iff]
    exact hs.pending_reached q hq
  closed := fun q hq d hd => hs.closed q hq d (h.dependsOn_iff.mp hd)

end Atlas

namespace Call.Phase

/-- The ways in which a call for the closure of `r` goes on. -/
inductive Step (a : Atlas) (free : Bool) (r : SymbolRef) : Phase → Atlas → Phase → Prop
  | hit {c : List SymbolRef} (hk : a.kept? r = some c) : Step a free r asked a (answered (.ok c))
  | miss (hk : a.kept? r = none) : Step a free r asked a missed
  | lock (hfree : free = true) : Step a free r missed a locked
  | recheck {c : List SymbolRef} (hk : a.kept? r = some c) :
      Step a free r locked a (releasing (.ok c))
  | search {s : Symbol} (hs : a.symbol? r = some s) (hk : a.kept? r = none) :
      Step a free r locked (a.countClosure r.table)
        (searching (Atlas.enqueue r [] s.direct []) [])
  | visit {q : SymbolRef} {pending found pending' found' : List SymbolRef}
      (hv : a.visit r q pending found = .ok (pending', found')) :
      Step a free r (searching (q :: pending) found) a (searching pending' found')
  | refuse {q u : SymbolRef} {pending found : List SymbolRef}
      (hv : a.visit r q pending found = .error u) :
      Step a free r (searching (q :: pending) found) a (releasing (.error u))
  | keep {found : List SymbolRef} :
      Step a free r (searching [] found) (a.keep r found) (releasing (.ok found))
  | release {answer : Except SymbolRef (List SymbolRef)} :
      Step a free r (releasing answer) a (answered answer)

theorem step_of_next {a : Atlas} {free : Bool} {r : SymbolRef} {before : Phase} {a' : Atlas}
    {after : Phase} (h : before.next a free r = some (a', after)) :
    Step a free r before a' after := by
  -- each phase has one step, and the branches of `next` name it
  cases before with
  | asked =>
      rw [next] at h
      cases hk : a.kept? r with
      | none =>
          rw [hk] at h
          obtain ⟨rfl, rfl⟩ := h
          exact .miss hk
      | some c =>
          rw [hk] at h
          obtain ⟨rfl, rfl⟩ := h
          exact .hit hk
  | missed =>
      rw [next] at h
      cases free with
      | false => simp at h
      | true =>
          obtain ⟨rfl, rfl⟩ := h
          exact .lock rfl
  | locked =>
      rw [next] at h
      cases hs : a.symbol? r with
      | none => simp [hs] at h
      | some s =>
          rw [hs] at h
          dsimp only at h
          rw [← Atlas.kept?_eq hs] at h
          cases hk : a.kept? r with
          | some c =>
              rw [hk] at h
              obtain ⟨rfl, rfl⟩ := h
              exact .recheck hk
          | none =>
              rw [hk] at h
              obtain ⟨rfl, rfl⟩ := h
              exact .search hs hk
  | searching pending found =>
      cases pending with
      | nil =>
          rw [next] at h
          obtain ⟨rfl, rfl⟩ := h
          exact .keep
      | cons q pending =>
          rw [next] at h
          cases hv : a.visit r q pending found with
          | ok next =>
              rw [hv] at h
              obtain ⟨rfl, rfl⟩ := h
              exact .visit hv
          | error u =>
              rw [hv] at h
              obtain ⟨rfl, rfl⟩ := h
              exact .refuse hv
  | releasing answer =>
      rw [next] at h
      obtain ⟨rfl, rfl⟩ := h
      exact .release
  | answered answer => simp [next] at h

/-- What holds at a phase of a call for the closure of `r`. -/
def Fact (a : Atlas) (r : SymbolRef) : Phase → Prop
  | asked | missed | locked => True
  | searching pending found => a.kept? r = none ∧ ∃ visited, a.Search r visited pending found
  | releasing answer | answered answer => ∃ c, answer = .ok c ∧ a.kept? r = some c

/-- A phase stays right while the closure of its symbol stays. -/
theorem Fact.frame {a a' : Atlas} {r : SymbolRef} {phase : Phase} (h : phase.Fact a r)
    (hsame : a.SameButClosures a') (hk : a'.kept? r = a.kept? r) : phase.Fact a' r := by
  cases phase with
  | asked | missed | locked => trivial
  | searching pending found =>
      obtain ⟨hnone, visited, hsearch⟩ := h
      exact ⟨hk.trans hnone, visited, hsame.search hsearch⟩
  | releasing answer | answered answer =>
      obtain ⟨c, rfl, hc⟩ := h
      exact ⟨c, rfl, hk.trans hc⟩

section Steps

variable {a : Atlas} {free : Bool} {r : SymbolRef} {before : Phase} {a' : Atlas} {after : Phase}
  (h : Step a free r before a' after)

include h

theorem Step.holds (hafter : after.holds = true) : before.holds = true ∨ free = true := by
  cases h with
  | hit | miss => simp [Phase.holds] at hafter
  | lock hfree => exact Or.inr hfree
  | recheck | search | visit | refuse | keep => exact Or.inl rfl
  | release => simp [Phase.holds] at hafter

theorem Step.same : a.SameButClosures a' := by
  cases h with
  | hit | miss | lock | recheck | visit | refuse | release => exact .refl a
  | search => exact a.sameButClosures_countClosure r.table
  | keep => exact a.sameButClosures_keep r _

theorem Step.skeleton : a'.skeleton = a.skeleton := by
  cases h with
  | hit | miss | lock | recheck | visit | refuse | release => rfl
  | search => exact a.skeleton_countClosure r.table
  | keep => exact a.skeleton_keep r _

/-- **A step changes at most the closure of its own symbol**, at the end of a search. -/
theorem Step.kept (q : SymbolRef) :
    a'.kept? q = a.kept? q ∨ (q = r ∧ before.isSearching = true) := by
  cases h with
  | hit | miss | lock | recheck | visit | refuse | release => exact Or.inl rfl
  | search => exact Or.inl (a.kept?_countClosure r.table q)
  | keep =>
      by_cases hq : q = r
      · exact Or.inr ⟨hq, rfl⟩
      · exact Or.inl (a.kept?_keep_ne hq _)

variable (ha : a.Settled) {s : Symbol} (hs : a.symbol? r = some s) (hfact : before.Fact a r)

include ha hs hfact

/-- **A step in a settled atlas leaves it settled**, and leads to a phase that is right. -/
theorem Step.sound : a'.Settled ∧ after.Fact a' r := by
  cases h with
  | hit hk => exact ⟨ha, _, rfl, hk⟩
  | miss => exact ⟨ha, trivial⟩
  | lock => exact ⟨ha, trivial⟩
  | recheck hk => exact ⟨ha, _, rfl, hk⟩
  | search hs' hk =>
      have hsame := a.sameButClosures_countClosure r.table
      refine ⟨ha.countClosure r.table, ?_, [], hsame.search (.start hs')⟩
      rw [Atlas.kept?_countClosure, hk]
  | visit hv =>
      obtain ⟨hnone, visited, hsearch⟩ := hfact
      refine ⟨ha, hnone, _, Atlas.visit_ok hsearch ?_ hv⟩
      exact fun _ _ hq hc => ha.coherent.isClosure hq hc
  | refuse hv =>
      -- what is pending is reached, and everything is bound
      obtain ⟨-, visited, hsearch⟩ := hfact
      obtain ⟨-, hunbound⟩ := Atlas.visit_error_iff.mp hv
      have hreach := (hsearch.pending_reached _ List.mem_cons_self).2
      obtain ⟨sq, hsq⟩ := Option.isSome_iff_exists.mp (ha.coherent.exists_of_reaches hreach)
      exact absurd ⟨sq, hsq, ha.bound hsq⟩ hunbound
  | keep =>
      obtain ⟨-, visited, hsearch⟩ := hfact
      refine ⟨ha.keep ⟨s, hs, ha.bound hs⟩ hsearch.isClosure, _, rfl, ?_⟩
      exact Atlas.kept?_keep_self (by simp [hs]) _
  | release => exact ⟨ha, hfact⟩

/-- **A closure is counted when its search begins**, and at no other step. From then on the search
goes on or the closure is kept. -/
theorem Step.counts :
    (before = locked ∧ after.isSearching = true ∧ a.kept? r = none ∧
        a' = a.countClosure r.table) ∨
      ((∀ table, a'.stats table = a.stats table) ∧
        (after.isSearching = true → before.isSearching = true) ∧
        (before.isSearching = true → after.isSearching = true ∨ (a'.kept? r).isSome)) := by
  have hsound := (h.sound ha hs hfact).2
  cases h with
  | search hs' hk => exact Or.inl ⟨rfl, rfl, hk, rfl⟩
  | hit | miss | lock | recheck | release =>
      exact Or.inr ⟨fun _ => rfl, by simp [Phase.isSearching], by simp [Phase.isSearching]⟩
  | visit => exact Or.inr ⟨fun _ => rfl, fun _ => rfl, fun _ => Or.inl rfl⟩
  | refuse =>
      obtain ⟨c, hc, -⟩ := hsound
      cases hc
  | keep =>
      obtain ⟨c, -, hc⟩ := hsound
      exact Or.inr ⟨a.stats_keep r _, fun _ => rfl, fun _ => Or.inr (by simp [hc])⟩

/-- **Every step brings a call nearer to its end.** -/
theorem Step.left_lt : after.left a.size < before.left a.size := by
  have hsound := (h.sound ha hs hfact).2
  cases h with
  | hit | miss | lock | recheck | refuse | keep | release =>
      simp only [left]
      omega
  | search hs' =>
      have hle := (Atlas.Search.start hs').queued_le (ha.coherent.fromRoot _)
      simp only [left, List.length_nil, Nat.sub_zero, Nat.mul_succ] at hle ⊢
      omega
  | @visit q pending found pending' found' hv =>
      obtain ⟨-, visited, hsearch⟩ := hsound
      simp only [left, List.length_cons]
      rcases Atlas.visit_grows hv with ⟨rfl, rfl⟩ | hgrows
      · omega
      · -- one symbol less to find outweighs whatever joins the queue
        have hfound := hsearch.found_le (ha.coherent.fromRoot _)
        have hpending := hsearch.queued_le (ha.coherent.fromRoot _)
        have hmul := Nat.mul_le_mul_left (a.size + 1)
          (show a.size - found'.length + 1 ≤ a.size - found.length by omega)
        rw [Nat.mul_succ] at hmul
        omega

end Steps

/-- Only the lock of its symbol can keep a call waiting. -/
theorem exists_next {a : Atlas} {free : Bool} {r : SymbolRef} {phase : Phase}
    (hr : (a.symbol? r).isSome) (hover : phase.isAnswered = false)
    (hfree : phase = missed → free = true) : ∃ next, phase.next a free r = some next := by
  obtain ⟨s, hs⟩ := Option.isSome_iff_exists.mp hr
  -- the phases in which `next` looks something up find it, and the lock is free by assumption
  cases phase with
  | asked =>
      rw [next]
      cases a.kept? r with
      | some c => exact ⟨_, rfl⟩
      | none => exact ⟨_, rfl⟩
  | missed =>
      rw [hfree rfl]
      exact ⟨_, rfl⟩
  | locked =>
      rw [next, hs]
      dsimp only
      cases s.closure with
      | some c => exact ⟨_, rfl⟩
      | none => exact ⟨_, rfl⟩
  | searching pending found =>
      cases pending with
      | nil => exact ⟨_, rfl⟩
      | cons q pending =>
          rw [next]
          cases a.visit r q pending found with
          | ok next => exact ⟨_, rfl⟩
          | error u => exact ⟨_, rfl⟩
  | releasing answer => exact ⟨_, rfl⟩
  | answered answer => cases hover

end Call.Phase

/-! ## Calls side by side -/

namespace Calls

theorem step_cases {s s' : Calls} {i : Nat} (h : s.step i = some s') :
    ∃ c a phase, s.calls[i]? = some c ∧
      Call.Phase.Step s.atlas (s.free c.root) c.root c.phase a phase ∧
      s' = ⟨a, s.calls.set i { c with phase }⟩ := by
  unfold step at h
  cases hc : s.calls[i]? with
  | none => simp [hc] at h
  | some c =>
      rw [hc] at h
      dsimp only at h
      cases hn : c.phase.next s.atlas (s.free c.root) c.root with
      | none => simp [hn] at h
      | some next =>
          rw [hn] at h
          exact ⟨c, next.1, next.2, rfl, Call.Phase.step_of_next hn, (Option.some.inj h).symm⟩

theorem getElem?_set_iff {α : Type} {xs : List α} {i : Nat} {x : α} (hi : xs[i]? = some x) {y : α}
    {j : Nat} {z : α} :
    (xs.set i y)[j]? = some z ↔ (j = i ∧ z = y) ∨ (j ≠ i ∧ xs[j]? = some z) := by
  have hlt : i < xs.length := (List.getElem?_eq_some_iff.mp hi).1
  rw [List.getElem?_set]
  by_cases hj : i = j
  · subst hj
    simp [hlt, eq_comm]
  · have hj' : j ≠ i := fun heq => hj heq.symm
    simp [hj, hj']

theorem free_iff {s : Calls} {r : SymbolRef} :
    s.free r = true ↔ ∀ (j : Nat) (d : Call), s.calls[j]? = some d → d.root = r →
    d.phase.holds = false := by
  unfold free
  rw [List.all_eq_true]
  constructor
  · intro h j d hd hr
    have := h d (List.mem_of_getElem? hd)
    simpa [hr] using this
  · intro h d hd
    obtain ⟨j, hj⟩ := List.mem_iff_getElem?.mp hd
    by_cases hr : d.root = r
    · simp [h j d hj hr]
    · simp [hr]

/-- The closure of the symbol is kept, or is being computed. -/
def Started (s : Calls) (r : SymbolRef) : Prop :=
  (s.atlas.kept? r).isSome ∨
    ∃ (i : Nat) (c : Call), s.calls[i]? = some c ∧ c.root = r ∧ c.phase.isSearching = true

/-- What is started when call number `i` has come to another phase. -/
theorem started_set_iff {calls : List Call} {i : Nat} {c : Call} (hc : calls[i]? = some c)
    (a : Atlas) (phase : Call.Phase) (r : SymbolRef) : Started ⟨a, calls.set i { c with phase }⟩ r ↔
      (a.kept? r).isSome ∨ (r = c.root ∧ phase.isSearching = true) ∨
        ∃ (j : Nat) (d : Call), j ≠ i ∧ calls[j]? = some d ∧ d.root = r ∧
          d.phase.isSearching = true := by
  unfold Started
  refine or_congr Iff.rfl ?_
  constructor
  · rintro ⟨j, d, hd, hroot, hsearch⟩
    rcases (getElem?_set_iff hc).mp hd with ⟨-, rfl⟩ | ⟨hj, hd⟩
    · exact Or.inl ⟨hroot.symm, hsearch⟩
    · exact Or.inr ⟨j, d, hj, hd, hroot, hsearch⟩
  · rintro (⟨rfl, hsearch⟩ | ⟨j, d, hj, hd, hroot, hsearch⟩)
    · exact ⟨i, _, (getElem?_set_iff hc).mpr (Or.inl ⟨rfl, rfl⟩), rfl, hsearch⟩
    · exact ⟨j, d, (getElem?_set_iff hc).mpr (Or.inr ⟨hj, hd⟩), hroot, hsearch⟩

theorem started_iff {s : Calls} {i : Nat} {c : Call} (hc : s.calls[i]? = some c) (r : SymbolRef) :
    s.Started r ↔ (s.atlas.kept? r).isSome ∨ (r = c.root ∧ c.phase.isSearching = true) ∨
      ∃ (j : Nat) (d : Call), j ≠ i ∧ s.calls[j]? = some d ∧ d.root = r ∧
        d.phase.isSearching = true := by
  have hset : s.calls.set i { c with phase := c.phase } = s.calls := by
    obtain ⟨hlt, rfl⟩ := List.getElem?_eq_some_iff.mp hc
    exact List.set_getElem_self hlt
  have hiff := started_set_iff hc s.atlas c.phase r
  rwa [hset] at hiff

/-- **What calls on the atlas `b` keep up.** The graph is that of `b`, and what is kept is exact.
Every call is at a phase that is right, at most one of them holds the lock of a symbol, and the
closures that were started since `b` are counted, each once. -/
structure Consistent (b : Atlas) (s : Calls) : Prop where
  same : b.SameButClosures s.atlas
  skeleton : s.atlas.skeleton = b.skeleton
  settled : s.atlas.Settled
  exists_root : ∀ {i : Nat} {c : Call}, s.calls[i]? = some c → (b.symbol? c.root).isSome
  fact : ∀ {i : Nat} {c : Call}, s.calls[i]? = some c → c.phase.Fact s.atlas c.root
  exclusive : ∀ {i j : Nat} {c d : Call}, s.calls[i]? = some c → s.calls[j]? = some d →
    c.root = d.root → c.phase.holds = true → d.phase.holds = true → i = j
  kept : ∀ {r c}, b.kept? r = some c → s.atlas.kept? r = some c
  counted : ∃ started : List SymbolRef, started.Nodup ∧
    (∀ r, r ∈ started ↔ b.kept? r = none ∧ s.Started r) ∧
    ∀ table, (s.atlas.stats table).1 = (b.stats table).1 + started.countP (·.table = table)

namespace Consistent

theorem start {b : Atlas} (hb : b.Settled) {roots : List SymbolRef}
    (hroots : ∀ r ∈ roots, (b.symbol? r).isSome) :
    Consistent b ⟨b, roots.map fun root => { root }⟩ := by
  have hcall : ∀ {i : Nat} {c : Call}, (roots.map fun root => ({ root } : Call))[i]? = some c →
      c.root ∈ roots ∧ c.phase = .asked := by
    intro i c hc
    obtain ⟨r, hr, rfl⟩ := List.mem_map.mp (List.mem_of_getElem? hc)
    exact ⟨hr, rfl⟩
  refine ⟨.refl b, rfl, hb, fun hc => hroots _ (hcall hc).1, ?_, ?_, fun hc => hc,
    [], List.nodup_nil, ?_, fun _ => rfl⟩
  · intro i c hc
    rw [(hcall hc).2]
    trivial
  · intro i j c d hc _ _ hholds _
    rw [(hcall hc).2] at hholds
    cases hholds
  · -- at first nothing was started, since every call is still asked
    intro r
    constructor
    · intro hr
      cases hr
    · rintro ⟨hnone, hkept | ⟨i, c, hc, -, hsearch⟩⟩
      · have hkept : (b.kept? r).isSome := hkept
        simp [hnone] at hkept
      · rw [(hcall hc).2] at hsearch
        cases hsearch

section Step

variable {b : Atlas} {s : Calls} (h : Consistent b s) {i : Nat} {c : Call}
  (hc : s.calls[i]? = some c) {a : Atlas} {phase : Call.Phase}
  (hnext : Call.Phase.Step s.atlas (s.free c.root) c.root c.phase a phase)

include h hc

theorem exists_symbol : ∃ sc, s.atlas.symbol? c.root = some sc := by
  obtain ⟨sr, hsr⟩ := Option.isSome_iff_exists.mp (h.exists_root hc)
  obtain ⟨sc, hsc, -⟩ := h.same.symbol hsr
  exact ⟨sc, hsc⟩

/-- A closure that is being computed is not kept yet, and its lock is held. -/
theorem searching (hsearch : c.phase.isSearching = true) :
    s.atlas.kept? c.root = none ∧ c.phase.holds = true := by
  obtain ⟨pending, found, hphase⟩ := Call.Phase.isSearching_iff.mp hsearch
  have hfact := h.fact hc
  rw [hphase] at hfact ⊢
  exact ⟨hfact.1, rfl⟩

/-- The call that holds the lock of a symbol finds it not started. -/
theorem not_started (hlocked : c.phase = .locked) (hnone : s.atlas.kept? c.root = none) :
    ¬ s.Started c.root := by
  rintro (hkept | ⟨j, d, hd, hroot, hsearch⟩)
  · simp [hnone] at hkept
  · obtain rfl := h.exclusive hd hc hroot (h.searching hd hsearch).2 (by rw [hlocked]; rfl)
    obtain rfl := Option.some.inj (hd.symm.trans hc)
    rw [hlocked] at hsearch
    cases hsearch

include hnext

theorem fact_other {j : Nat} {d : Call} (hd : s.calls[j]? = some d) (hj : j ≠ i) :
    d.phase.Fact a d.root := by
  have hfact := h.fact hd
  rcases hnext.kept d.root with hk | ⟨hroot, hsearch⟩
  · exact hfact.frame hnext.same hk
  · -- a call on the same symbol has neither the lock nor an answer
    obtain ⟨hnone, hholds⟩ := h.searching hc hsearch
    cases hp : d.phase with
    | asked | missed => trivial
    | locked | searching | releasing =>
        exact absurd (h.exclusive hd hc hroot (by rw [hp]; rfl) hholds) hj
    | answered answer =>
        rw [hp] at hfact
        obtain ⟨k, -, hk⟩ := hfact
        rw [hroot, hnone] at hk
        cases hk

theorem exclusive_other (hholds : phase.holds = true) {j : Nat} {d : Call}
    (hd : s.calls[j]? = some d) (hroot : c.root = d.root) (hdholds : d.phase.holds = true) :
    i = j := by
  rcases hnext.holds hholds with hold | hfree
  · exact h.exclusive hc hd hroot hold hdholds
  · rw [free_iff.mp hfree j d hd hroot.symm] at hdholds
    cases hdholds

/-- A step that begins no search starts nothing, and what was started stays so: a search goes on
until its closure is kept. -/
theorem started_next_iff (hback : phase.isSearching = true → c.phase.isSearching = true)
    (hforth : c.phase.isSearching = true → phase.isSearching = true ∨ (a.kept? c.root).isSome)
    (r : SymbolRef) : Started ⟨a, s.calls.set i { c with phase }⟩ r ↔ s.Started r := by
  rw [started_set_iff hc, started_iff hc]
  constructor
  · rintro (hkept | ⟨rfl, hsearch⟩ | hother)
    · rcases hnext.kept r with hk | ⟨rfl, hsearch⟩
      · exact Or.inl (hk ▸ hkept)
      · exact Or.inr (Or.inl ⟨rfl, hsearch⟩)
    · exact Or.inr (Or.inl ⟨rfl, hback hsearch⟩)
    · exact Or.inr (Or.inr hother)
  · rintro (hkept | ⟨rfl, hsearch⟩ | hother)
    · rcases hnext.kept r with hk | ⟨rfl, hsearch⟩
      · exact Or.inl (hk ▸ hkept)
      · simp [(h.searching hc hsearch).1] at hkept
    · rcases hforth hsearch with hsearch | hkept
      · exact Or.inr (Or.inl ⟨rfl, hsearch⟩)
      · exact Or.inl hkept
    · exact Or.inr (Or.inr hother)

/-- **Every closure that is started is counted, and only once.** -/
theorem counted_next : ∃ started : List SymbolRef, started.Nodup ∧
    (∀ r, r ∈ started ↔ b.kept? r = none ∧ Started ⟨a, s.calls.set i { c with phase }⟩ r) ∧
    ∀ table, (a.stats table).1 = (b.stats table).1 + started.countP (·.table = table) := by
  obtain ⟨started, hnodup, hmem, hcount⟩ := h.counted
  obtain ⟨sc, hsc⟩ := h.exists_symbol hc
  rcases hnext.counts h.settled hsc (h.fact hc) with ⟨hlocked, hsearch, hnone, rfl⟩ |
    ⟨hstats, hback, hforth⟩
  · -- a search begins: its symbol joins what was started, and is counted
    have hnew := h.not_started hc hlocked hnone
    -- had the symbol kept a closure from the start, this call would have found it
    have hb : b.kept? c.root = none := by
      cases hkept : b.kept? c.root with
      | none => rfl
      | some k =>
          rw [h.kept hkept] at hnone
          cases hnone
    have hstarted : ∀ r,
        Started ⟨s.atlas.countClosure c.root.table, s.calls.set i { c with phase }⟩ r
        ↔ r = c.root ∨ s.Started r := by
      intro r
      rw [started_set_iff hc, started_iff hc, Atlas.kept?_countClosure, hlocked, hsearch]
      simp only [Call.Phase.isSearching, and_true, Bool.false_eq_true, and_false, false_or]
      exact or_left_comm
    refine ⟨c.root :: started, List.nodup_cons.mpr ⟨fun hr => hnew ((hmem _).mp hr).2, hnodup⟩,
      fun r => ?_, fun table => ?_⟩
    · rw [List.mem_cons, hmem, hstarted]
      constructor
      · rintro (rfl | hr)
        · exact ⟨hb, Or.inl rfl⟩
        · exact ⟨hr.1, Or.inr hr.2⟩
      · rintro ⟨hbr, rfl | hr⟩
        · exact Or.inl rfl
        · exact Or.inr ⟨hbr, hr⟩
    · rw [Atlas.stats_countClosure hsc, hcount, List.countP_cons, Nat.add_assoc]
      simp only [decide_eq_true_eq]
  · refine ⟨started, hnodup, fun r => ?_, fun table => by rw [hstats, hcount]⟩
    rw [hmem, h.started_next_iff hc hnext hback hforth]

end Step

/-- **One step of any call keeps everything up.** -/
theorem step {b : Atlas} {s s' : Calls} (h : Consistent b s) {i : Nat}
    (hstep : s.step i = some s') :
    Consistent b s' := by
  obtain ⟨c, a, phase, hc, hnext, rfl⟩ := step_cases hstep
  obtain ⟨sc, hsc⟩ := h.exists_symbol hc
  have hsound := hnext.sound h.settled hsc (h.fact hc)
  refine ⟨h.same.trans hnext.same, hnext.skeleton.trans h.skeleton, hsound.1, ?_, ?_, ?_, ?_, ?_⟩
  · intro j d hd
    rcases (getElem?_set_iff hc).mp hd with ⟨-, rfl⟩ | ⟨-, hd⟩
    · exact h.exists_root (c := c) hc
    · exact h.exists_root hd
  · intro j d hd
    rcases (getElem?_set_iff hc).mp hd with ⟨-, rfl⟩ | ⟨hj, hd⟩
    · exact hsound.2
    · exact h.fact_other hc hnext hd hj
  · -- two calls that hold one lock are one: the call that made the step, or one that stood still
    intro j k d e hd he hroot hdholds heholds
    rcases (getElem?_set_iff hc).mp hd with ⟨rfl, rfl⟩ | ⟨-, hd'⟩
    · rcases (getElem?_set_iff hc).mp he with ⟨rfl, -⟩ | ⟨-, he'⟩
      · rfl
      · exact h.exclusive_other hc hnext hdholds he' hroot heholds
    · rcases (getElem?_set_iff hc).mp he with ⟨rfl, rfl⟩ | ⟨-, he'⟩
      · exact (h.exclusive_other hc hnext heholds hd' hroot.symm hdholds).symm
      · exact h.exclusive hd' he' hroot hdholds heholds
  · -- a closure that was kept is never replaced, since its symbol is not searched for any more
    intro r k hk
    have hold := h.kept hk
    rcases hnext.kept r with hsame | ⟨rfl, hsearch⟩
    · exact hsame.trans hold
    · rw [(h.searching hc hsearch).1] at hold
      cases hold
  · exact h.counted_next hc hnext

/-- **Whatever the order of the steps, everything is kept up.** -/
theorem follow {b : Atlas} {turns : List Nat} {s s' : Calls} (h : Consistent b s)
    (hrun : s.follow turns = some s') : Consistent b s' :=
  foldlM_invariant (fun hs hnext => hs.step hnext) h hrun

/-- **No deadlock.** While a call is not over, some call can take its next step. -/
theorem progress {b : Atlas} {s : Calls} (h : Consistent b s) {i : Nat} {c : Call}
    (hc : s.calls[i]? = some c) (hover : c.phase.isAnswered = false) :
    ∃ (j : Nat) (d : Call), s.calls[j]? = some d ∧
      ∃ next, d.phase.next s.atlas (s.free d.root) d.root = some next := by
  have hexists : ∀ {j : Nat} {d : Call}, s.calls[j]? = some d →
      (s.atlas.symbol? d.root).isSome := by
    intro j d hd
    obtain ⟨sd, hsd⟩ := h.exists_symbol hd
    simp [hsd]
  by_cases hwait : c.phase = .missed → s.free c.root = true
  · exact ⟨i, c, hc, Call.Phase.exists_next (hexists hc) hover hwait⟩
  · -- the call that holds the lock waits for no other
    rw [free_iff] at hwait
    push Not at hwait
    obtain ⟨-, j, d, hd, -, hholds⟩ := hwait
    refine ⟨j, d, hd, Call.Phase.exists_next (hexists hd) ?_ ?_⟩
    · cases hp : d.phase with
      | answered => simp [hp, Call.Phase.holds] at hholds
      | asked | missed | locked | searching | releasing => rfl
    · intro hmissed
      simp [hmissed, Call.Phase.holds] at hholds

end Consistent

/-! ## The end of all calls -/

/-- More than the steps that all calls together can still take. -/
def left (s : Calls) : Nat :=
  (s.calls.map fun c => c.phase.left s.atlas.size).sum

theorem Consistent.left_lt {b : Atlas} {s s' : Calls} (h : Consistent b s) {i : Nat}
    (hstep : s.step i = some s') : s'.left < s.left := by
  obtain ⟨c, a, phase, hc, hnext, rfl⟩ := step_cases hstep
  obtain ⟨sc, hsc⟩ := h.exists_symbol hc
  have hlt := hnext.left_lt h.settled hsc (h.fact hc)
  obtain ⟨before, after, hcalls, hset⟩ := exists_split hc
  unfold left
  dsimp only
  rw [Atlas.size_eq_of_skeleton hnext.skeleton, hset, hcalls]
  simp only [List.map_append, List.map_cons, List.sum_append, List.sum_cons]
  omega

/-- **All calls can be brought to their end.** -/
theorem Consistent.exists_end {b : Atlas} {s : Calls} (h : Consistent b s) :
    ∃ turns s', s.follow turns = some s' ∧ ∀ c ∈ s'.calls, c.phase.isAnswered = true := by
  have hgo : ∀ {t : Calls}, Consistent b t → ¬ (∀ c ∈ t.calls, c.phase.isAnswered = true) →
      ∃ i t', t.step i = some t' := by
    intro t ht hundone
    push Not at hundone
    obtain ⟨c, hc, hover⟩ := hundone
    obtain ⟨i, hi⟩ := List.mem_iff_getElem?.mp hc
    obtain ⟨j, d, hd, next, hnext⟩ := ht.progress hi (by simpa using hover)
    refine ⟨j, ⟨next.1, t.calls.set j { d with phase := next.2 }⟩, ?_⟩
    unfold Calls.step
    rw [hd]
    dsimp only
    rw [hnext]
  obtain ⟨turns, s', hrun, -, hdone⟩ := foldlM_completion left
    (fun t => ∀ c ∈ t.calls, c.phase.isAnswered = true) (fun ht hstep =>
    ⟨ht.step hstep, ht.left_lt hstep⟩) hgo h
  exact ⟨turns, s', hrun, hdone⟩

/-! ## A call on its own -/

/-- The calls can come to the state `s'`. -/
def Leads (s s' : Calls) : Prop :=
  ∃ turns, s.follow turns = some s'

theorem Leads.refl (s : Calls) : s.Leads s :=
  ⟨[], rfl⟩

theorem Leads.head {s t s' : Calls} {i : Nat} (hstep : s.step i = some t) (h : t.Leads s') :
    s.Leads s' := by
  obtain ⟨turns, hturns⟩ := h
  refine ⟨i :: turns, ?_⟩
  unfold follow
  rw [List.foldlM_cons, hstep]
  exact hturns

theorem step_single {a a' : Atlas} {r : SymbolRef} {phase phase' : Call.Phase}
    (h : phase.next a (!phase.holds) r = some (a', phase')) :
    step ⟨a, [⟨r, phase⟩]⟩ 0 = some ⟨a', [⟨r, phase'⟩]⟩ := by
  have hfree : free ⟨a, [⟨r, phase⟩]⟩ r = !phase.holds := by simp [free]
  unfold step
  simp only [List.getElem?_cons_zero, hfree, h, List.set_cons_zero]

/-- The atlas after a search with this answer. -/
def keepAnswer (a : Atlas) (r : SymbolRef) : Except SymbolRef (List SymbolRef) → Atlas
  | .ok c => a.keep r c
  | .error _ => a

/-- A search that nothing interrupts finds what `gather` finds. -/
theorem leads_gather {a : Atlas} (ha : a.Coherent) {r : SymbolRef} (fuel : Nat) :
    ∀ {visited pending found : List SymbolRef}, a.Search r visited pending found →
      a.size < visited.length + fuel →
      Leads ⟨a, [⟨r, .searching pending found⟩]⟩
        ⟨keepAnswer a r (a.gather r fuel pending found),
          [⟨r, .answered (a.gather r fuel pending found)⟩]⟩ := by
  have hnil : ∀ {found : List SymbolRef},
      Leads ⟨a, [⟨r, .searching [] found⟩]⟩ ⟨a.keep r found, [⟨r, .answered (.ok found)⟩]⟩ :=
    .head (step_single rfl) (.head (step_single rfl) (.refl _))
  -- one turn for each round of the search, and the found answer is kept in two more
  induction fuel with
  | zero =>
      intro visited pending found h hfuel
      cases pending with
      | nil => exact hnil
      | cons q pending =>
          have := h.visited_lt (ha.fromRoot _)
          omega
  | succ fuel ih =>
      intro visited pending found h hfuel
      cases pending with
      | nil => exact hnil
      | cons q pending =>
          rw [Atlas.gather_cons]
          cases hv : a.visit r q pending found with
          | error u =>
              have hnext : (Call.Phase.searching (q :: pending) found).next a false r
                  = some (a, .releasing (.error u)) := by rw [Call.Phase.next, hv]
              exact .head (step_single hnext) (.head (step_single rfl) (.refl _))
          | ok next =>
              have hnext : (Call.Phase.searching (q :: pending) found).next a false r
                  = some (a, .searching next.1 next.2) := by rw [Call.Phase.next, hv]
              have hsearch := Atlas.visit_ok h (fun _ _ hs hc => ha.isClosure hs hc) hv
              refine .head (step_single hnext) (ih hsearch ?_)
              rw [List.length_append, List.length_singleton]
              omega

/-- **A call that nothing interrupts does what `allDependencies` does.** -/
theorem leads_allDependencies {a : Atlas} (ha : a.Coherent) {r : SymbolRef} {s : Symbol}
    (hs : a.symbol? r = some s) :
    ∃ answer, Leads ⟨a, [{ root := r }]⟩
        ⟨(exec (AtlasM.allDependencies r) a).2, [⟨r, .answered answer⟩]⟩ ∧
      (exec (AtlasM.allDependencies r) a).1
        = answer.mapError fun u => .contract .unboundReached (a.text (some u)) := by
  cases hc : s.closure with
  | some c =>
      have hnext : Call.Phase.asked.next a true r = some (a, .answered (.ok c)) := by
        rw [Call.Phase.next, Atlas.kept?_eq hs, hc]
      rw [AtlasM.exec_allDependencies_kept hs hc]
      exact ⟨.ok c, .head (step_single hnext) (.refl _), rfl⟩
  | none =>
      -- asked, missed, locked, and then the search with the symbol counted
      have hmiss : Call.Phase.asked.next a true r = some (a, .missed) := by
        rw [Call.Phase.next, Atlas.kept?_eq hs, hc]
      have hbegin : Call.Phase.locked.next a false r
          = some (a.countClosure r.table, .searching (Atlas.enqueue r [] s.direct []) []) := by
        rw [Call.Phase.next, hs]
        dsimp only
        rw [hc]
      have hsearch : Leads ⟨a, [{ root := r }]⟩ _ :=
        .head (step_single hmiss) (.head (step_single rfl) (.head (step_single hbegin)
          (leads_gather ((a.sameSymbols_countClosure r.table).coherent ha) (a.size + 1)
            ((a.sameButClosures_countClosure r.table).search (.start hs))
            (by rw [Atlas.size_countClosure]; simp))))
      rw [(Atlas.sameSymbols_countClosure _ _).gather_eq] at hsearch
      refine ⟨a.closureOf r s.direct, ?_, ?_⟩
      · rw [AtlasM.exec_allDependencies_new hs hc]
        unfold Atlas.closureOf
        cases hg : a.gather r (a.size + 1) (Atlas.enqueue r [] s.direct []) [] <;>
          rw [hg] at hsearch <;> exact hsearch
      · rw [AtlasM.exec_allDependencies_new hs hc]
        cases a.closureOf r s.direct <;> rfl

end Calls

end SymbolAtlas
