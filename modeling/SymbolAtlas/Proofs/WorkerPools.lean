import SymbolAtlas.Proofs.ConcurrentClosures
import SymbolAtlas.Proofs.RunGraph

set_option autoImplicit false

/-! # Stages with workers

A stage can hand its entries to workers that run at the same time. A worker takes one small step at
a time, and a list of turns says whose step comes next; every list of turns is a schedule. A worker
that begins after the run was cancelled or has failed gives up. A worker that fails reports it.

A worker that binds an entry carries out the effects of the entry's script, each decided on the
atlas as it stands (`binding`). One that closes an entry takes the steps of a call for a closure
(`closing`). `runUnder` is a run whose last two stages are worked on under two schedules.

Whatever the schedule, the binding workers carry out one plan (`stageUnder_binding`) and the closing
workers compute every closure once (`stageUnder_closing`). No schedule goes on for ever or comes to
a halt before all workers are done (`complete_binding`, `complete_closing`). -/

namespace SymbolAtlas.Binding

open Manifest

/-! ## Pools -/

/-- How far a worker has come. -/
inductive Worker (σ : Type) where
  | waiting
  | busy (state : σ)
  | done

def Worker.isDone {σ : Type} : Worker σ → Bool
  | .done => true
  | .waiting | .busy _ => false

theorem Worker.isDone_iff {σ : Type} {w : Worker σ} : w.isDone = true ↔ w = .done := by
  cases w <;> simp [Worker.isDone]

/-- The work on one entry. -/
structure Task (σ : Type) where
  entry : Entry
  symbol : SymbolRef
  worker : Worker σ := .waiting

/-- Workers that share a run. -/
structure Pool (σ : Type) where
  run : Run
  tasks : List (Task σ)

/-- A kind of work: where a worker begins, and what it does next to the run and to itself. A worker
that has to wait does nothing. -/
structure Work (σ : Type) where
  first : σ
  act : Pool σ → Entry → SymbolRef → σ → Option (Run × Worker σ)

def Run.fail (run : Run) (e : SymbolError) : Run :=
  { run with error := some (run.error.getD e) }

/-- A step of the worker of an entry. If it fails the worker reports that and gives up. -/
def attempt {σ : Type} (e : Entry) (step : RunM Unit) (next : Worker σ) (run : Run) :
    Run × Worker σ :=
  match exec (RunM.guarded e step) run with
  | (.ok _, run) => (run, next)
  | (.error err, run) => (run.fail err, .done)

namespace Work

variable {σ : Type} (w : Work σ)

/-- What the worker of a task does next. -/
def next (s : Pool σ) (t : Task σ) : Option (Run × Worker σ) :=
  match t.worker with
  | .waiting =>
    if s.run.canceled || s.run.error.isSome then some (s.run.fail .canceled, .done)
    else some (s.run, .busy w.first)
  | .busy x => w.act s t.entry t.symbol x
  | .done => none

/-- Lets the worker of task number `i` take its next step. -/
def turn (s : Pool σ) (i : Nat) : Option (Pool σ) :=
  match s.tasks[i]? with
  | none => none
  | some t =>
    match w.next s t with
    | none => none
    | some (run, worker) => some ⟨run, s.tasks.set i { t with worker }⟩

def follow (s : Pool σ) (turns : List Nat) : Option (Pool σ) :=
  turns.foldlM w.turn s

/-- A pool with a worker for every entry. -/
def pool (run : Run) : Pool σ :=
  ⟨run, (roster run.program run.atlas).map fun m => { entry := m.1, symbol := m.2 }⟩

/-- A stage under a schedule: the run after it, if the schedule ends with every worker done. A run
that has failed is left alone. -/
def stageUnder (turns : List Nat) (run : Run) : Option Run :=
  if run.error.isSome then some run
  else
    match w.follow (pool run) turns with
    | none => none
    | some s => if s.tasks.all (·.worker.isDone) then some s.run else none

end Work

/-- Binding: a worker has done the given number of effects of its script. -/
def binding : Work Nat where
  first := 0
  act s e r done :=
    match (script s.run.atlas e r)[done]? with
    | none => some (s.run, .done)
    | some x => some (attempt e x.perform (.busy (done + 1)) s.run)

def Pool.free (s : Pool Call.Phase) (r : SymbolRef) : Bool :=
  s.tasks.all fun t =>
    match t.worker with
    | .busy phase => !(t.symbol = r && phase.holds)
    | .waiting | .done => true

/-- A worker whose call has come to a phase. -/
def Worker.ofPhase : Call.Phase → Worker Call.Phase
  | .answered _ => .done
  | phase => .busy phase

/-- Closing: a worker is at a phase of its call for the closure. -/
def closing : Work Call.Phase where
  first := .asked
  act s e r phase :=
    match phase.next s.run.atlas (s.free r) r with
    | none => none
    | some (atlas, .answered (.error u)) =>
      some (attempt e (RunM.onAtlas (AtlasM.violate .unboundReached (some u))) .done
        { s.run with atlas })
    | some (atlas, phase) => some ({ s.run with atlas }, .ofPhase phase)

/-- A run whose entries are bound and closed by workers under two schedules. -/
def runUnder (p : Program) (o : Options) (trace : Trace) (binds closes : List Nat) : Option Run :=
  (binding.stageUnder binds (stage "declare" declareAll (start p o trace))).bind
    (closing.stageUnder closes)

/-! ## Turns -/

namespace Work

variable {σ : Type} {w : Work σ}

theorem turn_cases {s s' : Pool σ} {i : Nat} (h : w.turn s i = some s') :
    ∃ t run worker, s.tasks[i]? = some t ∧ w.next s t = some (run, worker) ∧
      s' = ⟨run, s.tasks.set i { t with worker }⟩ := by
  unfold turn at h
  cases ht : s.tasks[i]? with
  | none => simp [ht] at h
  | some t =>
      rw [ht] at h
      dsimp only at h
      cases hn : w.next s t with
      | none => simp [hn] at h
      | some next =>
          rw [hn] at h
          exact ⟨t, next.1, next.2, rfl, hn, (Option.some.inj h).symm⟩

theorem exists_turn {s : Pool σ} {i : Nat} {t : Task σ} (ht : s.tasks[i]? = some t)
    {next : Run × Worker σ} (hn : w.next s t = some next) : ∃ s', w.turn s i = some s' := by
  unfold turn
  rw [ht]
  dsimp only
  rw [hn]
  exact ⟨_, rfl⟩

theorem stageUnder_eq_some_iff {turns : List Nat} {run run' : Run} (herror : run.error = none) :
    w.stageUnder turns run = some run' ↔
      ∃ s, w.follow (pool run) turns = some s ∧ (∀ t ∈ s.tasks, t.worker = .done) ∧
      s.run = run' := by
  unfold stageUnder
  rw [if_neg (by simp [herror])]
  cases hs : w.follow (pool run) turns with
  | none => simp
  | some s => simp [List.all_eq_true, Worker.isDone_iff]

/-- Workers leave a run that has failed alone, so only a run that has not can succeed. -/
theorem error_eq_none_of_stageUnder {turns : List Nat} {run run' : Run}
    (h : w.stageUnder turns run = some run') (herror : run'.error = none) : run.error = none := by
  by_contra hne
  unfold stageUnder at h
  rw [if_pos (Option.isSome_iff_ne_none.mpr hne)] at h
  obtain rfl : run = run' := Option.some.inj h
  exact hne herror

theorem symbols_turn {s s' : Pool σ} {i : Nat} (h : w.turn s i = some s') :
    s'.tasks.map Task.symbol = s.tasks.map Task.symbol := by
  obtain ⟨t, run, worker, ht, -, rfl⟩ := turn_cases h
  obtain ⟨before, after, htasks, hset⟩ := exists_split ht
  dsimp only
  rw [hset, htasks, List.map_append, List.map_append, List.map_cons, List.map_cons]

theorem next_waiting {s : Pool σ} {t : Task σ} (ht : t.worker = .waiting)
    (hcanceled : s.run.canceled = false) (herror : s.run.error = none) :
    w.next s t = some (s.run, .busy w.first) := by
  unfold next
  rw [ht]
  dsimp only
  rw [hcanceled, herror]
  rfl

end Work

/-! ## Coming to an end -/

/-- What the workers have still to do, if `cost` says it of one. -/
def Pool.left {σ : Type} (cost : Task σ → Nat) (s : Pool σ) : Nat :=
  (s.tasks.map cost).sum

theorem Pool.left_set_lt {σ : Type} {cost : Task σ → Nat} {s : Pool σ} {i : Nat} {t : Task σ}
    (ht : s.tasks[i]? = some t) {u : Task σ} (hlt : cost u < cost t) (run : Run) :
    Pool.left cost ⟨run, s.tasks.set i u⟩ < s.left cost := by
  obtain ⟨before, after, htasks, hset⟩ := exists_split ht
  unfold Pool.left
  dsimp only
  rw [hset, htasks]
  simp only [List.map_append, List.map_cons, List.sum_append, List.sum_cons]
  omega

namespace Work

variable {σ : Type} {w : Work σ}

/-- **Workers come to an end** if every turn leaves less to do and some worker can go on as long as
not all are done. -/
theorem exists_completion {P : Pool σ → Prop} {left : Pool σ → Nat}
    (hturn : ∀ {s s' i}, P s → w.turn s i = some s' → P s' ∧ left s' < left s)
    (hgo : ∀ {s t}, P s → t ∈ s.tasks → t.worker ≠ .done → ∃ i s', w.turn s i = some s')
    {s : Pool σ} (h : P s) :
    ∃ turns s', w.follow s turns = some s' ∧ ∀ t ∈ s'.tasks, t.worker = .done := by
  obtain ⟨turns, s', hrun, -, hdone⟩ := foldlM_completion left
    (fun s => ∀ t ∈ s.tasks, t.worker = .done) hturn (fun hs hundone => by
      push Not at hundone
      obtain ⟨t, ht, hundone⟩ := hundone
      exact hgo hs ht hundone) h
  exact ⟨turns, s', hrun, hdone⟩

/-- A schedule can be carried on from where its workers are. -/
theorem stageUnder_append {run : Run} (herror : run.error = none) (turns : List Nat)
    {more : List Nat} {s s' : Pool σ} (hs : w.follow (pool run) turns = some s)
    (hs' : w.follow s more = some s') (hdone : ∀ t ∈ s'.tasks, t.worker = .done) :
    w.stageUnder (turns ++ more) run = some s'.run := by
  rw [stageUnder_eq_some_iff herror]
  refine ⟨s', ?_, hdone, rfl⟩
  unfold follow at hs hs' ⊢
  rw [List.foldlM_append, hs]
  exact hs'

/-! ## Cancelled runs -/

/-- The workers of a cancelled run have done nothing, and one that gave up has failed the run. -/
structure Idle (run : Run) (s : Pool σ) : Prop where
  atlas : s.run.atlas = run.atlas
  bag : s.run.bag = run.bag
  canceled : s.run.canceled = true
  idle : ∀ t ∈ s.tasks, t.worker = .waiting ∨ t.worker = .done
  failed : ∀ t ∈ s.tasks, t.worker = .done → s.run.error ≠ none
  length_tasks : s.tasks.length = (roster run.program run.atlas).length

theorem Idle.start {run : Run} (hc : run.canceled = true) : Idle run (pool run : Pool σ) where
  atlas := rfl
  bag := rfl
  canceled := hc
  idle := by
    intro t ht
    obtain ⟨m, -, rfl⟩ := List.mem_map.mp ht
    exact Or.inl rfl
  failed := by
    intro t ht hdone
    obtain ⟨m, -, rfl⟩ := List.mem_map.mp ht
    cases hdone
  length_tasks := List.length_map ..

theorem next_canceled {s : Pool σ} {t : Task σ} (ht : t.worker = .waiting)
    (hc : s.run.canceled = true) : w.next s t = some (s.run.fail .canceled, .done) := by
  unfold next
  rw [ht]
  dsimp only
  rw [hc, Bool.true_or, if_pos rfl]

/-- A worker that is not done counts one. -/
def undone (t : Task σ) : Nat :=
  if t.worker.isDone then 0 else 1

theorem Idle.turn {run : Run} {s s' : Pool σ} {i : Nat} (h : Idle run s)
    (hturn : w.turn s i = some s') : Idle run s' ∧ s'.left undone < s.left undone := by
  obtain ⟨t, run', worker, ht, hnext, rfl⟩ := turn_cases hturn
  rcases h.idle t (List.mem_of_getElem? ht) with hw | hw
  · rw [next_canceled hw h.canceled] at hnext
    obtain ⟨rfl, rfl⟩ := hnext
    refine ⟨⟨h.atlas, h.bag, h.canceled, ?_, ?_, ?_⟩, Pool.left_set_lt ht ?_ _⟩
    · intro u hu
      rcases List.mem_or_eq_of_mem_set hu with hu | rfl
      · exact h.idle u hu
      · exact Or.inr rfl
    · intro u _ _
      simp [Run.fail]
    · rw [List.length_set, h.length_tasks]
    · simp [undone, hw, Worker.isDone]
  · simp [next, hw] at hnext

/-- **Workers of a cancelled run do nothing.** -/
theorem stageUnder_canceled {turns : List Nat} {run run' : Run}
    (h : w.stageUnder turns run = some run') (hc : run.canceled = true) :
    run'.atlas = run.atlas ∧ run'.bag = run.bag ∧ run'.canceled = true := by
  by_cases herror : run.error = none
  · obtain ⟨s, hs, -, rfl⟩ := (stageUnder_eq_some_iff herror).mp h
    have hidle : Idle run s := foldlM_invariant (fun h hturn => (h.turn hturn).1) (.start hc) hs
    exact ⟨hidle.atlas, hidle.bag, hidle.canceled⟩
  · unfold stageUnder at h
    rw [if_pos (Option.isSome_iff_ne_none.mpr herror)] at h
    obtain rfl : run = run' := Option.some.inj h
    exact ⟨rfl, rfl, hc⟩

/-- A cancelled run fails, unless there is nothing to do. -/
theorem roster_eq_nil_of_canceled {turns : List Nat} {run run' : Run}
    (h : w.stageUnder turns run = some run') (hc : run.canceled = true) (herror : run.error = none)
    (herror' : run'.error = none) : roster run.program run.atlas = [] := by
  obtain ⟨s, hs, hdone, rfl⟩ := (stageUnder_eq_some_iff herror).mp h
  have hidle : Idle run s := foldlM_invariant (fun h hturn => (h.turn hturn).1) (.start hc) hs
  rw [← List.length_eq_zero_iff, ← hidle.length_tasks, List.length_eq_zero_iff]
  refine List.eq_nil_iff_forall_not_mem.mpr fun t ht => ?_
  exact hidle.failed t ht (hdone t ht) herror'

/-- The workers of a cancelled run can all give up. -/
theorem complete_canceled (w : Work σ) {run : Run} (hc : run.canceled = true) :
    ∃ turns run', w.stageUnder turns run = some run' := by
  by_cases herror : run.error = none
  · obtain ⟨turns, s', hs', hdone⟩ := exists_completion (w := w) (P := Idle run)
      (fun h hturn => h.turn hturn)
      (fun {s t} h ht hundone => by
        obtain ⟨i, hi⟩ := List.mem_iff_getElem?.mp ht
        have hwaiting := (h.idle t ht).resolve_right hundone
        exact ⟨i, exists_turn hi (next_canceled hwaiting h.canceled)⟩)
      (.start hc)
    exact ⟨_, _, stageUnder_append herror [] rfl hs' hdone⟩
  · refine ⟨[], run, ?_⟩
    unfold stageUnder
    rw [if_pos (Option.isSome_iff_ne_none.mpr herror)]

end Work

theorem attempt_ok {σ : Type} {e : Entry} {step : RunM Unit} {next : Worker σ} {run run' : Run}
    (h : exec step run = (.ok (), run')) : attempt e step next run = (run', next) := by
  unfold attempt
  rw [RunM.exec_guarded_ok h e]

/-! ## Binding -/

/-- The effects that a worker has still to do. -/
def Task.rest (a : Atlas) (t : Task Nat) : List Effect :=
  match t.worker with
  | .waiting => script a t.entry t.symbol
  | .busy done => (script a t.entry t.symbol).drop done
  | .done => []

/-- The steps that a binding worker has still to take. -/
def Task.effectsLeft (a : Atlas) (t : Task Nat) : Nat :=
  match t.worker with
  | .waiting => (t.rest a).length + 2
  | .busy _ => (t.rest a).length + 1
  | .done => 0

/-- **The workers carry out a plan** from the run `d` on: what was done is known, and together with
what the workers have still to do it is the plan. -/
def Carrying (a : Atlas) (d : Run) (plan : List Effect) (s : Pool Nat) : Prop :=
  ∃ done, s.run = d.enact done ∧ (done ++ s.tasks.flatMap (Task.rest a)).Perm plan

/-- The workers start with the whole plan before them. -/
theorem Carrying.start (a : Atlas) (d : Run) : Carrying a d
    ((roster d.program d.atlas).flatMap fun m => script a m.1 m.2) (Work.pool d) := by
  refine ⟨[], rfl, ?_⟩
  unfold Work.pool
  rw [List.nil_append, List.flatMap_map]
  exact .refl _

section Binding

variable {a : Atlas} (ha : WrittenBy [] a)

include ha

/-- **A worker does the next effect that it has to do**, or only begins or ends. -/
theorem next_binding {s : Pool Nat} (hsk : s.run.atlas.skeleton = a.skeleton)
    (hcanceled : s.run.canceled = false) (herror : s.run.error = none) {t : Task Nat}
    (hready : Ready (t.rest a) s.run.atlas) (hundone : t.worker ≠ .done) :
    ∃ xs worker, binding.next s t = some (s.run.enact xs, worker) ∧
      t.rest a = xs ++ Task.rest a { t with worker } ∧
      Task.effectsLeft a { t with worker } < t.effectsLeft a := by
  cases hw : t.worker with
  | waiting =>
      refine ⟨[], .busy 0, Work.next_waiting hw hcanceled herror, ?_, ?_⟩
      · simp [Task.rest, hw]
      · simp [Task.effectsLeft, Task.rest, hw]
  | busy k =>
      have hrest : t.rest a = (script a t.entry t.symbol).drop k := by simp [Task.rest, hw]
      have hnext : binding.next s t = binding.act s t.entry t.symbol k := by simp [Work.next, hw]
      rw [hnext]
      rw [hrest] at hready ⊢
      unfold binding
      dsimp only
      by_cases hk : k < (script a t.entry t.symbol).length
      · -- the script is still what it was when nothing was written
        have hscript : script s.run.atlas t.entry t.symbol = script a t.entry t.symbol :=
          script_eq_of_ready ha hsk (fun hb => bound_mem_drop_script hb hk) hready
        rw [List.drop_eq_getElem_cons hk] at hready ⊢
        set x := (script a t.entry t.symbol)[k] with hx
        have hfirst : Ready ([x] ++ (script a t.entry t.symbol).drop (k + 1)) s.run.atlas := hready
        have hdo : exec x.perform s.run = (.ok (), s.run.enact [x]) := hfirst.left.perform
        rw [hscript, List.getElem?_eq_getElem hk, ← hx]
        refine ⟨[x], .busy (k + 1), congrArg some (attempt_ok hdo), ?_, ?_⟩
        · simp [Task.rest]
        · simp only [Task.effectsLeft, Task.rest, hw, List.length_drop]
          omega
      · -- the script is over: it cannot have grown, so nothing is found at place `k`
        have hend : (script a t.entry t.symbol).drop k = [] := List.drop_eq_nil_of_le (by omega)
        have hnone : (script s.run.atlas t.entry t.symbol)[k]? = none := by
          obtain ⟨written, hwritten, -, -⟩ := hready
          have := length_script_le ha hwritten hsk t.entry t.symbol
          exact List.getElem?_eq_none (by omega)
        rw [hnone, hend]
        refine ⟨[], .done, rfl, rfl, ?_⟩
        simp [Task.effectsLeft, hw]
  | done => exact absurd hw hundone

variable {d : Run} (hsk : d.atlas.skeleton = a.skeleton) (hcanceled : d.canceled = false)
  (herror : d.error = none) {plan : List Effect} (hready : Ready plan d.atlas)

include hsk hcanceled herror hready

theorem Carrying.next {s : Pool Nat} (h : Carrying a d plan s) {t : Task Nat} (ht : t ∈ s.tasks)
    (hundone : t.worker ≠ .done) :
    ∃ xs worker, binding.next s t = some (s.run.enact xs, worker) ∧
      t.rest a = xs ++ Task.rest a { t with worker } ∧
      Task.effectsLeft a { t with worker } < t.effectsLeft a := by
  obtain ⟨done, hrun, hperm⟩ := h
  have hskeleton : s.run.atlas.skeleton = a.skeleton := by
    rw [hrun]
    exact (skeleton_changeAll done d.atlas).trans hsk
  refine next_binding ha hskeleton (hrun ▸ hcanceled) (hrun ▸ herror) ?_ hundone
  -- what is left of the plan can be done in any order
  obtain ⟨before, after, htasks⟩ := List.append_of_mem ht
  rw [htasks, List.flatMap_append, List.flatMap_cons] at hperm
  have hlater := (hready.perm hperm.symm).right
  rw [hrun]
  exact (hlater.perm (List.perm_append_comm_assoc ..)).left

/-- **One turn carries on the plan.** -/
theorem Carrying.turn {s s' : Pool Nat} {i : Nat} (h : Carrying a d plan s)
    (hturn : binding.turn s i = some s') :
    Carrying a d plan s' ∧ s'.left (Task.effectsLeft a) < s.left (Task.effectsLeft a) := by
  obtain ⟨t, run, worker, ht, hnext, rfl⟩ := Work.turn_cases hturn
  have hundone : t.worker ≠ .done := by
    intro hw
    simp [Work.next, hw] at hnext
  obtain ⟨xs, worker', hnext', hrest, hlt⟩ :=
    h.next ha hsk hcanceled herror hready (List.mem_of_getElem? ht) hundone
  rw [hnext'] at hnext
  obtain ⟨rfl, rfl⟩ := hnext
  refine ⟨?_, Pool.left_set_lt ht hlt _⟩
  obtain ⟨done, hrun, hperm⟩ := h
  obtain ⟨before, after, htasks, hset⟩ := exists_split ht
  rw [htasks, List.flatMap_append, List.flatMap_cons, hrest] at hperm
  refine ⟨done ++ xs, by rw [hrun, enact_append], ?_⟩
  dsimp only
  rw [hset, List.flatMap_append, List.flatMap_cons, List.append_assoc]
  -- what is done now moves from the rest of its worker to what was done
  refine List.Perm.trans (.append_left done ?_) hperm
  rw [List.append_assoc]
  exact List.perm_append_comm_assoc ..

variable (hplan : (roster d.program d.atlas).flatMap (fun m => script a m.1 m.2) = plan)

include hplan

theorem carrying_of_follow {turns : List Nat} {s : Pool Nat}
    (hs : binding.follow (Work.pool d) turns = some s) : Carrying a d plan s :=
  foldlM_invariant (fun h hturn => (h.turn ha hsk hcanceled herror hready hturn).1)
    (hplan ▸ Carrying.start a d) hs

/-- **Binding under any schedule carries out the plan**, in some order. -/
theorem stageUnder_binding {turns : List Nat} {run' : Run}
    (h : binding.stageUnder turns d = some run') :
    ∃ done, run' = d.enact done ∧ done.Perm plan := by
  obtain ⟨s, hs, hdone, rfl⟩ := (Work.stageUnder_eq_some_iff herror).mp h
  obtain ⟨done, hrun, hperm⟩ := carrying_of_follow ha hsk hcanceled herror hready hplan hs
  have hnone : s.tasks.flatMap (Task.rest a) = [] := by
    rw [List.flatMap_eq_nil_iff]
    intro t ht
    unfold Task.rest
    rw [hdone t ht]
  rw [hnone, List.append_nil] at hperm
  exact ⟨done, hrun, hperm⟩

/-- **No schedule leaves the binding workers stuck**: wherever they are, they can come to an end. -/
theorem complete_binding {turns : List Nat} {s : Pool Nat}
    (hs : binding.follow (Work.pool d) turns = some s) :
    ∃ more run', binding.stageUnder (turns ++ more) d = some run' := by
  have hgo : ∀ {s : Pool Nat} {t : Task Nat}, Carrying a d plan s → t ∈ s.tasks → t.worker ≠ .done →
      ∃ i s', binding.turn s i = some s' := by
    intro s t h ht hundone
    obtain ⟨i, hi⟩ := List.mem_iff_getElem?.mp ht
    obtain ⟨xs, worker, hnext, -, -⟩ := h.next ha hsk hcanceled herror hready ht hundone
    exact ⟨i, Work.exists_turn hi hnext⟩
  obtain ⟨more, s', hs', hdone⟩ := Work.exists_completion
    (fun h hturn => h.turn ha hsk hcanceled herror hready hturn) hgo
    (carrying_of_follow ha hsk hcanceled herror hready hplan hs)
  exact ⟨more, s'.run, Work.stageUnder_append herror turns hs hs' hdone⟩

end Binding

/-! ## Closing -/

section Lists

variable {α β : Type} {R : α → β → Prop} {xs : List α} {ys : List β}

theorem forall₂_set (h : List.Forall₂ R xs ys) {x : α} {y : β} (hxy : R x y) (i : Nat) :
    List.Forall₂ R (xs.set i x) (ys.set i y) := by
  induction h generalizing i with
  | nil => exact .nil
  | cons hhead htail ih =>
      cases i with
      | zero => exact .cons hxy htail
      | succ i => exact .cons hhead (ih i)

theorem forall₂_getElem? (h : List.Forall₂ R xs ys) {i : Nat} {x : α} (hi : xs[i]? = some x) :
    ∃ y, ys[i]? = some y ∧ R x y := by
  induction h generalizing i with
  | nil => simp at hi
  | cons hhead htail ih =>
      cases i with
      | zero =>
          obtain rfl : _ = x := Option.some.inj hi
          exact ⟨_, rfl, hhead⟩
      | succ i => exact ih hi

theorem forall₂_all (h : List.Forall₂ R xs ys) {f : α → Bool} {g : β → Bool}
    (hfg : ∀ x y, R x y → f x = g y) : xs.all f = ys.all g := by
  induction h with
  | nil => rfl
  | cons hhead htail ih => rw [List.all_cons, List.all_cons, hfg _ _ hhead, ih]

theorem map_eq_of_forall₂ {γ : Type} (h : List.Forall₂ R xs ys) {f : α → γ} {g : β → γ}
    (hfg : ∀ x y, R x y → f x = g y) : xs.map f = ys.map g := by
  induction h with
  | nil => rfl
  | cons hhead htail ih => rw [List.map_cons, List.map_cons, hfg _ _ hhead, ih]

end Lists

/-- The steps that a closing worker has still to take, among `n` symbols. -/
def Task.phasesLeft (n : Nat) (t : Task Call.Phase) : Nat :=
  match t.worker with
  | .waiting => Call.Phase.asked.left n + 1
  | .busy phase => phase.left n
  | .done => 0

theorem Task.phasesLeft_ofPhase (n : Nat) {t : Task Call.Phase} (phase : Call.Phase)
    (h : t.worker = .ofPhase phase) : t.phasesLeft n = phase.left n := by
  unfold Task.phasesLeft
  rw [h]
  cases phase <;> rfl

/-- The call does what the worker of the task does. -/
structure Shadows (t : Task Call.Phase) (c : Call) : Prop where
  root : c.root = t.symbol
  state : (t.worker = .waiting ∧ c.phase = .asked) ∨ t.worker = .ofPhase c.phase

theorem Worker.ofPhase_eq_done_iff {phase : Call.Phase} :
    Worker.ofPhase phase = .done ↔ phase.isAnswered = true := by
  cases phase <;> simp [Worker.ofPhase, Call.Phase.isAnswered]

theorem Shadows.done_iff {t : Task Call.Phase} {c : Call} (h : Shadows t c) :
    t.worker = .done ↔ c.phase.isAnswered = true := by
  rcases h.state with ⟨hw, hc⟩ | hw
  · simp [hw, hc, Call.Phase.isAnswered]
  · rw [hw, Worker.ofPhase_eq_done_iff]

/-- **The workers act as calls on the atlas `b`**, and nothing else of the run `d` changes. -/
structure Calling (b : Atlas) (d : Run) (s : Pool Call.Phase) (t : Calls) : Prop where
  consistent : t.Consistent b
  run : s.run = { d with atlas := t.atlas }
  shadows : List.Forall₂ Shadows s.tasks t.calls

theorem Calling.free {b : Atlas} {d : Run} {s : Pool Call.Phase} {t : Calls} (h : Calling b d s t)
    (r : SymbolRef) : s.free r = t.free r := by
  refine forall₂_all h.shadows fun task call hc => ?_
  rw [hc.root]
  rcases hc.state with ⟨hw, hphase⟩ | hw
  · simp [hw, hphase, Call.Phase.holds]
  · rw [hw]
    cases call.phase <;> simp [Worker.ofPhase, Call.Phase.holds]

/-- A worker that has begun takes a step when its call does. -/
theorem Calling.next_busy {b : Atlas} {d : Run} {s : Pool Call.Phase} {t : Calls}
    (h : Calling b d s t) {task : Task Call.Phase} {call : Call} (hroot : call.root = task.symbol)
    (hw : task.worker = .ofPhase call.phase) : closing.next s task =
      match call.phase.next t.atlas (t.free call.root) call.root with
      | none => none
      | some (atlas, .answered (.error u)) =>
        some (attempt task.entry (RunM.onAtlas (AtlasM.violate .unboundReached (some u))) .done
          { d with atlas })
      | some (atlas, phase) => some ({ d with atlas }, .ofPhase phase) := by
  have hact : closing.next s task = closing.act s task.entry task.symbol call.phase ∨
      (closing.next s task = none ∧ ∃ answer, call.phase = .answered answer) := by
    unfold Work.next
    rw [hw]
    cases call.phase with
    | answered answer => exact Or.inr ⟨rfl, answer, rfl⟩
    | asked | missed | locked | searching | releasing => exact Or.inl rfl
  rcases hact with hact | ⟨hnone, answer, hanswer⟩
  · rw [hact]
    unfold closing
    simp only [h.free, h.run, ← hroot]
  · rw [hnone, hanswer]
    rfl

section Turns

variable {b : Atlas} {d : Run} (hcanceled : d.canceled = false) (herror : d.error = none)
  {s : Pool Call.Phase} {t : Calls} (h : Calling b d s t)

include hcanceled herror h

theorem Calling.next_waiting {task : Task Call.Phase} (hw : task.worker = .waiting) :
    closing.next s task = some (s.run, .busy .asked) := by
  have hrun := h.run
  refine Work.next_waiting hw ?_ ?_
  · rw [hrun]
    exact hcanceled
  · rw [hrun]
    exact herror

/-- **One turn of a worker is a step of its call**, or the worker begins. -/
theorem Calling.turn {s' : Pool Call.Phase} {i : Nat} (hturn : closing.turn s i = some s') :
    (∃ t', Calling b d s' t') ∧
      s'.left (Task.phasesLeft b.size) < s.left (Task.phasesLeft b.size) := by
  obtain ⟨task, run, worker, htask, hnext, rfl⟩ := Work.turn_cases hturn
  obtain ⟨call, hcall, hshadow⟩ := forall₂_getElem? h.shadows htask
  rcases hshadow.state with ⟨hw, hphase⟩ | hw
  · rw [h.next_waiting hcanceled herror hw] at hnext
    obtain ⟨rfl, rfl⟩ := hnext
    have hself : t.calls.set i call = t.calls := by
      obtain ⟨hi, rfl⟩ := List.getElem?_eq_some_iff.mp hcall
      exact List.set_getElem_self hi
    have hbusy : Shadows { task with worker := .busy .asked } call :=
      ⟨hshadow.root, Or.inr (by rw [hphase]; rfl)⟩
    refine ⟨⟨t, h.consistent, h.run, ?_⟩, Pool.left_set_lt htask ?_ _⟩
    · rw [← hself]
      exact forall₂_set h.shadows hbusy i
    · simp [Task.phasesLeft, hw]
  · rw [h.next_busy hshadow.root hw] at hnext
    cases hn : call.phase.next t.atlas (t.free call.root) call.root with
    | none => simp [hn] at hnext
    | some next =>
        obtain ⟨atlas, phase⟩ := next
        have hstep : t.step i = some ⟨atlas, t.calls.set i { call with phase }⟩ := by
          unfold Calls.step
          rw [hcall]
          dsimp only
          rw [hn]
        have hconsistent := h.consistent.step hstep
        -- no call fails, because the atlas is settled
        have hnext' : run = { d with atlas } ∧ worker = .ofPhase phase := by
          rw [hn] at hnext
          cases phase with
          | answered answer =>
              have hfact := hconsistent.fact (i := i)
                ((Calls.getElem?_set_iff hcall).mpr (Or.inl ⟨rfl, rfl⟩))
              obtain ⟨c, rfl, -⟩ := hfact
              obtain ⟨rfl, rfl⟩ := hnext
              exact ⟨rfl, rfl⟩
          | asked | missed | locked | searching | releasing =>
              obtain ⟨rfl, rfl⟩ := hnext
              exact ⟨rfl, rfl⟩
        obtain ⟨rfl, rfl⟩ := hnext'
        have hbusy : Shadows { task with worker := .ofPhase phase } { call with phase } :=
          ⟨hshadow.root, Or.inr rfl⟩
        refine ⟨⟨_, hconsistent, rfl, forall₂_set h.shadows hbusy i⟩, Pool.left_set_lt htask ?_ _⟩
        obtain ⟨sc, hsc⟩ := h.consistent.exists_symbol hcall
        have hlt := (Call.Phase.step_of_next hn).left_lt h.consistent.settled hsc
          (h.consistent.fact hcall)
        rw [Atlas.size_eq_of_skeleton h.consistent.skeleton] at hlt
        rwa [Task.phasesLeft_ofPhase b.size call.phase hw,
          Task.phasesLeft_ofPhase b.size phase rfl]

/-- **Some worker can go on** while not all are done. -/
theorem Calling.progress {task : Task Call.Phase} (htask : task ∈ s.tasks)
    (hundone : task.worker ≠ .done) : ∃ i s', closing.turn s i = some s' := by
  obtain ⟨i, hi⟩ := List.mem_iff_getElem?.mp htask
  obtain ⟨call, hcall, hshadow⟩ := forall₂_getElem? h.shadows hi
  have hover : call.phase.isAnswered = false := by
    rw [← Bool.not_eq_true, ← hshadow.done_iff]
    exact hundone
  obtain ⟨j, other, hother, ⟨atlas, phase⟩, hnext⟩ := h.consistent.progress hcall hover
  obtain ⟨task', htask', hshadow'⟩ := forall₂_getElem? h.shadows.flip hother
  rcases hshadow'.state with ⟨hw, -⟩ | hw
  · exact ⟨j, Work.exists_turn htask' (h.next_waiting hcanceled herror hw)⟩
  · have hact := h.next_busy hshadow'.root hw
    rw [hnext] at hact
    cases phase with
    | asked | missed | locked | searching | releasing => exact ⟨j, Work.exists_turn htask' hact⟩
    | answered answer =>
        cases answer with
        | ok c => exact ⟨j, Work.exists_turn htask' hact⟩
        | error u => exact ⟨j, Work.exists_turn htask' hact⟩

end Turns

section Answered

variable {p : Program} {b : Atlas} (hl : Layout p b) {t : Calls} (ht : t.Consistent b)
  (hroots : t.calls.map Call.root = (roster p b).map Prod.snd)
  (hanswered : ∀ c ∈ t.calls, c.phase.isAnswered = true)

include hl ht hroots hanswered

/-- Once every call is answered, the closures of all symbols are kept. -/
theorem kept_of_answered (r : SymbolRef) :
    (t.atlas.kept? r).isSome ↔ r ∈ (roster p b).map Prod.snd := by
  constructor
  · intro hr
    obtain ⟨c, hc⟩ := Option.isSome_iff_exists.mp hr
    obtain ⟨s, hs, -⟩ := Option.bind_eq_some_iff.mp hc
    obtain ⟨s', hs', -⟩ := ht.same.symm.symbol hs
    rw [mem_roster_symbols hl, hs']
    rfl
  · intro hr
    rw [← hroots] at hr
    obtain ⟨call, hcall, rfl⟩ := List.mem_map.mp hr
    obtain ⟨i, hi⟩ := List.mem_iff_getElem?.mp hcall
    have hfact := ht.fact hi
    obtain ⟨answer, hphase⟩ := Call.Phase.isAnswered_iff.mp (hanswered call hcall)
    rw [hphase] at hfact
    obtain ⟨c, -, hc⟩ := hfact
    rw [hc]
    rfl

theorem closing_of_answered (hp : p.WellFormed) (hb : Closing b [] b) :
    Closing b ((roster p b).map Prod.snd) t.atlas := by
  have hkept := kept_of_answered hl ht hroots hanswered
  refine ⟨ht.same, ht.skeleton, ht.settled, ?_, ?_⟩
  · intro q s hs
    rw [← hkept, Atlas.kept?_eq hs]
  · obtain ⟨started, hnodup, hmem, hcount⟩ := ht.counted
    -- nothing is being computed any more, so what was started is kept
    have hperm : started.Perm ((roster p b).map Prod.snd) := by
      rw [List.perm_ext_iff_of_nodup hnodup (nodup_roster hp hl)]
      intro r
      rw [hmem, ← hkept]
      constructor
      · rintro ⟨-, hr | ⟨i, c, hc, -, hsearch⟩⟩
        · exact hr
        · obtain ⟨answer, hphase⟩ :=
            Call.Phase.isAnswered_iff.mp (hanswered c (List.mem_of_getElem? hc))
          rw [hphase] at hsearch
          cases hsearch
      · intro hr
        refine ⟨?_, Or.inl hr⟩
        cases hs : b.symbol? r with
        | none => simp [Atlas.kept?, hs]
        | some s =>
            rw [Atlas.kept?_eq hs, ← Option.not_isSome_iff_eq_none, hb.closed_iff hs]
            exact List.not_mem_nil
    have htable : ∀ r ∈ (roster p b).map Prod.snd, r.table = table := by
      intro r hr
      obtain ⟨m, hm, rfl⟩ := List.mem_map.mp hr
      exact Atlas.table_of_find? (mem_roster.mp hm).2
    rw [hcount, hb.count, hperm.countP_eq, List.countP_eq_length.mpr (by simpa using htable)]
    exact Nat.zero_add _

end Answered

section Closing

variable {p : Program} (hp : p.WellFormed) {d : Run} (hprogram : d.program = p)
  (hcanceled : d.canceled = false) (herror : d.error = none) (hl : Layout p d.atlas)
  (hd : Closing d.atlas [] d.atlas)

include hprogram hcanceled herror hl hd

/-- Workers that close entries act as calls for their closures. -/
theorem calling_of_follow {turns : List Nat} {s : Pool Call.Phase}
    (hs : closing.follow (Work.pool d) turns = some s) : ∃ t, Calling d.atlas d s t := by
  subst hprogram
  have hstart : Calling d.atlas d (Work.pool d)
      ⟨d.atlas, ((roster d.program d.atlas).map Prod.snd).map fun root => { root }⟩ := by
    refine ⟨.start hd.settled fun r hr => (mem_roster_symbols hl).mp hr, rfl, ?_⟩
    unfold Work.pool
    rw [List.map_map, List.forall₂_map_left_iff, List.forall₂_map_right_iff, List.forall₂_same]
    exact fun m _ => ⟨rfl, Or.inl ⟨rfl, rfl⟩⟩
  exact foldlM_invariant (P := fun s => ∃ t, Calling d.atlas d s t)
    (fun ⟨t, ht⟩ hturn => (ht.turn hcanceled herror hturn).1) ⟨_, hstart⟩ hs

/-- **No schedule leaves the closing workers stuck**: wherever they are, they can come to an end. -/
theorem complete_closing {turns : List Nat} {s : Pool Call.Phase}
    (hs : closing.follow (Work.pool d) turns = some s) :
    ∃ more run', closing.stageUnder (turns ++ more) d = some run' := by
  obtain ⟨more, s', hs', hdone⟩ := Work.exists_completion
    (P := fun s => ∃ t, Calling d.atlas d s t)
    (fun ⟨t, ht⟩ hturn => ht.turn hcanceled herror hturn)
    (fun ⟨t, ht⟩ htask hundone => ht.progress hcanceled herror htask hundone)
    (calling_of_follow hprogram hcanceled herror hl hd hs)
  exact ⟨more, s'.run, Work.stageUnder_append herror turns hs hs' hdone⟩

include hp

/-- **Closing under any schedule** gives every symbol its closure. -/
theorem stageUnder_closing {turns : List Nat} {run' : Run}
    (h : closing.stageUnder turns d = some run') :
    ∃ c, run' = { d with atlas := c } ∧ Closing d.atlas ((roster p d.atlas).map Prod.snd) c := by
  obtain ⟨s, hs, hdone, rfl⟩ := (Work.stageUnder_eq_some_iff herror).mp h
  obtain ⟨t, ht⟩ := calling_of_follow hprogram hcanceled herror hl hd hs
  have hroots : s.tasks.map Task.symbol = (roster p d.atlas).map Prod.snd := by
    subst hprogram
    refine foldlM_invariant (P := fun s : Pool Call.Phase => s.tasks.map Task.symbol
      = (roster d.program d.atlas).map Prod.snd) (fun h hturn => (Work.symbols_turn hturn).trans h)
      ?_ hs
    unfold Work.pool
    rw [List.map_map]
    rfl
  refine ⟨t.atlas, ht.run, closing_of_answered hl ht.consistent ?_ ?_ hp hd⟩
  · rw [← hroots]
    exact (map_eq_of_forall₂ ht.shadows fun task call hc => hc.root.symm).symm
  · intro call hcall
    obtain ⟨i, hi⟩ := List.mem_iff_getElem?.mp hcall
    obtain ⟨task, htask, hc⟩ := forall₂_getElem? ht.shadows.flip hi
    exact hc.done_iff.mp (hdone task (List.mem_of_getElem? htask))

end Closing

end SymbolAtlas.Binding
