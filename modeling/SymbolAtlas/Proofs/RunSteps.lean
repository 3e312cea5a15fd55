import SymbolAtlas.Binding.Stages
import SymbolAtlas.Proofs.Execution

set_option autoImplicit false

/-! # The steps of a run

What the building blocks of a run do: each changes one part of it and leaves the others. A stage
that succeeds passes its run on, up to tracing and timing (`stage_ok`). -/

namespace SymbolAtlas

/-! ## Bags -/

namespace Bag

theorem addAll_append (b : Bag) (ds ds' : List Diagnostic) :
    b.addAll (ds ++ ds') = (b.addAll ds).addAll ds' :=
  List.foldl_append

theorem add_unlimited {b : Bag} (hb : b.limit = 0) (d : Diagnostic) :
    b.add d = { b with items := b.items ++ [d] } := by
  simp [add, hasRoom, hb]

/-- A bag without a limit keeps everything in order. -/
theorem addAll_unlimited {b : Bag} (hb : b.limit = 0) (ds : List Diagnostic) :
    b.addAll ds = { b with items := b.items ++ ds } := by
  induction ds generalizing b with
  | nil => simp [addAll]
  | cons d ds ih =>
      show (b.add d).addAll ds = _
      rw [add_unlimited hb, ih (b := { b with items := b.items ++ [d] }) hb, List.append_assoc]
      rfl

theorem mem_add {b : Bag} {d x : Diagnostic} (h : x ∈ (b.add d).items) : x ∈ b.items ∨ x = d := by
  unfold add at h
  split at h
  · rcases List.mem_append.mp h with h | h
    · exact Or.inl h
    · exact Or.inr (List.mem_singleton.mp h)
  · exact Or.inl h

theorem mem_addAll {b : Bag} {ds : List Diagnostic} {x : Diagnostic} (h : x ∈ (b.addAll ds).items) :
    x ∈ b.items ∨ x ∈ ds := by
  induction ds generalizing b with
  | nil => exact Or.inl h
  | cons d ds ih =>
      rcases ih h with hadd | hds
      · rcases mem_add hadd with hb | rfl
        · exact Or.inl hb
        · exact Or.inr List.mem_cons_self
      · exact Or.inr (List.mem_cons_of_mem d hds)

end Bag

namespace Binding

open Manifest

namespace RunM

theorem exec_onAtlas {α : Type} (step : AtlasM α) (run : Run) :
    exec (onAtlas step) run
      = ((exec step run.atlas).1, { run with atlas := (exec step run.atlas).2 }) := by
  unfold onAtlas
  rw [exec_bind_ok (exec_get run)]
  rcases h : exec step run.atlas with ⟨_ | _, b⟩
  all_goals
    have hstep : StateT.run (ExceptT.run step) run.atlas = _ := h
    rw [hstep]
    rfl

theorem exec_onAtlas_ok {α : Type} {step : AtlasM α} {run : Run} {v : α} {a : Atlas}
    (h : exec step run.atlas = (.ok v, a)) :
    exec (onAtlas step) run = (.ok v, { run with atlas := a }) := by
  rw [exec_onAtlas, h]

theorem exec_onAtlas_bind {α β : Type} (x : AtlasM α) (f : α → AtlasM β) (run : Run) :
    exec (onAtlas (x >>= f)) run = exec (onAtlas x >>= fun v => onAtlas (f v)) run := by
  rw [exec_bind, exec_onAtlas, exec_onAtlas, exec_bind]
  rcases exec x run.atlas with ⟨_ | v, a⟩
  · rfl
  · dsimp only
    rw [exec_onAtlas]

@[simp] theorem exec_traced {α : Type} (step : TraceM α) (run : Run) :
    exec (traced step) run
      = (.ok (step.run run.trace).1, { run with trace := (step.run run.trace).2 }) := rfl

@[simp] theorem exec_report (d : Diagnostic) (run : Run) :
    exec (report d) run = (.ok (), { run with bag := run.bag.add d }) := rfl

@[simp] theorem exec_find? (key : String) (run : Run) :
    exec (find? key) run = (.ok (run.atlas.find? table key), run) := rfl

theorem exec_guarded_ok {α : Type} {step : RunM α} {run run' : Run} {v : α}
    (h : exec step run = (.ok v, run')) (e : Entry) :
    exec (guarded e step) run = (.ok v, run') := by
  unfold guarded
  rw [exec_tryCatch, h]

/-- A guard reports an error, unless it was the cancellation. -/
theorem exec_guarded_error {α : Type} {step : RunM α} {run run' : Run} {err : SymbolError}
    (h : exec step run = (.error err, run')) (herr : err.isCanceled = false) (e : Entry) :
    let d : Diagnostic :=
      .error .internalError e.span e.key ("internal error: " ++ err.message)
    exec (guarded e step) run =
      (.error (.within ("binder: " ++ e.key) err), { run' with bag := run'.bag.add d }) := by
  unfold guarded
  rw [exec_tryCatch, h]
  dsimp only
  rw [herr]
  rfl

end RunM

/-- The entries with their symbols. -/
def roster (p : Program) (a : Atlas) : List (Entry × SymbolRef) :=
  p.entries.toList.filterMap fun e => (a.find? table e.key).map (e, ·)

@[simp] theorem exec_members (run : Run) :
    exec members run = (.ok (roster run.program run.atlas), run) := rfl

theorem exec_checkCanceled {run : Run} (h : run.canceled = false) :
    exec checkCanceled run = (.ok (), run) := by
  unfold checkCanceled
  rw [exec_bind_ok (exec_get run)]
  simp [h]

/-- The run of a program stands at this atlas and bag and has not failed; `k` tells whether it was
cancelled. -/
structure Run.At (p : Program) (k : Bool) (a : Atlas) (b : Bag) (run : Run) : Prop where
  program : run.program = p
  canceled : run.canceled = k
  atlas : run.atlas = a
  bag : run.bag = b
  error : run.error = none

theorem Run.At.finish {p : Program} {k : Bool} {a : Atlas} {b : Bag} {run : Run}
    (h : run.At p k a b) : (finish run).At p k a b :=
  ⟨h.program, h.canceled, h.atlas, h.bag, h.error⟩

/-- **A stage whose body succeeds** changes the run as the body does, up to tracing and timing. -/
theorem stage_ok (name : String) {body : TraceSpan → RunM StageEnd} {p : Program} {k : Bool}
    {a : Atlas} {b : Bag} {run : Run} (hrun : run.At p k a b) (Q : Atlas → Bag → Prop)
    (hbody : ∀ span run, Run.At p k a b run → ∃ ending run' a' b',
      exec (body span) run = (.ok ending, run') ∧ run'.At p k a' b' ∧ Q a' b') :
    ∃ a' b', (stage name body run).At p k a' b' ∧ Q a' b' := by
  unfold stage
  rw [if_neg (by simp [hrun.error])]
  rcases (TraceM.begin .phase name run.span.id).run run.trace with ⟨span, trace⟩
  obtain ⟨ending, run', a', b', h, hrun', hq⟩ := hbody span
    { run with timer := (run.timer.begin name run.clock).2, trace }
    ⟨hrun.program, hrun.canceled, hrun.atlas, hrun.bag, hrun.error⟩
  unfold exec at h
  dsimp only
  rw [h]
  exact ⟨a', b', ⟨hrun'.program, hrun'.canceled, hrun'.atlas, hrun'.bag, hrun'.error⟩, hq⟩

/-- **A stage whose body fails** ends the run with the error of the body. -/
theorem stage_error (name : String) {body : TraceSpan → RunM StageEnd} {p : Program} {k : Bool}
    {a : Atlas} {b : Bag} {run : Run} (hrun : run.At p k a b) {e : SymbolError} {b' : Bag}
    (hbody : ∀ span run, Run.At p k a b run → ∃ run',
      exec (body span) run = (.error e, run') ∧ run'.bag = b') :
    (stage name body run).error = some e ∧ (stage name body run).bag = b' := by
  unfold stage
  rw [if_neg (by simp [hrun.error])]
  rcases (TraceM.begin .phase name run.span.id).run run.trace with ⟨span, trace⟩
  obtain ⟨run', h, hbag⟩ := hbody span
    { run with timer := (run.timer.begin name run.clock).2, trace }
    ⟨hrun.program, hrun.canceled, hrun.atlas, hrun.bag, hrun.error⟩
  unfold exec at h
  dsimp only
  rw [h]
  exact ⟨rfl, hbag⟩

/-- A run that has failed goes through no further stage. -/
theorem stage_of_error (name : String) (body : TraceSpan → RunM StageEnd) {run : Run}
    {e : SymbolError} (h : run.error = some e) : stage name body run = run := by
  unfold stage
  rw [if_pos (by simp [h])]

theorem run_eq (p : Program) (o : Options) (trace : Trace) :
    run p o trace = finish (stage "close" closeAll (stage "bind" bindAll
      (stage "declare" declareAll (start p o trace)))) := by
  unfold run stages
  simp only [List.foldl_cons, List.foldl_nil]

end Binding

end SymbolAtlas
