import SymbolAtlas.Proofs.RunSteps

set_option autoImplicit false

/-! # Steps between the events of a trace

Most of what a run does is not traced itself. `Untraced` are the steps that are made of operations
on the atlas, reports, and looks at the program and the atlas; all that a run does is made of these
and of traced steps. A fact about untraced steps is proved by induction over how they are made, once
for all of them. -/

namespace SymbolAtlas.Binding

open Manifest

/-- **A step that neither traces nor times anything**, and does not look into the bag or the
trace. -/
inductive Untraced : {α : Type} → RunM α → Prop
  | pure {α : Type} (v : α) : Untraced (Pure.pure v)
  | throw {α : Type} (e : SymbolError) : Untraced (MonadExcept.throw e : RunM α)
  | bind {α β : Type} {x : RunM α} {f : α → RunM β} (hx : Untraced x) (hf : ∀ v, Untraced (f v)) :
      Untraced (x >>= f)
  | tryCatch {α : Type} {x : RunM α} {f : SymbolError → RunM α} (hx : Untraced x)
      (hf : ∀ e, Untraced (f e)) : Untraced (MonadExcept.tryCatch x f)
  | get {α : Type} {f : Run → RunM α}
      (hsame : ∀ (run : Run) (bag : Bag) (trace : Trace), f { run with bag, trace } = f run)
      (hf : ∀ run, Untraced (f run)) : Untraced (MonadState.get >>= f)
  | onAtlas {α : Type} (step : AtlasM α) : Untraced (RunM.onAtlas step)
  | report (d : Diagnostic) : Untraced (RunM.report d)

namespace Untraced

variable {α β : Type}

/-! ## Steps put together -/

theorem ite {c : Prop} [Decidable c] {x y : RunM α} (hx : Untraced x) (hy : Untraced y) :
    Untraced (if c then x else y) := by
  split
  · exact hx
  · exact hy

theorem forIn {γ : Type} {body : γ → β → RunM (ForInStep β)} (hbody : ∀ x v, Untraced (body x v))
    (xs : List γ) (v : β) : Untraced (ForIn.forIn xs v body) := by
  induction xs generalizing v with
  | nil => exact pure v
  | cons x xs ih =>
      rw [List.forIn_cons]
      refine (hbody x v).bind fun next => ?_
      cases next with
      | done v => exact pure v
      | yield v => exact ih v

theorem find? (key : String) : Untraced (RunM.find? key) :=
  get (fun _ _ _ => rfl) fun _ => pure _

theorem guarded (e : Entry) {step : RunM α} (hstep : Untraced step) :
    Untraced (RunM.guarded e step) := by
  refine hstep.tryCatch fun err => ?_
  -- the cancellation is passed on, any other error is reported first
  refine ite ((throw err).bind fun _ => ?_) ?_
  all_goals exact (report _).bind fun _ => throw _

/-! ## Binding an entry -/

theorem resolve (e : Entry) (key : String) : Untraced (Binding.resolve e key) := by
  refine ite (pure _) ((find? key).bind fun found => ?_)
  cases found with
  | some r => exact pure _
  | none => exact (report _).bind fun _ => pure _

theorem needed (e : Entry) (r : SymbolRef) (need : Need) : Untraced (Binding.needed e r need) := by
  cases need with
  | key k => exact resolve e k
  | containing => exact (onAtlas _).bind fun _ => pure _

theorem dependencies (e : Entry) (r : SymbolRef) (needs : List Need) (found : List SymbolRef) :
    Untraced (Binding.dependencies e r needs found) := by
  induction needs generalizing found with
  | nil => exact pure _
  | cons need rest ih =>
      refine (needed e r need).bind fun d => ?_
      cases d with
      | none => exact ih found
      | some d => exact ih _

theorem implement (e : Entry) (r : SymbolRef) (key : String) :
    Untraced (Binding.implement e r key) := by
  refine (find? key).bind fun target => ?_
  cases target with
  | none => exact pure _
  | some target => exact (onAtlas _).bind fun _ => ite (onAtlas _) (report _)

theorem linkHierarchy (e : Entry) (r : SymbolRef) : Untraced (Binding.linkHierarchy e r) := by
  refine (onAtlas _).bind fun s => ite ?_ (ite (pure _) ?_)
  · refine (find? _).bind fun base => ?_
    have himplements : Untraced (ForIn.forIn e.draft.implements PUnit.unit fun key _ => do
        Binding.implement e r key
        return .yield PUnit.unit) :=
      forIn (fun key _ => (implement e r key).bind fun _ => pure _) _ _
    cases base with
    | none => exact himplements.bind fun _ => pure _
    | some base => exact (onAtlas _).bind fun _ => himplements.bind fun _ => pure _
  · refine (find? _).bind fun base => get (fun _ _ _ => rfl) fun run => ?_
    cases overrideRefusal? run.atlas e r base with
    | some reason => exact report _
    | none => exact onAtlas _

theorem attach (e : Entry) (r : SymbolRef) : Untraced (Binding.attach e r) :=
  (forIn (fun d _ => (report d).bind fun _ => pure _) _ _).bind fun _ => onAtlas _

theorem bindEntry (e : Entry) (r : SymbolRef) : Untraced (Binding.bindEntry e r) := by
  refine (onAtlas _).bind fun s => (attach e r).bind fun _ => ite ?_ (pure _)
  refine (dependencies e r (needs e) []).bind fun deps => (onAtlas _).bind fun _ => ?_
  exact (linkHierarchy e r).bind fun _ => onAtlas _

/-! ## Parts of the stages -/

theorem declareFrom (outline : Outline) (entries : List Entry) (i : Nat) :
    Untraced (Binding.declareFrom outline entries i) := by
  induction entries generalizing i with
  | nil => exact pure _
  | cons e entries ih =>
      exact (guarded e (onAtlas _)).bind fun r => (ih (i + 1)).bind fun rest => pure _

theorem linkTemplate (e : Entry) (r : SymbolRef) : Untraced (Binding.linkTemplate e r) := by
  refine ite (pure _) ((find? _).bind fun template => ?_)
  cases template with
  | none => exact report _
  | some o => exact guarded e (onAtlas _)

theorem members : Untraced Binding.members :=
  get (fun _ _ _ => rfl) fun _ => pure _

theorem declareAll (span : TraceSpan) : Untraced (Binding.declareAll span) := by
  refine get (fun _ _ _ => rfl) fun run =>
    (declareFrom _ _ _).bind fun _ => members.bind fun all => ?_
  refine (forIn (fun task _ => ?_) _ _).bind fun _ => get (fun _ _ _ => rfl) fun _ => pure _
  exact (linkTemplate task.1 task.2).bind fun _ => pure _

theorem checkCanceled : Untraced Binding.checkCanceled :=
  get (fun _ _ _ => rfl) fun _ => ite (throw _) (pure _)

end Untraced

end SymbolAtlas.Binding
