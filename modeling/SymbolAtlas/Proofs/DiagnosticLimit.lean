import SymbolAtlas.Proofs.UntracedSteps

set_option autoImplicit false

/-! # What a limit on diagnostics does to a run

No step of a run looks into the bag, so a limit has no influence on a run but to cut off its
diagnostics: `Blind` says so of one step, and `run_limit` of the whole run. The reports that are
left are the first ones, whatever they are. A limit therefore never adds an error, but it may leave
out all of them: `hasErrors_run_limit` says when. -/

namespace SymbolAtlas

namespace Bag

/-- What a bag of limit `n` has kept of the items of a bag without a limit. -/
def cut (n : Nat) (b : Bag) : Bag :=
  { limit := n, items := if n = 0 then b.items else b.items.take n }

theorem items_cut (n : Nat) (b : Bag) :
    (b.cut n).items = if n = 0 then b.items else b.items.take n := rfl

theorem cut_empty (n : Int) : (Bag.empty 0).cut n.toNat = .empty n := by
  simp [cut, empty]

theorem limit_add (b : Bag) (d : Diagnostic) : (b.add d).limit = b.limit := by
  unfold add
  split <;> rfl

/-- It makes no difference whether a finding is added before the bag is cut or, if there is room,
after. -/
theorem cut_add (n : Nat) {b : Bag} (hb : b.limit = 0) (d : Diagnostic) :
    (b.cut n).add d = (b.add d).cut n := by
  rw [add_unlimited hb]
  by_cases hn : n = 0
  · simp [cut, add, hasRoom, hn]
  · by_cases hroom : b.items.length < n
    · have hall : b.items.take n = b.items := List.take_of_length_le (by omega)
      have hmore : (b.items ++ [d]).take n = b.items ++ [d] :=
        List.take_of_length_le (by rw [List.length_append, List.length_singleton]; omega)
      simp [cut, add, hasRoom, size, hn, hall, hmore, hroom]
    · have hmore : (b.items ++ [d]).take n = b.items.take n :=
        List.take_append_of_le_length (by omega)
      simp [cut, add, hasRoom, size, hn, hmore, hroom]

theorem hasErrors_iff {b : Bag} :
    b.hasErrors = true ↔ ∃ d ∈ b.items, d.severity.isError = true := by
  unfold hasErrors
  exact List.any_eq_true

/-- What a limit leaves is the beginning of what was reported. -/
theorem items_cut_beginning (n : Nat) (b : Bag) : (b.cut n).items <+: b.items := by
  rw [items_cut]
  split
  · exact List.prefix_rfl
  · exact List.take_prefix n b.items

theorem hasErrors_of_cut {n : Nat} {b : Bag} (h : (b.cut n).hasErrors = true) :
    b.hasErrors = true := by
  obtain ⟨d, hd, herror⟩ := hasErrors_iff.mp h
  exact hasErrors_iff.mpr ⟨d, (items_cut_beginning n b).subset hd, herror⟩

theorem exists_first_error {b : Bag} (h : b.hasErrors = true) :
    ∃ before d after, b.items = before ++ d :: after ∧ d.severity.isError = true ∧
      ∀ w ∈ before, w.severity.isError = false := by
  obtain ⟨d, hfirst⟩ : ∃ d, b.items.find? (·.severity.isError) = some d := by
    rw [← Option.isSome_iff_exists, List.find?_isSome]
    exact hasErrors_iff.mp h
  obtain ⟨herror, before, after, hitems, hbefore⟩ := List.find?_eq_some_iff_append.mp hfirst
  exact ⟨before, d, after, hitems, herror, fun w hw => by simpa using hbefore w hw⟩

/-- A limit leaves an error if it leaves the first one. -/
theorem hasErrors_cut_iff {b : Bag} {before after : List Diagnostic} {d : Diagnostic}
    (hitems : b.items = before ++ d :: after) (herror : d.severity.isError = true)
    (hbefore : ∀ w ∈ before, w.severity.isError = false) (n : Nat) :
    (b.cut n).hasErrors = true ↔ n = 0 ∨ before.length < n := by
  rw [hasErrors_iff, items_cut, hitems]
  by_cases hn : n = 0
  · rw [if_pos hn]
    exact ⟨fun _ => Or.inl hn, fun _ => ⟨d, by simp, herror⟩⟩
  · rw [if_neg hn]
    constructor
    · rintro ⟨w, hw, hwerror⟩
      by_contra hle
      rw [List.take_append_of_le_length (by omega)] at hw
      rw [hbefore w (List.mem_of_mem_take hw)] at hwerror
      cases hwerror
    · intro hlt
      have hprefix : before ++ [d] <+: (before ++ d :: after).take n := by
        rw [List.prefix_take_iff, List.length_append, List.length_singleton]
        exact ⟨by simp, by omega⟩
      exact ⟨d, hprefix.subset (by simp), herror⟩

/-- **A limit hides the errors of a bag** exactly when it is reached before the first of them. -/
theorem hasErrors_cut_ne_iff (n : Nat) (b : Bag) : (b.cut n).hasErrors ≠ b.hasErrors ↔
    ∃ before d after, b.items = before ++ d :: after ∧ d.severity.isError = true ∧
      (∀ w ∈ before, w.severity.isError = false) ∧ 0 < n ∧ n ≤ before.length := by
  constructor
  · intro hne
    -- the limit makes no error up, so it can only be the bag without a limit that has one
    have hfull : b.hasErrors = true := by
      by_contra hfull
      have hcut : (b.cut n).hasErrors = false :=
        Bool.eq_false_iff.mpr fun hcut => hfull (hasErrors_of_cut hcut)
      exact hne (hcut.trans (Bool.eq_false_iff.mpr hfull).symm)
    obtain ⟨before, d, after, hitems, herror, hbefore⟩ := exists_first_error hfull
    have hcut : ¬ (n = 0 ∨ before.length < n) := by
      rw [← hasErrors_cut_iff hitems herror hbefore n]
      exact fun hcut => hne (hcut.trans hfull.symm)
    exact ⟨before, d, after, hitems, herror, hbefore, by omega, by omega⟩
  · rintro ⟨before, d, after, hitems, herror, hbefore, hn, hle⟩ heq
    have hfull : b.hasErrors = true := hasErrors_iff.mpr ⟨d, by simp [hitems], herror⟩
    have hcut := (hasErrors_cut_iff hitems herror hbefore n).mp (heq.trans hfull)
    omega

end Bag

namespace Binding

open Manifest

/-- A run as it would stand with a limit on its diagnostics. -/
def Run.cut (n : Nat) (run : Run) : Run :=
  { run with bag := run.bag.cut n }

/-- A step that a limit does not influence: on a bag of limit `n` it ends as it does on a bag
without a limit, and the bag at the end is what the limit leaves. -/
def Blind (n : Nat) {α : Type} (x : RunM α) : Prop :=
  ∀ run : Run, run.bag.limit = 0 → ∃ v run', exec x run = (v, run') ∧ run'.bag.limit = 0 ∧
    exec x (run.cut n) = (v, run'.cut n)

namespace Blind

variable {n : Nat} {α β : Type}

/-! ## Steps put together -/

theorem pure (v : α) : Blind n (Pure.pure v : RunM α) :=
  fun run hrun => ⟨.ok v, run, rfl, hrun, rfl⟩

theorem throw (e : SymbolError) : Blind n (MonadExcept.throw e : RunM α) :=
  fun run hrun => ⟨.error e, run, rfl, hrun, rfl⟩

theorem bind {x : RunM α} {f : α → RunM β} (hx : Blind n x) (hf : ∀ v, Blind n (f v)) :
    Blind n (x >>= f) := by
  intro run hrun
  obtain ⟨v, run', hexec, hlimit, hcut⟩ := hx run hrun
  cases v with
  | error e => exact ⟨.error e, run', exec_bind_error hexec f, hlimit, exec_bind_error hcut f⟩
  | ok v =>
      rw [exec_bind_ok hexec, exec_bind_ok hcut]
      exact hf v run' hlimit

theorem tryCatch {x : RunM α} {f : SymbolError → RunM α} (hx : Blind n x)
    (hf : ∀ e, Blind n (f e)) : Blind n (MonadExcept.tryCatch x f) := by
  intro run hrun
  obtain ⟨v, run', hexec, hlimit, hcut⟩ := hx run hrun
  rw [exec_tryCatch, exec_tryCatch, hexec, hcut]
  cases v with
  | error e => exact hf e run' hlimit
  | ok v => exact ⟨.ok v, run', rfl, hlimit, rfl⟩

/-- A step that goes on by the parts of the run other than the bag. -/
theorem get {f : Run → RunM α} (hsame : ∀ run, f (run.cut n) = f run)
    (hf : ∀ run, Blind n (f run)) : Blind n (MonadState.get >>= f) := by
  intro run hrun
  rw [exec_bind_ok (exec_get run), exec_bind_ok (exec_get (run.cut n)), hsame]
  exact hf run run hrun

theorem forIn {γ : Type} {body : γ → β → RunM (ForInStep β)} (hbody : ∀ x v, Blind n (body x v))
    (xs : List γ) (v : β) : Blind n (ForIn.forIn xs v body) := by
  induction xs generalizing v with
  | nil => exact pure v
  | cons x xs ih =>
      rw [List.forIn_cons]
      refine (hbody x v).bind fun next => ?_
      cases next with
      | done v => exact pure v
      | yield v => exact ih v

/-! ## The steps of a run -/

theorem onAtlas (step : AtlasM α) : Blind n (RunM.onAtlas step) :=
  fun run hrun => ⟨_, _, RunM.exec_onAtlas step run, hrun, RunM.exec_onAtlas step (run.cut n)⟩

theorem traced (step : TraceM α) : Blind n (RunM.traced step) :=
  fun _ hrun => ⟨_, _, rfl, hrun, rfl⟩

theorem report (d : Diagnostic) : Blind n (RunM.report d) := by
  intro run hrun
  refine ⟨_, _, RunM.exec_report d run, (run.bag.limit_add d).trans hrun, ?_⟩
  rw [RunM.exec_report]
  unfold Run.cut
  rw [Bag.cut_add n hrun]

theorem of_untraced {x : RunM α} (h : Untraced x) : Blind n x := by
  induction h with
  | pure v => exact pure v
  | throw e => exact throw e
  | bind _ _ ihx ihf => exact ihx.bind ihf
  | tryCatch _ _ ihx ihf => exact ihx.tryCatch ihf
  | get hsame _ ih => exact get (fun run => hsame run _ _) ih
  | onAtlas step => exact onAtlas step
  | report d => exact report d

/-! ## The stages of a run -/

theorem declareAll (span : TraceSpan) : Blind n (Binding.declareAll span) :=
  of_untraced (.declareAll span)

theorem bindOne (parent : TraceSpan) (e : Entry) (r : SymbolRef) :
    Blind n (Binding.bindOne parent e r) := by
  refine (of_untraced .checkCanceled).bind fun _ => (traced _).bind fun span => ?_
  have hentry : Blind n (RunM.guarded e (bindEntry e r)) :=
    of_untraced (.guarded e (.bindEntry e r))
  refine (hentry.tryCatch fun err => ?_).bind fun _ => traced _
  exact (traced _).bind fun _ => throw err

theorem bindAll (span : TraceSpan) : Blind n (Binding.bindAll span) := by
  refine (of_untraced .members).bind fun all => (forIn (fun task _ => ?_) _ _).bind fun _ => pure _
  exact (bindOne span task.1 task.2).bind fun _ => pure _

theorem closeOne (parent : TraceSpan) (e : Entry) (r : SymbolRef) :
    Blind n (Binding.closeOne parent e r) := by
  refine (of_untraced .checkCanceled).bind fun _ => ?_
  exact (of_untraced (.guarded e (.onAtlas _))).bind fun _ => traced _

theorem closeAll (span : TraceSpan) : Blind n (Binding.closeAll span) := by
  refine (of_untraced .members).bind fun all => (forIn (fun task _ => ?_) _ _).bind fun _ =>
    get (fun _ => rfl) fun _ => pure _
  exact (closeOne span task.1 task.2).bind fun _ => pure _

end Blind

/-- **A limit does not influence a stage** whose body it does not influence. -/
theorem stage_cut {n : Nat} (name : String) {body : TraceSpan → RunM StageEnd}
    (hbody : ∀ span, Blind n (body span)) {run : Run} (hrun : run.bag.limit = 0) :
    (stage name body run).bag.limit = 0 ∧
      stage name body (run.cut n) = (stage name body run).cut n := by
  unfold stage
  by_cases herror : run.error.isSome
  · rw [if_pos herror, if_pos (show (run.cut n).error.isSome from herror)]
    exact ⟨hrun, rfl⟩
  · -- both begin alike, because they differ in their bags only
    rw [if_neg herror, if_neg (show ¬ (run.cut n).error.isSome from herror),
      show (run.cut n).span = run.span from rfl, show (run.cut n).trace = run.trace from rfl,
      show (run.cut n).timer = run.timer from rfl, show (run.cut n).clock = run.clock from rfl]
    rcases (TraceM.begin .phase name run.span.id).run run.trace with ⟨span, trace⟩
    rcases run.timer.begin name run.clock with ⟨place, timer⟩
    obtain ⟨v, run', hexec, hlimit, hcut⟩ := hbody span { run with timer, trace } hrun
    have hcut' :
        exec (body span) { run.cut n with timer, trace, clock := run.clock, span := run.span }
        = (v, run'.cut n) := hcut
    unfold exec at hexec hcut'
    dsimp only at hcut' ⊢
    rw [hexec, hcut']
    cases v with
    | error e => exact ⟨hlimit, rfl⟩
    | ok ending => exact ⟨hlimit, rfl⟩

theorem start_cut (p : Program) (o : Options) (trace : Trace) (n : Int) :
    start p { o with maxDiagnostics := n } trace
      = (start p { o with maxDiagnostics := 0 } trace).cut n.toNat := by
  have hbag : (start p { o with maxDiagnostics := 0 } trace).bag.cut n.toNat = .empty n :=
    Bag.cut_empty n
  unfold Run.cut
  rw [hbag]
  rfl

theorem finish_cut (n : Nat) (run : Run) : finish (run.cut n) = (finish run).cut n := rfl

/-- **A limit cuts the diagnostics of a run and does nothing else.** -/
theorem run_limit (p : Program) (o : Options) (trace : Trace) (n : Int) :
    run p { o with maxDiagnostics := n } trace
      = (run p { o with maxDiagnostics := 0 } trace).cut n.toNat := by
  have hstart : (start p { o with maxDiagnostics := 0 } trace).bag.limit = 0 := rfl
  obtain ⟨hdeclare, hdeclared⟩ := stage_cut (n := n.toNat) "declare" Blind.declareAll hstart
  obtain ⟨hbind, hbound⟩ := stage_cut (n := n.toNat) "bind" Blind.bindAll hdeclare
  obtain ⟨-, hclosed⟩ := stage_cut (n := n.toNat) "close" Blind.closeAll hbind
  rw [run_eq, run_eq, start_cut, hdeclared, hbound, hclosed, finish_cut]

/-- **When a limit hides that a program has errors.** The diagnostics of a limited run are the first
ones of the run without a limit, so the limit makes no error up. The two runs disagree about errors
exactly when the limit is reached by other findings before the first error. -/
theorem hasErrors_run_limit (p : Program) (o : Options) (trace : Trace) (n : Int) :
    (run p { o with maxDiagnostics := n } trace).bag.items
        <+: (run p { o with maxDiagnostics := 0 } trace).bag.items ∧
    ((run p { o with maxDiagnostics := n } trace).bag.hasErrors = true →
      (run p { o with maxDiagnostics := 0 } trace).bag.hasErrors = true) ∧
    ((run p { o with maxDiagnostics := n } trace).bag.hasErrors
        ≠ (run p { o with maxDiagnostics := 0 } trace).bag.hasErrors ↔
      ∃ before d after,
        (run p { o with maxDiagnostics := 0 } trace).bag.items = before ++ d :: after ∧
        d.severity.isError = true ∧ (∀ w ∈ before, w.severity.isError = false) ∧
        0 < n ∧ n ≤ before.length) := by
  have hcut : (run p { o with maxDiagnostics := n } trace).bag
      = (run p { o with maxDiagnostics := 0 } trace).bag.cut n.toNat := by rw [run_limit]; rfl
  rw [hcut]
  refine ⟨Bag.items_cut_beginning _ _, Bag.hasErrors_of_cut, ?_⟩
  rw [Bag.hasErrors_cut_ne_iff]
  have hlimit : ∀ k : Nat, (0 < n.toNat ∧ n.toNat ≤ k) ↔ 0 < n ∧ n ≤ k := by
    intro k
    omega
  simp only [hlimit]

/-- A type with a malformed annotation, which is a warning, and a reference that leads nowhere,
which is an error. -/
def warnedManifest : String :=
  "[[symbol]]\nkey = \"A\"\nkind = \"type\"\nreferences = [\"nowhere\"]\n" ++
  "[[symbol.attribute]]\nname = \"execution_order\"\nargs = [\"soon\"]\n"

def warnedFiles : FileSet :=
  (FileSet.addVirtual {} "warned.toml" (Text.Utf8.encode warnedManifest)).2

/-- With room for one finding the warning is kept and the error is lost, so that the run passes for
one without errors. -/
theorem hasErrors_run_limit_warned : ∃ p, (decodeFile warnedFiles 1).1.toOption = some p ∧
    (run p { maxDiagnostics := 1 } ⟨.nop, 0, 0, {}⟩).bag.hasErrors = false ∧
    (run p {} ⟨.nop, 0, 0, {}⟩).bag.hasErrors = true := by
  have hruns : (decodeFile warnedFiles 1).1.toOption.map (fun p =>
      ((run p { maxDiagnostics := 1 } ⟨.nop, 0, 0, {}⟩).bag.hasErrors,
        (run p {} ⟨.nop, 0, 0, {}⟩).bag.hasErrors)) = some (false, true) := by decide +kernel
  obtain ⟨p, hp, hpair⟩ := Option.map_eq_some_iff.mp hruns
  exact ⟨p, hp, congrArg Prod.fst hpair, congrArg Prod.snd hpair⟩

end Binding

end SymbolAtlas
