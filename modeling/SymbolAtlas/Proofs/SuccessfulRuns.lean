import SymbolAtlas.Proofs.InternalErrors

set_option autoImplicit false

/-! # Runs that succeed

What a run leaves is known for a program that links no entry with itself and for a run that is not
cancelled. Success implies both, up to the empty program, on which a cancelled run has nothing to
stop. So a run that succeeds has carried out its plan and closed every symbol, whatever it was asked
to do (`exists_closed_of_success`). -/

namespace SymbolAtlas.Binding

open Manifest

/-- Only a program without self-made entries is declared and linked with success. -/
theorem template_ne_key_of_declareAll {p : Program} (hp : p.WellFormed) {o : Options}
    {trace : Trace} (h : (stage "declare" declareAll (start p o trace)).error = none) :
    ∀ e ∈ p.entries.toList, e.draft.template ≠ e.key := by
  by_contra hsome
  push Not at hsome
  -- the first one stops the run
  have hfound : (p.entries.toList.find? fun e => decide (e.draft.template = e.key)).isSome := by
    rw [List.find?_isSome]
    obtain ⟨e, he, hself⟩ := hsome
    exact ⟨e, he, decide_eq_true hself⟩
  obtain ⟨e, he⟩ := Option.isSome_iff_exists.mp hfound
  obtain ⟨hself, before, after, hentries, hbefore⟩ := List.find?_eq_some_iff_append.mp he
  obtain ⟨a, refs, hd, hdeclare⟩ := exists_declared hp o.filterCache
  obtain ⟨found, -, hfail⟩ := exec_declareAll_self hp hd hentries
    (fun e' he' => by simpa using hbefore e' he') (by simpa using hself) hdeclare
  obtain ⟨herror, -⟩ := stage_error "declare" (start_at p o trace) fun span run hrun => by
    obtain ⟨run', hexec, hbag⟩ := hfail span run hrun.program hrun.atlas
    rw [hrun.bag] at hbag
    exact ⟨run', hexec, hbag⟩
  rw [herror] at h
  cases h

theorem template_ne_key_of_success {p : Program} (hp : p.WellFormed) {o : Options} {trace : Trace}
    (h : (run p o trace).error = none) : ∀ e ∈ p.entries.toList, e.draft.template ≠ e.key := by
  refine template_ne_key_of_declareAll hp (?_ :
    (stage "declare" declareAll (start p o trace)).error = none)
  rcases herror : (stage "declare" declareAll (start p o trace)).error with _ | e
  · rfl
  · rw [run_eq, stage_of_error "bind" bindAll herror, stage_of_error "close" closeAll herror] at h
    exact absurd (herror.symm.trans h) (by simp)

/-! ## Cancelled runs -/

/-- A cancelled run stops at the first entry that it would bind. -/
theorem exec_bindAll_canceled (span : TraceSpan) {run : Run} (hcanceled : run.canceled = true)
    {m : Entry × SymbolRef} {ms : List (Entry × SymbolRef)}
    (hroster : roster run.program run.atlas = m :: ms) :
    exec (bindAll span) run = (.error .canceled, run) := by
  have hcheck : exec checkCanceled run = (.error .canceled, run) := by
    unfold checkCanceled
    rw [exec_bind_ok (exec_get run), if_pos hcanceled]
    rfl
  have hone : exec (bindOne span m.1 m.2) run = (.error .canceled, run) := by
    unfold bindOne
    rw [exec_bind_error hcheck]
  unfold bindAll
  rw [exec_bind_ok (exec_members run), hroster, List.forIn_cons]
  exact exec_bind_error (exec_bind_error (exec_bind_error hone _) _) _

theorem exec_bindAll_nil (span : TraceSpan) {run : Run}
    (hroster : roster run.program run.atlas = []) :
    exec (bindAll span) run = (.ok {}, run) := by
  unfold bindAll
  rw [exec_bind_ok (exec_members run), hroster]
  rfl

theorem exec_closeAll_nil (span : TraceSpan) {run : Run}
    (hroster : roster run.program run.atlas = []) :
    ∃ ending, exec (closeAll span) run = (.ok ending, run) := by
  unfold closeAll
  rw [exec_bind_ok (exec_members run), hroster]
  exact ⟨_, rfl⟩

/-- A stage that has nothing to do leaves the run where it is. -/
theorem stage_nothing (name : String) {body : TraceSpan → RunM StageEnd} {p : Program} {k : Bool}
    {a : Atlas} {b : Bag} {run : Run} (hrun : run.At p k a b) (hroster : roster p a = [])
    (hbody : ∀ span (run : Run), roster run.program run.atlas = [] →
      ∃ ending, exec (body span) run = (.ok ending, run)) :
    (stage name body run).At p k a b := by
  obtain ⟨a', b', h, rfl, rfl⟩ := stage_ok name hrun (fun a' b' => a' = a ∧ b' = b) (by
    intro span run hrun
    have hnil : roster run.program run.atlas = [] := by rw [hrun.program, hrun.atlas, hroster]
    obtain ⟨ending, hexec⟩ := hbody span run hnil
    exact ⟨ending, run, a, b, hexec, hrun, rfl, rfl⟩)
  exact h

/-- A program without entries is bound and closed once it is declared. -/
theorem closed_of_roster_eq_nil {p : Program} (hp : p.WellFormed) {a : Atlas} (hd : Declared p a)
    (h : roster p a = []) : linkPlan p a = [] ∧ plan p a = [] ∧ BoundFrom p a a ∧
      Closing a ((roster p a).map Prod.snd) a := by
  have hplan : plan p a = [] := by simp [plan, linkPlan, bindPlan, h]
  have hb : BoundFrom p a a := by
    have := boundFrom_of_perm hp hd (.refl (plan p a))
    rwa [hplan] at this
  refine ⟨by simp [linkPlan, h], hplan, hb, ?_⟩
  rw [h]
  exact hb.closing hp hd

/-- **A run that succeeds has carried out the plan and closed every symbol.** -/
theorem exists_closed_of_success {p : Program} (hp : p.WellFormed) {o : Options} {trace : Trace}
    (h : (run p o trace).error = none) :
    ∃ a b c, Declared p a ∧ BoundFrom p a b ∧ Closing b ((roster p b).map Prod.snd) c ∧
      (run p o trace).At p o.canceled c
        ((Bag.empty o.maxDiagnostics).addAll ((plan p a).flatMap Effect.reports)) := by
  have hself := template_ne_key_of_success hp h
  obtain ⟨a, refs, hd, hdeclare⟩ := exists_declared hp o.filterCache
  by_cases ho : o.canceled = false
  · obtain ⟨b, c, hb, hc, hat⟩ := run_at hp hself ho trace hd hdeclare
    rw [← ho] at hat
    exact ⟨a, b, c, hd, hb, hc, hat⟩
  · have hdeclared := stage_declareAll hp hself hd hdeclare (start_at p o trace)
    have hsk := skeleton_changeAll (linkPlan p a) a
    have hroster := roster_eq_of_skeleton (p := p) hsk
    cases hms : roster p a with
    | cons m ms =>
        -- then the second stage fails
        obtain ⟨herror, -⟩ := stage_error "bind" hdeclared fun span run hrun => by
          have hcons : roster run.program run.atlas = m :: ms := by
            rw [hrun.program, hrun.atlas, hroster, hms]
          have hcanceled : run.canceled = true := by
            rw [hrun.canceled]
            simpa using ho
          exact ⟨run, exec_bindAll_canceled span hcanceled hcons, hrun.bag⟩
        rw [run_eq, stage_of_error "close" closeAll herror] at h
        have hnone :
            (stage "bind" bindAll (stage "declare" declareAll (start p o trace))).error = none := h
        rw [herror] at hnone
        cases hnone
    | nil =>
        obtain ⟨hlink, hplan, hb, hc⟩ := closed_of_roster_eq_nil hp hd hms
        rw [hlink] at hdeclared
        have hbound := stage_nothing "bind" hdeclared hms fun span run hnil =>
          ⟨_, exec_bindAll_nil span hnil⟩
        have hclosed := stage_nothing "close" hbound hms fun span run hnil =>
          exec_closeAll_nil span hnil
        refine ⟨a, a, a, hd, hb, hc, ?_⟩
        rw [run_eq, hplan]
        exact hclosed.finish

end SymbolAtlas.Binding
