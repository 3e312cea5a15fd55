import SymbolAtlas.Proofs.BindStage
import SymbolAtlas.Proofs.SettledAtlas

set_option autoImplicit false

/-! # Closing a program

In a settled atlas asking for a closure never fails. So the stage that closes keeps the graph as it
is and gives every symbol its exact closure, whatever the order (`exec_closeAll`). -/

namespace SymbolAtlas

namespace Binding

open Manifest

/-! ## The stage -/

/-- **The closures of `done` have been computed**, each once, and nothing else has changed. -/
structure Closing (b : Atlas) (done : List SymbolRef) (c : Atlas) : Prop where
  same : b.SameButClosures c
  skeleton : c.skeleton = b.skeleton
  settled : c.Settled
  closed_iff : ∀ {q s}, c.symbol? q = some s → (s.closure.isSome ↔ q ∈ done)
  count : (c.stats table).1 = done.length

theorem Closing.step {b c : Atlas} {done : List SymbolRef} (h : Closing b done c) {r : SymbolRef}
    {s : Symbol} (hs : c.symbol? r = some s) (htable : r.table = table) (hr : r ∉ done) :
    ∃ closure, exec (AtlasM.allDependencies r) c = (.ok closure, c.publish r closure) ∧
      Closing b (done ++ [r]) (c.publish r closure) := by
  -- a closure is kept only for the symbols that are done
  have hnone : s.closure = none := by
    rw [← Option.not_isSome_iff_eq_none, h.closed_iff hs]
    exact hr
  obtain ⟨closure, hexact, hrun⟩ := Atlas.exec_allDependencies_fresh h.settled hs hnone
  refine ⟨closure, hrun, ?_, ?_, ?_, ?_, ?_⟩
  · exact h.same.trans (c.sameButClosures_publish r closure)
  · rw [Atlas.skeleton_publish, h.skeleton]
  · exact h.settled.publish ⟨s, hs, h.settled.bound hs⟩ hexact
  · intro q sq hq
    rw [Atlas.symbol?_publish] at hq
    by_cases hqr : q = r
    · rw [if_pos hqr] at hq
      obtain ⟨sq', -, rfl⟩ := Option.map_eq_some_iff.mp hq
      simp [hqr]
    · rw [if_neg hqr] at hq
      rw [h.closed_iff hq, List.mem_append, List.mem_singleton]
      simp [hqr]
  · rw [← htable, Atlas.stats_publish hs, htable, h.count, List.length_append,
      List.length_singleton]

theorem exec_closeOne (span : TraceSpan) (e : Entry) {r : SymbolRef} {run : Run}
    (hcanceled : run.canceled = false) {closure : List SymbolRef} {c : Atlas}
    (h : exec (AtlasM.allDependencies r) run.atlas = (.ok closure, c)) :
    ∃ trace, exec (closeOne span e r) run = (.ok (), { run with atlas := c, trace }) := by
  unfold closeOne
  rw [exec_bind_ok (exec_checkCanceled hcanceled),
    exec_bind_ok (RunM.exec_guarded_ok (RunM.exec_onAtlas_ok h) e)]
  exact ⟨_, rfl⟩

/-- **The stage that closes** gives every symbol its closure. -/
theorem exec_closeAll {p : Program} (hp : p.WellFormed) (span : TraceSpan) {run : Run}
    (hprogram : run.program = p) (hcanceled : run.canceled = false) (hl : Layout p run.atlas)
    (h : Closing run.atlas [] run.atlas) :
    ∃ ending c trace, exec (closeAll span) run = (.ok ending, { run with atlas := c, trace }) ∧
      Closing run.atlas ((roster p run.atlas).map Prod.snd) c := by
  subst hprogram
  have hnodup := nodup_roster hp hl
  have hloop : ∃ s', exec (forIn (roster run.program run.atlas) PUnit.unit fun m _ => do
      closeOne span m.1 m.2
      pure (.yield PUnit.unit)) run = (.ok ⟨⟩, s') ∧ ∃ c trace,
      s' = { run with atlas := c, trace } ∧
        Closing run.atlas ((roster run.program run.atlas).map Prod.snd) c := by
    refine exec_forIn_ok (roster run.program run.atlas) _ (fun done s => ∃ c trace,
      s = { run with atlas := c, trace } ∧ Closing run.atlas (done.map Prod.snd) c) ?_
      ⟨run.atlas, run.trace, rfl, h⟩
    rintro done ⟨e, r⟩ rest s hsplit ⟨c, trace, rfl, hc⟩
    have hm : (e, r) ∈ roster run.program run.atlas := by rw [hsplit]; simp
    have hfind := (mem_roster.mp hm).2
    obtain ⟨sr, hsr, -⟩ := hl.indexed.symbol?_of_find? hfind
    obtain ⟨sr', hsr', -⟩ := hc.same.symbol hsr
    -- every symbol comes up once
    have hnew : r ∉ done.map Prod.snd := by
      rw [hsplit, List.map_append, List.map_cons] at hnodup
      intro hmem
      exact List.disjoint_of_nodup_append hnodup hmem List.mem_cons_self
    obtain ⟨closure, hrun, hnext⟩ := hc.step hsr' (Atlas.table_of_find? hfind) hnew
    have hcanceled' : ({ run with atlas := c, trace } : Run).canceled = false := hcanceled
    obtain ⟨trace', hone⟩ := exec_closeOne span e hcanceled' hrun
    dsimp only
    rw [exec_bind_ok hone]
    refine ⟨_, rfl, _, trace', rfl, ?_⟩
    rw [List.map_append, List.map_singleton]
    exact hnext
  obtain ⟨s', hrun, c, trace, rfl, hc⟩ := hloop
  unfold closeAll
  rw [exec_bind_ok (exec_members run), exec_bind_ok hrun]
  exact ⟨_, c, trace, rfl, hc⟩

theorem stage_closeAll {p : Program} (hp : p.WellFormed) {a : Atlas} {b : Bag} {run : Run}
    (hrun : run.At p false a b) (hl : Layout p a) (h : Closing a [] a) :
    ∃ c, (stage "close" closeAll run).At p false c b ∧ Closing a ((roster p a).map Prod.snd) c := by
  obtain ⟨c, b', hat, hc, rfl⟩ := stage_ok "close" hrun
    (fun c b' => Closing a ((roster p a).map Prod.snd) c ∧ b' = b)
    (by
      intro span run hrun
      obtain ⟨ending, c, trace, hexec, hc⟩ := exec_closeAll hp span hrun.program hrun.canceled
        (by rw [hrun.atlas]; exact hl) (by rw [hrun.atlas]; exact h)
      rw [hrun.atlas] at hc
      exact ⟨ending, _, _, _, hexec, ⟨hrun.program, hrun.canceled, rfl, rfl, hrun.error⟩, hc,
        hrun.bag⟩)
  exact ⟨c, hat, hc⟩

end Binding

end SymbolAtlas
