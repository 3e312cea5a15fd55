import SymbolAtlas.Proofs.RunSteps
import SymbolAtlas.Proofs.TraceBrackets
import SymbolAtlas.Proofs.UntracedSteps

set_option autoImplicit false

/-! # The trace of a run is well bracketed

A run emits its events one by one, and where they go depends on the tracer. `Tells` says that a
trace was left as if some events had been recorded in order. `Narrates` says of a step that,
whatever the tracer, it tells nested events inside an activity; they are the same for every tracer.
Untraced steps tell nothing, and a stage tells one activity with what its body tells inside, whether
the body fails or not. So a run tells one well-bracketed list of events, however it ends
(`run_wellBracketed`). -/

namespace SymbolAtlas

/-! ## Recording events -/

/-- The event without its remarks. -/
def Event.bare (e : Event) : Event :=
  { e with extra := [] }

namespace Ring

/-- The ring without the remarks of its events. -/
def bare (r : Ring) : Ring :=
  r.map Event.bare

theorem bare_push (r : Ring) (e : Event) : (r.push e).bare = r.bare.push e.bare := by
  simp [bare, push, map]

theorem bare_map {f : Event → Event} (hf : ∀ e, (f e).bare = e.bare) (r : Ring) :
    (r.map f).bare = r.bare := by
  unfold bare map
  simp only [Array.map_map]
  congr 2
  funext e
  exact hf e

end Ring

namespace Trace

/-- **The same was recorded in both traces**, up to remarks that were put on events afterwards. -/
structure Alike (t t' : Trace) : Prop where
  level : t.tracer.level = t'.tracer.level
  stream : t.tracer.stream = t'.tracer.stream
  ring : t.tracer.ring.map Ring.bare = t'.tracer.ring.map Ring.bare
  lastSeq : t.lastSeq = t'.lastSeq

theorem Alike.refl (t : Trace) : t.Alike t :=
  ⟨rfl, rfl, rfl, rfl⟩

theorem Alike.trans {t t' t'' : Trace} (h : t.Alike t') (h' : t'.Alike t'') : t.Alike t'' :=
  ⟨h.level.trans h'.level, h.stream.trans h'.stream, h.ring.trans h'.ring,
    h.lastSeq.trans h'.lastSeq⟩

def emit (t : Trace) (e : Event) : Trace :=
  ((TraceM.emit e).run t).2

/-- The trace after some events were recorded, one after the other. -/
def record (t : Trace) (events : List Event) : Trace :=
  events.foldl emit t

end Trace

namespace TraceM

open Trace

variable {α β : Type}

/-- The two programs have the same outcome where the same was recorded, and record the same. The
counter of activities and the clock stay as they are. -/
def Agree (x y : TraceM α) : Prop :=
  ∀ t u : Trace, t.Alike u → (x.run t).1 = (y.run u).1 ∧ (x.run t).2.Alike (y.run u).2 ∧
    (x.run t).2.lastSpan = t.lastSpan ∧ (x.run t).2.now = t.now ∧
    (x.run t).2.tracer.level = t.tracer.level

namespace Agree

theorem pure (v : α) : Agree (Pure.pure v : TraceM α) (Pure.pure v) :=
  fun _ _ h => ⟨rfl, h, rfl, rfl, rfl⟩

theorem bind {x y : TraceM α} {f g : α → TraceM β} (hx : Agree x y) (hf : ∀ v, Agree (f v) (g v)) :
    Agree (x >>= f) (y >>= g) := by
  intro t u h
  obtain ⟨hv, halike, hspan, hnow, hlevel⟩ := hx t u h
  obtain ⟨hv', halike', hspan', hnow', hlevel'⟩ := hf (x.run t).1 _ _ halike
  show ((f (x.run t).1).run (x.run t).2).1 = ((g (y.run u).1).run (y.run u).2).1 ∧ _
  rw [← hv]
  refine ⟨hv', ?_, hspan'.trans hspan, hnow'.trans hnow, hlevel'.trans hlevel⟩
  show ((f (x.run t).1).run (x.run t).2).2.Alike ((g (y.run u).1).run (y.run u).2).2
  rw [← hv]
  exact halike'

theorem get {f g : Trace → TraceM α} (hf : ∀ t u, t.Alike u → Agree (f t) (g u)) :
    Agree (MonadState.get >>= f) (MonadState.get >>= g) :=
  fun t u h => hf t u h t u h

theorem number (e : Event) : Agree (TraceM.number e) (TraceM.number e) := by
  intro t u h
  unfold TraceM.number
  by_cases he : e.seq = 0
  · rw [if_pos he]
    have hseq : t.lastSeq + 1 = u.lastSeq + 1 := by rw [h.lastSeq]
    refine ⟨?_, ⟨h.level, h.stream, h.ring, hseq⟩, rfl, rfl, rfl⟩
    show { e with seq := t.lastSeq + 1 } = { e with seq := u.lastSeq + 1 }
    rw [hseq]
  · rw [if_neg he]
    exact pure e t u h

theorem write (s : Stream) (e : Event) : Agree (TraceM.write s e) (TraceM.write s e) := by
  refine get fun t u h => ?_
  rw [h.level]
  split
  · exact pure e
  · refine (number e).bind fun stored t u h => ?_
    exact ⟨rfl, ⟨h.level, rfl, h.ring, h.lastSeq⟩, rfl, rfl, rfl⟩

theorem keep {r q : Ring} (hring : r.bare = q.bare) (e : Event) :
    Agree (TraceM.keep r e) (TraceM.keep q e) := by
  refine (number e).bind fun stored t u h => ?_
  refine ⟨rfl, ⟨h.level, h.stream, ?_, h.lastSeq⟩, rfl, rfl, rfl⟩
  show some (r.push stored).bare = some (q.push stored).bare
  rw [Ring.bare_push, Ring.bare_push, hring]

/-- **An event is recorded alike where the same was recorded before.** -/
theorem emit (e : Event) : Agree (TraceM.emit e) (TraceM.emit e) := by
  refine get fun t u h => ?_
  have hring := h.ring
  dsimp only
  rw [h.stream]
  cases hr : t.tracer.ring with
  | none =>
      rw [hr] at hring
      rw [Option.map_eq_none_iff.mp hring.symm]
      cases u.tracer.stream with
      | none => exact pure e
      | some s => exact write s e
  | some r =>
      rw [hr] at hring
      obtain ⟨q, hq, hbare⟩ := Option.map_eq_some_iff.mp hring.symm
      rw [hq]
      cases u.tracer.stream with
      | none => exact (keep hbare.symm e).bind fun _ => pure e
      | some s =>
          exact (number e).bind fun e => (write s e).bind fun _ =>
            (keep hbare.symm e).bind fun _ => pure e

end Agree

end TraceM

namespace Trace

theorem Alike.record {t u : Trace} (h : t.Alike u) (events : List Event) :
    (t.record events).Alike (u.record events) := by
  induction events generalizing t u with
  | nil => exact h
  | cons e events ih => exact ih (TraceM.Agree.emit e t u h).2.1

/-- Recording leaves the counter of activities, the clock and the level as they are. -/
theorem record_keeps (t : Trace) (events : List Event) : (t.record events).lastSpan = t.lastSpan ∧
    (t.record events).now = t.now ∧ (t.record events).tracer.level = t.tracer.level := by
  induction events generalizing t with
  | nil => exact ⟨rfl, rfl, rfl⟩
  | cons e events ih =>
      obtain ⟨-, -, hspan, hnow, hlevel⟩ := TraceM.Agree.emit e t t (.refl t)
      obtain ⟨hspan', hnow', hlevel'⟩ := ih (t.emit e)
      exact ⟨hspan'.trans hspan, hnow'.trans hnow, hlevel'.trans hlevel⟩

/-- The trace is on, the last activity has the number `n`, and the clock shows `now`. -/
structure On (n : UInt64) (now : Instant) (t : Trace) : Prop where
  enabled : t.tracer.enabled = true
  lastSpan : t.lastSpan = n
  clock : t.now = now

/-- **What happened from `t` to `u` is told by the events**, among them the beginnings of `count`
activities. -/
structure Tells (events : List Event) (count : Nat) (t u : Trace) : Prop where
  alike : u.Alike (t.record events)
  lastSpan : u.lastSpan = t.lastSpan + UInt64.ofNat count
  now : u.now = t.now

namespace Tells

variable {t u w : Trace} {es es' : List Event} {k k' : Nat}

theorem nothing (t : Trace) : Tells [] 0 t t :=
  ⟨.refl t, by simp, rfl⟩

theorem event (t : Trace) (e : Event) : Tells [e] 0 t (t.emit e) := by
  obtain ⟨hspan, hnow, -⟩ := t.record_keeps [e]
  have hzero : t.lastSpan + UInt64.ofNat 0 = t.lastSpan := by simp
  exact ⟨.refl _, hspan.trans hzero.symm, hnow⟩

theorem trans (h : Tells es k t u) (h' : Tells es' k' u w) : Tells (es ++ es') (k + k') t w where
  alike := by
    have hrecord : t.record (es ++ es') = (t.record es).record es' := List.foldl_append
    rw [hrecord]
    exact h'.alike.trans (h.alike.record es')
  lastSpan := by rw [h'.lastSpan, h.lastSpan, UInt64.ofNat_add, UInt64.add_assoc]
  now := h'.now.trans h.now

/-- An activity is told by its beginning, what is told inside, and its end. -/
theorem around {v : Trace} {b e : Event} (hbegin : Tells [b] 1 t u) (hinside : Tells es k u w)
    (hend : Tells [e] 0 w v) : Tells (b :: (es ++ [e])) (k + 1) t v := by
  have h := hbegin.trans (hinside.trans hend)
  rwa [Nat.add_comm] at h

theorem on {n : UInt64} {now : Instant} (h : Tells es k t u) (ht : t.On n now) :
    u.On (n + UInt64.ofNat k) now := by
  have hlevel : u.tracer.level = t.tracer.level := h.alike.level.trans (t.record_keeps es).2.2
  refine ⟨?_, ?_, h.now.trans ht.clock⟩
  · unfold Tracer.enabled
    rw [hlevel]
    exact ht.enabled
  · rw [h.lastSpan, ht.lastSpan]

end Tells

end Trace

/-! ## The events of an activity -/

namespace TraceSpan

/-- The event that marks the beginning of an activity. -/
def beginning (s : TraceSpan) (now : Instant) : Event :=
  { time := now, kind := .begin, scope := s.scope, span := s.id, parent := s.parent,
    name := s.name }

def ending (s : TraceSpan) (now : Instant) (detail : String) : Event :=
  { time := now, kind := .finish, scope := s.scope, span := s.id, parent := s.parent,
    name := s.name, detail, extra := s.extra, remarksOf := if s.extra = [] then 0 else s.id }

/-- The activity with the next number. -/
def next (n : UInt64) (scope : Scope) (name : String) (parent : UInt64) : TraceSpan :=
  { id := n + 1, parent, scope, name, live := true }

def remarked (s : TraceSpan) (extra : List (String × String)) : TraceSpan :=
  { s with extra := extra.foldl (fun x kv => TraceM.setExtra kv.1 kv.2 x) s.extra }

end TraceSpan

namespace TraceM

open Trace

variable {n : UInt64} {now : Instant} {t : Trace}

theorem run_begin (ht : t.On n now) (scope : Scope) (name : String) (parent : UInt64) :
    ∃ u, (begin scope name parent).run t = (.next n scope name parent, u) ∧
      Tells [(TraceSpan.next n scope name parent).beginning now] 1 t u := by
  obtain rfl := ht.lastSpan
  obtain rfl := ht.clock
  have hcount : Tells [] 1 t { t with lastSpan := t.lastSpan + 1 } :=
    ⟨⟨rfl, rfl, rfl, rfl⟩, rfl, rfl⟩
  refine ⟨_, ?_, hcount.trans (.event _ _)⟩
  show StateT.run (if (!t.tracer.enabled) = true then _ else _) t = _
  rw [ht.enabled]
  rfl

theorem run_finish (ht : t.On n now) {s : TraceSpan} (hs : s.live = true) (detail : String) :
    Tells [s.ending now detail] 0 t ((finish s detail).run t).2 := by
  obtain rfl := ht.clock
  unfold finish
  rw [hs]
  exact .event t _

theorem run_point (ht : t.On n now) (scope : Scope) (name detail : String) (parent : UInt64) :
    Tells [{ time := now, kind := .point, scope, parent, name, detail }] 0 t
      ((point scope name detail parent).run t).2 := by
  obtain rfl := ht.clock
  have hrun : (point scope name detail parent).run t = StateT.run (if (!t.tracer.enabled) = true
      then pure () else do
        let _ ← TraceM.emit { time := t.now, kind := .point, scope, parent, name, detail }) t := rfl
  rw [hrun, ht.enabled]
  exact .event t _

/-- Remarks are not recorded before the activity ends. -/
theorem run_remark {s : TraceSpan} (hs : s.live = true) (t : Trace) (key value : String) :
    ∃ u, (remark s key value).run t = (s.remarked [(key, value)], u) ∧ Tells [] 0 t u := by
  unfold remark
  rw [if_neg (by simp [hs])]
  refine ⟨_, rfl, ⟨rfl, rfl, ?_, rfl⟩, (UInt64.add_zero t.lastSpan).symm, rfl⟩
  show (t.tracer.ring.map _).map Ring.bare = t.tracer.ring.map Ring.bare
  rw [Option.map_map]
  congr 1
  funext r
  -- ends that are kept may show the remark, but remarks are not compared
  refine Ring.bare_map (fun e => ?_) r
  split <;> rfl

theorem run_remarks (extra : List (String × String)) :
    ∀ {s : TraceSpan}, s.live = true → ∀ t : Trace,
      ∃ u, (extra.foldlM (fun s (k, v) => remark s k v) s).run t = (s.remarked extra, u) ∧
        Tells [] 0 t u := by
  induction extra with
  | nil => exact fun _ t => ⟨t, rfl, .nothing t⟩
  | cons kv extra ih =>
      intro s hs t
      obtain ⟨u, hu, htu⟩ := run_remark hs t kv.1 kv.2
      obtain ⟨w, hw, huw⟩ := ih (s := s.remarked [kv]) hs u
      refine ⟨w, ?_, htu.trans huw⟩
      rw [List.foldlM_cons, StateT.run_bind, hu]
      exact hw

end TraceM

/-! ## Steps of a run -/

namespace Binding

open Manifest Trace EventLog

variable {p : Program} {parent : UInt64} {α β : Type}

/-- An untraced step does the same beside every trace, and changes the atlas and the bag only. -/
theorem Untraced.exec_beside {x : RunM α} (h : Untraced x) (run : Run) :
    ∃ v a b, ∀ t, exec x { run with trace := t }
      = (v, { run with atlas := a, bag := b, trace := t }) := by
  -- what a step leaves is found from the run without the trace, and then any trace may stand beside
  -- it
  induction h generalizing run with
  | pure v => exact ⟨.ok v, run.atlas, run.bag, fun _ => rfl⟩
  | throw e => exact ⟨.error e, run.atlas, run.bag, fun _ => rfl⟩
  | @bind _ _ x f _ _ ihx ihf =>
      obtain ⟨v, a, b, hx⟩ := ihx run
      cases v with
      | error e => exact ⟨.error e, a, b, fun t => exec_bind_error (hx t) f⟩
      | ok v =>
          obtain ⟨w, a', b', hf⟩ := ihf v { run with atlas := a, bag := b }
          exact ⟨w, a', b', fun t => (exec_bind_ok (hx t) f).trans (hf t)⟩
  | tryCatch _ _ ihx ihf =>
      obtain ⟨v, a, b, hx⟩ := ihx run
      cases v with
      | error e =>
          obtain ⟨w, a', b', hf⟩ := ihf e { run with atlas := a, bag := b }
          refine ⟨w, a', b', fun t => ?_⟩
          rw [exec_tryCatch, hx]
          exact hf t
      | ok v =>
          refine ⟨.ok v, a, b, fun t => ?_⟩
          rw [exec_tryCatch, hx]
  | get hsame _ ih =>
      -- what is read of the run does not show its trace
      obtain ⟨v, a, b, hf⟩ := ih run run
      refine ⟨v, a, b, fun t => ?_⟩
      rw [exec_bind_ok (exec_get _), hsame run run.bag t]
      exact hf t
  | onAtlas step =>
      exact ⟨(exec step run.atlas).1, (exec step run.atlas).2, run.bag, fun t =>
        RunM.exec_onAtlas step { run with trace := t }⟩
  | report d => exact ⟨.ok (), run.atlas, run.bag.add d, fun _ => rfl⟩

/-- **A step that tells nested events inside the activity `parent`**, with at most `most` activities
among them, when the program is `p`. Its outcome, its effect on the atlas and the bag and the events
themselves do not depend on the tracer. -/
def Narrates (p : Program) (parent : UInt64) (most : Nat) (x : RunM α) : Prop :=
  ∀ run : Run, run.program = p → ∀ n now, ∃ v a b events count, count ≤ most ∧
    Nested parent n events count ∧
    ∀ t : Trace, t.On n now → ∃ u, Tells events count t u ∧
      exec x { run with trace := t } = (v, { run with atlas := a, bag := b, trace := u })

namespace Narrates

variable {k m : Nat}

theorem of_untraced {x : RunM α} (h : Untraced x) : Narrates p parent 0 x := by
  intro run _ n now
  obtain ⟨v, a, b, hx⟩ := h.exec_beside run
  exact ⟨v, a, b, [], 0, Nat.le_refl 0, .nil _ _, fun t _ => ⟨t, .nothing t, hx t⟩⟩

theorem bind {x : RunM α} {f : α → RunM β} (hx : Narrates p parent k x)
    (hf : ∀ v, Narrates p parent m (f v)) : Narrates p parent (k + m) (x >>= f) := by
  intro run hp n now
  obtain ⟨v, a, b, es, c, hc, hnested, htell⟩ := hx run hp n now
  cases v with
  | error e =>
      refine ⟨.error e, a, b, es, c, by omega, hnested, fun t ht => ?_⟩
      obtain ⟨u, htu, hrun⟩ := htell t ht
      exact ⟨u, htu, exec_bind_error hrun f⟩
  | ok v =>
      obtain ⟨w, a', b', es', c', hc', hnested', htell'⟩ :=
        hf v { run with atlas := a, bag := b } hp (n + UInt64.ofNat c) now
      refine ⟨w, a', b', es ++ es', c + c', by omega, hnested.append hnested', fun t ht => ?_⟩
      obtain ⟨u, htu, hrun⟩ := htell t ht
      obtain ⟨u', huu', hrun'⟩ := htell' u (htu.on ht)
      exact ⟨u', htu.trans huu', (exec_bind_ok hrun f).trans hrun'⟩

theorem mono {x : RunM α} (hx : Narrates p parent k x) (hkm : k ≤ m) : Narrates p parent m x := by
  intro run hp n now
  obtain ⟨v, a, b, es, c, hc, htell⟩ := hx run hp n now
  exact ⟨v, a, b, es, c, hc.trans hkm, htell⟩

/-- A loop tells what its rounds tell, one after the other. -/
theorem forIn {γ σ : Type} {f : γ → σ → RunM (ForInStep σ)}
    (hf : ∀ x s, Narrates p parent k (f x s)) (xs : List γ) (init : σ) :
    Narrates p parent (xs.length * k) (ForIn.forIn xs init f) := by
  induction xs generalizing init with
  | nil => exact (of_untraced (.pure init)).mono (Nat.zero_le _)
  | cons x xs ih =>
      rw [List.forIn_cons, List.length_cons, Nat.succ_mul, Nat.add_comm]
      refine (hf x init).bind fun next => ?_
      cases next with
      | done s => exact (of_untraced (.pure s)).mono (Nat.zero_le _)
      | yield s => exact ih s

theorem point (scope : Scope) (name detail : String) :
    Narrates p parent 0 (RunM.traced (TraceM.point scope name detail parent)) := by
  intro run _ n now
  let e : Event := { time := now, kind := .point, scope, parent, name, detail }
  refine ⟨.ok (), run.atlas, run.bag, [e], 0, Nat.le_refl 0, .point rfl rfl, fun t ht => ?_⟩
  exact ⟨_, TraceM.run_point ht scope name detail parent, rfl⟩

/-- The members of a program are at most as many as its entries. -/
theorem members_bind {f : List (Entry × SymbolRef) → RunM α}
    (hf : ∀ all, all.length ≤ p.entries.size → Narrates p parent k (f all)) :
    Narrates p parent k (members >>= f) := by
  intro run hp n now
  have hlen : (roster run.program run.atlas).length ≤ p.entries.size := by
    unfold roster
    rw [hp, ← Array.length_toList]
    exact List.length_filterMap_le _ _
  obtain ⟨v, a, b, es, c, hc, hnested, htell⟩ := hf _ hlen run hp n now
  refine ⟨v, a, b, es, c, hc, hnested, fun t ht => ?_⟩
  obtain ⟨u, htu, hrun⟩ := htell t ht
  exact ⟨u, htu, (exec_bind_ok (exec_members _) f).trans hrun⟩

/-- **Binding a symbol tells one activity**, whether it fails or not. -/
theorem bindOne (span : TraceSpan) (e : Entry) (r : SymbolRef) :
    Narrates p span.id 1 (Binding.bindOne span e r) := by
  have hentry : Untraced (RunM.guarded e (bindEntry e r)) := .guarded e (.bindEntry e r)
  show Narrates p span.id (0 + 1) _
  refine (of_untraced .checkCanceled).bind fun _ run _ n now => ?_
  obtain ⟨v, a, b, hx⟩ := hentry.exec_beside run
  let s := TraceSpan.next n .symbol e.key span.id
  refine ⟨v, a, b, [s.beginning now, s.ending now ""], 1, Nat.le_refl 1, ?_, fun t ht => ?_⟩
  · show Nested span.id n (s.beginning now :: ([] ++ [s.ending now ""])) (0 + 1)
    exact .span rfl rfl rfl rfl rfl (.nil _ _)
  · obtain ⟨u, hbegin, htu⟩ := TraceM.run_begin ht .symbol e.key span.id
    refine ⟨_, htu.trans (TraceM.run_finish (htu.on ht) (s := s) rfl ""), ?_⟩
    have hspan : exec (RunM.traced (TraceM.begin .symbol e.key span.id)) { run with trace := t }
        = (.ok s, { run with trace := u }) := by
      rw [RunM.exec_traced, hbegin]
    have hguard : exec (tryCatch (RunM.guarded e (bindEntry e r)) fun err => do
          RunM.traced (TraceM.finish s "")
          throw err) { run with trace := u }
        = match v with
          | .ok v => (.ok v, { run with atlas := a, bag := b, trace := u })
          | .error err => (.error err, { run with
              atlas := a
              bag := b
              trace := ((TraceM.finish s "").run u).2 }) := by
      rw [exec_tryCatch, hx u]
      cases v <;> rfl
    rw [exec_bind_ok hspan]
    -- an error comes with the end already told, otherwise the end is still to be told
    cases v with
    | error err => exact exec_bind_error hguard _
    | ok v => exact exec_bind_ok hguard _

theorem declareAll (span : TraceSpan) : Narrates p span.id 0 (Binding.declareAll span) :=
  of_untraced (.declareAll span)

theorem bindAll (span : TraceSpan) : Narrates p span.id p.entries.size (Binding.bindAll span) := by
  refine members_bind fun all hall => ?_
  refine ((forIn (k := 1) (fun task _ => ?_) all _).bind fun _ => of_untraced (.pure _)).mono
    (by omega)
  exact (bindOne span task.1 task.2).bind fun _ => of_untraced (.pure _)

theorem closeOne (span : TraceSpan) (e : Entry) (r : SymbolRef) :
    Narrates p span.id 0 (Binding.closeOne span e r) :=
  ((of_untraced .checkCanceled).bind fun _ => (of_untraced (.guarded e (.onAtlas _))).bind fun _ =>
    point .symbol e.key _).mono (Nat.le_refl 0)

theorem closeAll (span : TraceSpan) : Narrates p span.id 0 (Binding.closeAll span) := by
  refine members_bind fun all _ => ?_
  refine ((forIn (k := 0) (fun task _ => ?_) all _).bind fun _ =>
    of_untraced (.get (fun _ _ _ => rfl) fun _ => .pure _)).mono (by omega)
  exact (closeOne span task.1 task.2).bind fun _ => of_untraced (.pure _)

end Narrates

/-! ## Stages -/

/-- A part of a run that tells nested events inside the activity of the run. -/
def Recounts (p : Program) (most : Nat) (f : Run → Run) : Prop :=
  ∀ run : Run, run.program = p → ∀ n now, ∃ (run' : Run) (events : List Event) (count : Nat),
    run'.program = p ∧ run'.span = run.span ∧ count ≤ most ∧ Nested run.span.id n events count ∧
    ∀ t : Trace, t.On n now → ∃ u, Tells events count t u ∧
      f { run with trace := t } = { run' with trace := u }

theorem Recounts.comp {f g : Run → Run} {k m : Nat} (hf : Recounts p k f) (hg : Recounts p m g) :
    Recounts p (k + m) fun run => g (f run) := by
  intro run hp n now
  obtain ⟨run', es, c, hp', hspan, hc, hnested, htell⟩ := hf run hp n now
  obtain ⟨run'', es', c', hp'', hspan', hc', hnested', htell'⟩ :=
    hg run' hp' (n + UInt64.ofNat c) now
  rw [hspan] at hnested'
  refine ⟨run'', es ++ es', c + c', hp'', hspan'.trans hspan, by omega, hnested.append hnested', ?_⟩
  intro t ht
  obtain ⟨u, htu, hrun⟩ := htell t ht
  obtain ⟨u', huu', hrun'⟩ := htell' u (htu.on ht)
  exact ⟨u', htu.trans huu', (congrArg g hrun).trans hrun'⟩

/-- **A stage tells one activity**, with what its body tells inside, or nothing if the run has
failed before. -/
theorem Narrates.stage (name : String) {body : TraceSpan → RunM StageEnd} {k : Nat}
    (hbody : ∀ span, Narrates p span.id k (body span)) : Recounts p (k + 1) (stage name body) := by
  intro run hp n now
  by_cases herror : run.error.isSome
  · refine ⟨run, [], 0, hp, rfl, Nat.zero_le _, .nil _ _, fun t _ => ⟨t, .nothing t, ?_⟩⟩
    exact if_pos herror
  · let s := TraceSpan.next n .phase name run.span.id
    let timer := run.timer.begin name run.clock
    obtain ⟨v, a, b, es, c, hc, hnested, htell⟩ :=
      hbody s { run with timer := timer.2 } hp (n + 1) now
    unfold exec at htell
    -- both ways out of the body end the activity, an error without remarks
    cases v with
    | ok ending =>
        let e := (s.remarked ending.extra).ending now ending.detail
        refine ⟨{ run with
            atlas := a, bag := b, timer := timer.2.finish timer.1 ending.note run.clock },
          s.beginning now :: (es ++ [e]), c + 1, hp, rfl, by
            omega, .span rfl rfl rfl rfl rfl hnested,
          fun t ht => ?_⟩
        obtain ⟨u, hbegin, htu⟩ := TraceM.run_begin ht .phase name run.span.id
        obtain ⟨u', huu', hexec⟩ := htell u (htu.on ht)
        obtain ⟨w, hremarks, huw⟩ := TraceM.run_remarks ending.extra (s := s) rfl u'
        have hinside : Tells es c u w := by simpa using huu'.trans huw
        have hend := TraceM.run_finish (hinside.on (htu.on ht)) (s := s.remarked ending.extra) rfl
          ending.detail
        refine ⟨_, htu.around hinside hend, ?_⟩
        unfold Binding.stage
        rw [if_neg herror]
        dsimp only
        rw [hbegin]
        dsimp only
        rw [hexec]
        dsimp only
        rw [hremarks]
    | error err =>
        refine ⟨{ run with
            atlas := a, bag := b, timer := timer.2.finish timer.1 "failed" run.clock, error :=
            some err },
          s.beginning now :: (es ++ [s.ending now "failed"]), c + 1, hp, rfl, by omega,
          .span rfl rfl rfl rfl rfl hnested, fun t ht => ?_⟩
        obtain ⟨u, hbegin, htu⟩ := TraceM.run_begin ht .phase name run.span.id
        obtain ⟨u', huu', hexec⟩ := htell u (htu.on ht)
        have hend := TraceM.run_finish (huu'.on (htu.on ht)) (s := s) rfl "failed"
        refine ⟨_, htu.around huu' hend, ?_⟩
        unfold Binding.stage
        rw [if_neg herror]
        dsimp only
        rw [hbegin]
        dsimp only
        rw [hexec]

/-- **A run with one worker emits well-bracketed events, however it ends.** The events are the same
for every tracer that is on; what the tracer holds afterwards is what it would hold had it recorded
them one by one. Activities have numbers of 64 bits: a program that fits into memory has fewer
entries. -/
theorem run_wellBracketed (p : Program) (hsize : p.entries.size + 4 ≤ 2 ^ 64) (o : Options)
    (n : UInt64) (now : Instant) :
    ∃ events, WellBracketed o.caller events ∧
      ∀ t : Trace, t.On n now → (run p o t).trace.Alike (t.record events) := by
  let s := TraceSpan.next n .driver "binder" o.caller
  let first : Run :=
    { program := p, trace := ⟨.nop, 0, 0, {}⟩, span := s, atlas := ⟨#[.empty o.filterCache]⟩,
      bag := .empty o.maxDiagnostics, canceled := o.canceled }
  have hstages : Recounts p (0 + 1 + (p.entries.size + 1) + (0 + 1)) fun run =>
      stage "close" closeAll (stage "bind" bindAll (stage "declare" declareAll run)) :=
    ((Narrates.stage "declare" Narrates.declareAll).comp
      (Narrates.stage "bind" Narrates.bindAll)).comp
      (Narrates.stage "close" Narrates.closeAll)
  -- the stages take the numbers after that of the run, and there are enough of them
  obtain ⟨last, es, k, -, hspan, hk, hnested, htell⟩ := hstages first rfl (n + 1) now
  refine ⟨s.beginning now :: (es ++ [s.ending now ""]), ?_, fun t ht => ?_⟩
  · exact hnested.wellBracketed (b := s.beginning now) (e := s.ending now "") rfl rfl rfl rfl rfl
      (by omega)
  · obtain ⟨u, hbegin, htu⟩ := TraceM.run_begin ht .driver "binder" o.caller
    obtain ⟨u', huu', hrun⟩ := htell u (htu.on ht)
    have hend := TraceM.run_finish (huu'.on (htu.on ht)) (s := s) rfl ""
    have hstart : start p o t = { first with trace := u } := by
      unfold start
      rw [hbegin]
    have hfinish : (run p o t).trace = ((TraceM.finish s "").run u').2 := by
      dsimp only at hrun
      rw [run_eq, hstart, hrun]
      unfold finish
      dsimp only
      rw [hspan]
    rw [hfinish]
    exact (htu.around huu' hend).alike

/-- A program with one type. -/
def oneType : Program where
  path := "one.toml"
  file := 1
  digest := []
  entries := #[{ draft := { key := "A", kindName := "type" }, kind := .type, span := {} }]

/-- A tracer that keeps the latest events, after 40 activities. -/
def keeping : Trace :=
  ⟨{ level := .detail, ring := some (.empty 64) }, 0, 40, {}⟩

/-- The events that a run has left in the ring: what they mark, their name, number and parent. -/
def kept (run : Run) : List (String × String × UInt64 × UInt64) :=
  (run.trace.tracer.ring.toList.flatMap Ring.events).map fun e =>
    (e.kind.name, e.name, e.span, e.parent)

/-- Runs inside the activity 7: one that succeeds, and one that is cancelled before it binds
anything. -/
theorem run_wellBracketed_oneType :
    oneType.entries.size + 4 ≤ 2 ^ 64 ∧ keeping.On 40 {} ∧
    (∃ events, WellBracketed 7 events ∧
      (run oneType { caller := 7 } keeping).trace.Alike (keeping.record events)) ∧
    kept (run oneType { caller := 7 } keeping) =
      [("begin", "binder", 41, 7), ("begin", "declare", 42, 41), ("end", "declare", 42, 41),
        ("begin", "bind", 43, 41), ("begin", "A", 44, 43), ("end", "A", 44, 43),
        ("end", "bind", 43, 41),
        ("begin", "close", 45, 41), ("point", "A", 0, 45), ("end", "close", 45, 41),
        ("end", "binder", 41, 7)] ∧
    (∃ events, WellBracketed 7 events ∧
      (run oneType { caller := 7, canceled := true } keeping).trace.Alike (keeping.record events)) ∧
    kept (run oneType { caller := 7, canceled := true } keeping) =
      [("begin", "binder", 41, 7), ("begin", "declare", 42, 41), ("end", "declare", 42, 41),
        ("begin", "bind", 43, 41), ("end", "bind", 43, 41), ("end", "binder", 41, 7)] := by
  have hsize : oneType.entries.size + 4 ≤ 2 ^ 64 := by decide
  have hon : keeping.On 40 {} := ⟨rfl, rfl, rfl⟩
  obtain ⟨es, hes, hkept⟩ := run_wellBracketed oneType hsize { caller := 7 } 40 {}
  obtain ⟨es', hes', hkept'⟩ :=
    run_wellBracketed oneType hsize { caller := 7, canceled := true } 40 {}
  exact ⟨hsize, hon, ⟨es, hes, hkept keeping hon⟩, by decide +kernel,
    ⟨es', hes', hkept' keeping hon⟩, by decide +kernel⟩

end Binding

end SymbolAtlas
