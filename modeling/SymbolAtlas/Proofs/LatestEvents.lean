import Mathlib.Data.List.DropRight
import SymbolAtlas.Proofs.TracedRuns

set_option autoImplicit false

/-! # The latest events

A ring is seen through the list of its events, oldest first. Before the last place was written these
are the places before the head; afterwards they go round from the head on, where the oldest one
stands. Either way one more event comes last, and the oldest one gives way if there was no room. So
after any number of events a ring keeps the latest of them, as many as it has places
(`latest_events`). -/

namespace SymbolAtlas

/-- The last of what follows the last of some items are the last of all. -/
theorem rtake_append_rtake {α : Type} (c : Nat) (xs ys : List α) :
    (xs.rtake c ++ ys).rtake c = (xs ++ ys).rtake c := by
  simp only [List.rtake_eq_reverse_take_reverse, List.reverse_append, List.reverse_reverse,
    List.take_append, List.take_take]
  congr 4
  omega

namespace Ring

/-! ## One event -/

@[simp] theorem capacity_push (r : Ring) (e : Event) : (r.push e).capacity = r.capacity := rfl

theorem head_lt_length (r : Ring) : r.head < r.buffer.toList.length := by
  rw [Array.length_toList, r.size_buffer]
  exact r.head_lt

/-- Up to the head and with it, the written buffer holds what it held and the new event. -/
theorem take_succ_set {α : Type} {xs : List α} {i : Nat} (hi : i < xs.length) (x : α) :
    (xs.set i x).take (i + 1) = xs.take i ++ [x] := by
  rw [List.take_add_one, List.take_set_of_le (le_refl i), List.getElem?_set_self hi]
  rfl

/-- The events of a ring that has just been written. -/
theorem events_push_eq (r : Ring) (e : Event) : (r.push e).events =
    (if r.full then r.buffer.toList.drop (r.head + 1) else []) ++
    (r.buffer.toList.take r.head ++ [e]) := by
  have hlength : r.buffer.toList.length = r.capacity := Array.length_toList.trans r.size_buffer
  have hlt := r.head_lt
  set xs := r.buffer.toList.set r.head e
  have htaken : xs.take (r.head + 1) = r.buffer.toList.take r.head ++ [e] :=
    take_succ_set r.head_lt_length e
  have hview : (r.push e).events = (fun next : Nat =>
      if r.full || next == 0 then xs.drop next ++ xs.take next else xs.take next)
        ((r.head + 1) % r.capacity) := by
    have hset : (r.buffer.set r.head e (r.size_buffer ▸ r.head_lt)).toList = xs :=
      Array.toList_set ..
    rw [← hset]
    rfl
  rw [hview]
  by_cases hlast : r.head + 1 = r.capacity
  · -- the last place was written, so the events start at the first one again
    have hwhole : xs.take (r.head + 1) = xs :=
      List.take_of_length_le (by rw [List.length_set]; omega)
    have hnone : r.buffer.toList.drop (r.head + 1) = [] :=
      List.drop_eq_nil_of_le (by omega)
    rw [hnone, ite_self, List.nil_append, ← htaken, hwhole, hlast, Nat.mod_self]
    simp
  · have hnext : (r.head + 1) % r.capacity = r.head + 1 := Nat.mod_eq_of_lt (by omega)
    have hrest : xs.drop (r.head + 1) = r.buffer.toList.drop (r.head + 1) :=
      List.drop_set_of_lt (Nat.lt_succ_self _)
    rw [hnext, ← hrest, ← htaken]
    cases r.full <;> rfl

/-- **One more event comes last**, and the oldest one gives way if there is no room. -/
theorem events_push (r : Ring) (e : Event) :
    (r.push e).events = (r.events ++ [e]).rtake r.capacity := by
  have hlength : r.buffer.toList.length = r.capacity := Array.length_toList.trans r.size_buffer
  have hlt := r.head_lt
  rw [events_push_eq]
  unfold events List.rtake
  split
  · have hone :
        (r.buffer.toList.drop r.head ++ r.buffer.toList.take r.head ++ [e]).length - r.capacity
        = 1 := by
      simp only [List.length_append, List.length_drop, List.length_take, List.length_singleton]
      omega
    rw [hone, List.append_assoc, List.drop_append_of_le_length (by rw [List.length_drop]; omega),
      List.drop_drop]
  · have hroom : (r.buffer.toList.take r.head ++ [e]).length - r.capacity = 0 := by
      simp only [List.length_append, List.length_take, List.length_singleton]
      omega
    rw [hroom, List.drop_zero, List.nil_append]

end Ring

/-! ## Numbers of events -/

/-- An event as it is kept, where `last` is the number given out last. -/
def Event.withNumber (last : UInt64) (e : Event) : Event :=
  if e.seq = 0 then { e with seq := last + 1 } else e

/-- The number given out last once the event is kept. -/
def Event.lastNumber (last : UInt64) (e : Event) : UInt64 :=
  if e.seq = 0 then last + 1 else last

/-- Some events as they are kept, one after the other. -/
def numbered : UInt64 → List Event → List Event
  | _, [] => []
  | last, e :: rest => e.withNumber last :: numbered (e.lastNumber last) rest

/-- The event is kept as it is, but for a number if it had none. -/
def KeptAs (e kept : Event) : Prop :=
  kept = { e with seq := kept.seq } ∧ (e.seq ≠ 0 → kept = e)

theorem Event.withNumber_kept (last : UInt64) (e : Event) : KeptAs e (e.withNumber last) := by
  unfold withNumber
  split
  · rename_i hnone
    exact ⟨rfl, fun h => absurd hnone h⟩
  · exact ⟨rfl, fun _ => rfl⟩

theorem numbered_kept (events : List Event) :
    ∀ last, List.Forall₂ KeptAs events (numbered last events) := by
  induction events with
  | nil => exact fun _ => .nil
  | cons e rest ih => exact fun last => .cons (e.withNumber_kept last) (ih _)

theorem length_numbered (last : UInt64) (events : List Event) :
    (numbered last events).length = events.length :=
  (numbered_kept events last).length_eq.symm

/-- The numbers are not used up by the events that need one. -/
def Lasts (last : UInt64) (events : List Event) : Prop :=
  last.toNat + events.countP (·.seq = 0) < 2 ^ 64

/-- An event that needs a number gets one that is higher by one. -/
theorem Lasts.given {last : UInt64} {e : Event} {rest : List Event} (h : Lasts last (e :: rest))
    (he : e.seq = 0) : (e.withNumber last).seq = e.lastNumber last ∧
      (e.lastNumber last).toNat = last.toNat + 1 := by
  unfold Lasts at h
  rw [List.countP_cons_of_pos (by simpa using he)] at h
  unfold Event.withNumber Event.lastNumber
  rw [if_pos he, if_pos he, UInt64.toNat_add]
  exact ⟨rfl, Nat.mod_eq_of_lt (by simp; omega)⟩

theorem Lasts.rest {last : UInt64} {e : Event} {rest : List Event} (h : Lasts last (e :: rest)) :
    Lasts (e.lastNumber last) rest ∧ last.toNat ≤ (e.lastNumber last).toNat := by
  by_cases he : e.seq = 0
  · obtain ⟨-, hnext⟩ := h.given he
    unfold Lasts at h ⊢
    rw [List.countP_cons_of_pos (by simpa using he)] at h
    omega
  · unfold Lasts Event.lastNumber at *
    rw [List.countP_cons_of_neg (by simpa using he)] at h
    rw [if_neg he]
    omega

/-- **A number that is given out is above those before it.** -/
theorem numbered_above (events : List Event) : ∀ last, Lasts last events →
    ∀ p ∈ events.zip (numbered last events), p.1.seq = 0 → last < p.2.seq := by
  induction events with
  | nil => exact fun _ _ _ h => nomatch h
  | cons e rest ih =>
      intro last h p hp hnone
      rw [UInt64.lt_iff_toNat_lt]
      rw [numbered, List.zip_cons_cons, List.mem_cons] at hp
      rcases hp with rfl | hp
      · obtain ⟨hseq, hnext⟩ := h.given hnone
        dsimp only
        rw [hseq]
        omega
      · obtain ⟨hrest, hle⟩ := h.rest
        have habove := UInt64.lt_iff_toNat_lt.mp (ih _ hrest p hp hnone)
        omega

/-- **The numbers that are given out ascend.** -/
theorem numbered_ascending (events : List Event) : ∀ last, Lasts last events →
    (events.zip (numbered last events)).Pairwise fun p q => p.1.seq = 0 → q.1.seq = 0 →
      p.2.seq < q.2.seq := by
  induction events with
  | nil => exact fun _ _ => .nil
  | cons e rest ih =>
      intro last h
      rw [numbered, List.zip_cons_cons, List.pairwise_cons]
      refine ⟨fun p hp he hnone => ?_, ih _ h.rest.1⟩
      rw [(h.given he).1]
      exact numbered_above rest _ h.rest.1 p hp hnone

/-! ## Rings as tracers -/

namespace Trace

/-- **An event goes into the ring**, with a number. -/
theorem emit_ring {t : Trace} {level : TraceLevel} {r : Ring}
    (h : t.tracer = { level, ring := some r }) (e : Event) :
    t.emit e = { t with tracer := { level, ring := some (r.push (e.withNumber t.lastSeq)) },
                                      lastSeq := e.lastNumber t.lastSeq } := by
  obtain ⟨tracer, lastSeq, lastSpan, now⟩ := t
  obtain rfl : tracer = { level, ring := some r } := h
  unfold emit TraceM.emit TraceM.keep TraceM.number Event.withNumber Event.lastNumber
  split <;> rfl

/-- **A ring keeps the latest of the events that it had and gets.** -/
theorem record_ring {level : TraceLevel} (events : List Event) :
    ∀ {t : Trace} {r : Ring} {had : List Event},
    t.tracer = { level, ring := some r } → r.events = had.rtake r.capacity →
    ∃ r', (t.record events).tracer.ring = some r' ∧
      r'.events = (had ++ numbered t.lastSeq events).rtake r.capacity := by
  induction events with
  | nil =>
      intro t r had htracer hhad
      refine ⟨r, congrArg Tracer.ring htracer, ?_⟩
      rw [numbered, List.append_nil]
      exact hhad
  | cons e rest ih =>
      intro t r had htracer hhad
      have hemit := emit_ring htracer e
      -- the ring holds the last of what it was given, one event more now
      have hpush : (r.push (e.withNumber t.lastSeq)).events
          = (had ++ [e.withNumber t.lastSeq]).rtake (r.push (e.withNumber t.lastSeq)).capacity := by
        rw [Ring.events_push, hhad, rtake_append_rtake, Ring.capacity_push]
      obtain ⟨r', hring, hevents⟩ :=
        ih (t := t.emit e) (congrArg Trace.tracer hemit) hpush
      refine ⟨r', hring, ?_⟩
      rw [hevents, Ring.capacity_push, numbered, List.append_assoc, List.singleton_append, hemit]

end Trace

/-- **A ring keeps the latest events**, as many as it has slots: the capacity that was asked for if
it is positive, and 1024 otherwise. They stand in the order in which they were emitted, each as it
was emitted but for a number if it had none. The numbers that were given out ascend and are above
all given out before, as long as the numbers of 64 bits last. -/
theorem latest_events (capacity : Int) (level : TraceLevel) (lastSeq lastSpan : UInt64)
    (now : Instant) (events : List Event) :
    let slots := if 0 < capacity then capacity.toNat else 1024
    ∃ r, (Trace.record
        { tracer := { level, ring := some (.empty capacity) }, lastSeq, lastSpan, now }
        events).tracer.ring = some r ∧
      r.events.length = min events.length slots ∧
      r.events = (numbered lastSeq events).rtake slots ∧
      List.Forall₂ KeptAs (events.rtake slots) r.events ∧
      (Lasts lastSeq events →
        (∀ p ∈ (events.rtake slots).zip r.events, p.1.seq = 0 → lastSeq < p.2.seq) ∧
        ((events.rtake slots).zip r.events).Pairwise fun p q => p.1.seq = 0 → q.1.seq = 0 →
          p.2.seq < q.2.seq) := by
  intro slots
  have hslots : (Ring.empty capacity).capacity = slots := by
    show Ring.places capacity = slots
    unfold Ring.places Ring.defaultCapacity slots
    split
    · rw [if_neg (by omega)]
    · rw [if_pos (by omega)]
  have hnothing : (Ring.empty capacity).events
      = ([] : List Event).rtake (Ring.empty capacity).capacity := by
    rw [List.rtake_nil]
    rfl
  obtain ⟨r, hring, hevents⟩ := Trace.record_ring events
    (t := { tracer := { level, ring := some (.empty capacity) }, lastSeq, lastSpan, now })
    rfl hnothing
  rw [List.nil_append, hslots] at hevents
  dsimp only at hevents
  have hlength := length_numbered lastSeq events
  -- an event and what is kept of it stand at the same place, counted from the end
  have hzip : (events.rtake slots).zip r.events
      = (events.zip (numbered lastSeq events)).rtake slots := by
    unfold List.rtake at hevents ⊢
    rw [hevents, hlength, List.length_zip, hlength, Nat.min_self]
    exact List.drop_zipWith.symm
  refine ⟨r, hring, ?_, hevents, ?_, fun hlasts => ?_⟩
  · rw [hevents, List.rtake, List.length_drop, hlength]
    omega
  · unfold List.rtake at hevents ⊢
    rw [hevents, hlength]
    exact List.forall₂_drop _ (numbered_kept events lastSeq)
  · rw [hzip]
    refine ⟨fun p hp => ?_, ?_⟩
    · exact numbered_above events lastSeq hlasts p (List.mem_of_mem_drop hp)
    · exact (numbered_ascending events lastSeq hlasts).drop

/-- The point events of some numbers; zero stands for none. -/
def pointEvents (numbers : List UInt64) : List Event :=
  numbers.map fun seq => { seq, kind := .point, scope := .symbol, name := "step" }

/-- In a ring of two slots the slots are taken three times over; the events keep their own
numbers. -/
example : ((Trace.record { tracer := { level := .error, ring := some (.empty 2) } }
    (pointEvents [0, 9, 0, 0, 7])).tracer.ring.map fun r => r.events.map Event.seq)
      = some [3, 7] := by
  decide

end SymbolAtlas
