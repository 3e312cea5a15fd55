import SymbolAtlas.Trace.Event
import Mathlib.Tactic

set_option autoImplicit false

/-! # Well-bracketed events

The events of a trace mark where activities begin and end. `Bracketed` reads them with a stack of
the activities that are open, and `WellBracketed` adds that beginnings and ends come in pairs with
numbers of their own. `Nested` describes the same events by how they are put together, which is how
a program emits them; whatever is put together like this is well bracketed
(`Nested.wellBracketed`). -/

namespace SymbolAtlas

/-- What the beginning and the end of an activity have in common. -/
structure Activity where
  span : UInt64
  scope : Scope
  name : String
  parent : UInt64
  deriving DecidableEq

/-- The activity that an event belongs to, if it marks a beginning or an end. -/
def Event.activity (e : Event) : Activity :=
  ⟨e.span, e.scope, e.name, e.parent⟩

/-! ## The specification -/

namespace EventLog

/-- **Reads events with a stack of open activities.** A beginning and a point name the innermost
open activity as their parent, an end is the end of the innermost open activity, and nothing stays
open. -/
def Bracketed : (opened : List Activity) → List Event → Prop
  | opened, [] => opened = []
  | opened, e :: events =>
    if e.kind = .begin then
      opened.head?.map Activity.span = some e.parent ∧ Bracketed (e.activity :: opened) events
    else if e.kind = .finish then
      opened.head? = some e.activity ∧ Bracketed opened.tail events
    else
      e.kind = .point ∧ opened.head?.map Activity.span = some e.parent ∧ Bracketed opened events

/-- The numbers of the activities that begin, in order. -/
def begun (events : List Event) : List UInt64 :=
  (events.filter (·.kind = .begin)).map Event.span

/-- The numbers of the activities that end, in order. -/
def ended (events : List Event) : List UInt64 :=
  (events.filter (·.kind = .finish)).map Event.span

/-- `b` is the beginning and `e`, which comes later, the end of one activity. -/
structure Pair (events : List Event) (b e : Event) : Prop where
  later : [b, e].Sublist events
  begins : b.kind = .begin
  ends : e.kind = .finish
  activity : e.activity = b.activity

/-- **Well-bracketed events**, the first of which begins the activity of the whole, as a part of the
activity `caller`. -/
structure WellBracketed (caller : UInt64) (events : List Event) : Prop where
  nested : ∃ b rest, events = b :: rest ∧ b.kind = .begin ∧ b.scope = .driver ∧ b.parent = caller ∧
    Bracketed [b.activity] rest
  nodup_begun : (begun events).Nodup
  nodup_ended : (ended events).Nodup
  ended_of_begun : ∀ b ∈ events, b.kind = .begin → ∃ e, Pair events b e
  begun_of_ended : ∀ e ∈ events, e.kind = .finish → ∃ b, Pair events b e

@[simp] theorem begun_append (es es' : List Event) : begun (es ++ es') = begun es ++ begun es' := by
  simp [begun]

@[simp] theorem ended_append (es es' : List Event) : ended (es ++ es') = ended es ++ ended es' := by
  simp [ended]

theorem Pair.mono {es es' : List Event} {b e : Event} (h : Pair es b e) (hsub : es.Sublist es') :
    Pair es' b e :=
  { h with later := h.later.trans hsub }

/-! ## Events put together -/

/-- **Events inside the activity `parent`**: points, activities with what is inside them, and such
events one after the other. The activities are numbered in the order of their beginnings, from
`last` on, and there are `count` of them. -/
inductive Nested : (parent last : UInt64) → List Event → (count : Nat) → Prop
  | nil (p n : UInt64) : Nested p n [] 0
  | point {p n : UInt64} {e : Event} (hkind : e.kind = .point) (hparent : e.parent = p) :
      Nested p n [e] 0
  | span {p n : UInt64} {b e : Event} {inner : List Event} {k : Nat} (hb : b.kind = .begin)
      (he : e.kind = .finish) (hsame : e.activity = b.activity) (hparent : b.parent = p)
      (hnumber : b.span = n + 1) (hinner : Nested b.span (n + 1) inner k) :
      Nested p n (b :: (inner ++ [e])) (k + 1)
  | append {p n : UInt64} {es es' : List Event} {k k' : Nat} (h : Nested p n es k)
      (h' : Nested p (n + UInt64.ofNat k) es' k') : Nested p n (es ++ es') (k + k')

namespace Nested

variable {p n : UInt64} {events : List Event} {k : Nat}

/-- Nested events may stand wherever their parent is the innermost open activity. -/
theorem bracketed (h : Nested p n events k) :
    ∀ {opened : List Activity} {rest : List Event}, opened.head?.map Activity.span = some p →
      Bracketed opened rest → Bracketed opened (events ++ rest) := by
  induction h with
  | nil p n => exact fun _ hrest => hrest
  | @point p n e hkind hparent =>
      intro opened rest hopen hrest
      rw [List.singleton_append, Bracketed, hkind, if_neg (by decide), if_neg (by decide), hparent]
      exact ⟨rfl, hopen, hrest⟩
  | @span p n b e inner k hb he hsame hparent hnumber hinner ih =>
      intro opened rest hopen hrest
      rw [List.cons_append, List.append_assoc, Bracketed, if_pos hb, hparent]
      -- inside, the new activity is on top of the stack until its end takes it away
      refine ⟨hopen, ih rfl ?_⟩
      rw [List.singleton_append, Bracketed, he, if_neg (by decide), if_pos rfl, hsame]
      exact ⟨rfl, hrest⟩
  | append h h' ih ih' =>
      intro opened rest hopen hrest
      rw [List.append_assoc]
      exact ih hopen (ih' hopen hrest)

/-- **Activities are numbered without gaps.** -/
theorem begun_eq (h : Nested p n events k) :
    begun events = (List.range k).map fun i => n + 1 + UInt64.ofNat i := by
  induction h with
  | nil p n => rfl
  | point hkind hparent =>
      unfold begun
      rw [List.filter_singleton, hkind]
      rfl
  | @span p n b e inner k hb he hsame hparent hnumber hinner ih =>
      -- the activity has the first number, and those inside it go on from there
      have hhead : begun (b :: (inner ++ [e])) = (n + 1) :: begun inner := by
        have hend : begun [e] = [] := by
          unfold begun
          rw [List.filter_singleton, he]
          rfl
        rw [← List.singleton_append, begun_append, begun_append, hend, List.append_nil]
        unfold begun
        rw [List.filter_singleton, hb]
        simp [hnumber]
      rw [hhead, ih, List.range_succ_eq_map, List.map_cons, List.map_map]
      congr 1
      · simp
      · refine List.map_congr_left fun i _ => ?_
        show n + 1 + 1 + UInt64.ofNat i = n + 1 + UInt64.ofNat (i + 1)
        rw [UInt64.ofNat_add, UInt64.add_comm (UInt64.ofNat i), ← UInt64.add_assoc]
        rfl
  | @append p n es es' k k' h h' ih ih' =>
      -- the second events are numbered from where the first ones ended
      rw [begun_append, ih, ih', List.range_add, List.map_append, List.map_map]
      congr 1
      refine List.map_congr_left fun i _ => ?_
      show n + UInt64.ofNat k + 1 + UInt64.ofNat i = n + 1 + UInt64.ofNat (k + i)
      rw [UInt64.ofNat_add]
      ac_rfl

/-- Distinct activities have distinct numbers, as long as there are enough numbers. -/
theorem nodup_begun (h : Nested p n events k) (hk : k ≤ 2 ^ 64) : (begun events).Nodup := by
  rw [h.begun_eq]
  refine List.nodup_range.map_on fun i hi j hj hij => ?_
  have hi : i < 2 ^ 64 := by
    have := List.mem_range.mp hi
    omega
  have hj : j < 2 ^ 64 := by
    have := List.mem_range.mp hj
    omega
  have heq : UInt64.ofNat i = UInt64.ofNat j := (UInt64.add_right_inj (n + 1)).mp hij
  have hnat := congrArg UInt64.toNat heq
  rwa [UInt64.toNat_ofNat_of_lt' hi, UInt64.toNat_ofNat_of_lt' hj] at hnat

/-- The activities that end are those that begin. -/
theorem ended_perm (h : Nested p n events k) : (ended events).Perm (begun events) := by
  induction h with
  | nil p n => rfl
  | point hkind hparent =>
      unfold ended begun
      rw [List.filter_singleton, List.filter_singleton, hkind]
      rfl
  | @span p n b e inner k hb he hsame hparent hnumber hinner ih =>
      have hspan : e.span = b.span := congrArg Activity.span hsame
      have hends : ended (b :: (inner ++ [e])) = ended inner ++ [b.span] := by
        unfold ended
        simp [hb, he, hspan, EventKind.begin, EventKind.finish]
      have hbegins : begun (b :: (inner ++ [e])) = b.span :: begun inner := by
        unfold begun
        simp [hb, he, EventKind.begin, EventKind.finish]
      -- a span begins before what it holds, and ends after it
      rw [hends, hbegins]
      exact List.perm_append_singleton b.span (ended inner) |>.trans (ih.cons b.span)
  | append h h' ih ih' =>
      rw [ended_append, begun_append]
      exact ih.append ih'

/-- Every beginning has its end, and every end its beginning. -/
theorem pairs (h : Nested p n events k) :
    (∀ b ∈ events, b.kind = .begin → ∃ e, Pair events b e) ∧
    (∀ e ∈ events, e.kind = .finish → ∃ b, Pair events b e) := by
  induction h with
  | nil p n => simp
  | @point p n e hkind hparent =>
      constructor
      all_goals
        intro x hx hx'
        obtain rfl := List.mem_singleton.mp hx
        rw [hkind] at hx'
        cases hx'
  | @span p n b e inner k hb he hsame hparent hnumber hinner ih =>
      -- what is paired inside stays paired, and the two ends of the activity belong together
      have hinside : inner.Sublist (b :: (inner ++ [e])) :=
        (List.sublist_append_left inner [e]).trans (List.sublist_cons_self b _)
      have hpair : Pair (b :: (inner ++ [e])) b e := by
        refine ⟨?_, hb, he, hsame⟩
        exact (List.sublist_append_right inner [e]).cons_cons b
      constructor
      · intro x hx hkind
        rcases List.mem_cons.mp hx with rfl | hx
        · exact ⟨e, hpair⟩
        · rcases List.mem_append.mp hx with hx | hx
          · obtain ⟨y, hy⟩ := ih.1 x hx hkind
            exact ⟨y, hy.mono hinside⟩
          · obtain rfl := List.mem_singleton.mp hx
            rw [he] at hkind
            cases hkind
      · intro x hx hkind
        rcases List.mem_cons.mp hx with rfl | hx
        · rw [hb] at hkind
          cases hkind
        · rcases List.mem_append.mp hx with hx | hx
          · obtain ⟨y, hy⟩ := ih.2 x hx hkind
            exact ⟨y, hy.mono hinside⟩
          · obtain rfl := List.mem_singleton.mp hx
            exact ⟨b, hpair⟩
  | @append p n es es' k k' h h' ih ih' =>
      have hleft : es.Sublist (es ++ es') := List.sublist_append_left es es'
      have hright : es'.Sublist (es ++ es') := List.sublist_append_right es es'
      constructor
      · intro x hx hkind
        rcases List.mem_append.mp hx with hx | hx
        · exact (ih.1 x hx hkind).imp fun y hy => hy.mono hleft
        · exact (ih'.1 x hx hkind).imp fun y hy => hy.mono hright
      · intro x hx hkind
        rcases List.mem_append.mp hx with hx | hx
        · exact (ih.2 x hx hkind).imp fun y hy => hy.mono hleft
        · exact (ih'.2 x hx hkind).imp fun y hy => hy.mono hright

/-- **One activity with all that is inside it is well bracketed.** -/
theorem wellBracketed {b e : Event} (h : Nested b.span (n + 1) events k) (hb : b.kind = .begin)
    (hscope : b.scope = .driver) (hnumber : b.span = n + 1) (he : e.kind = .finish)
    (hsame : e.activity = b.activity) (hk : k + 1 ≤ 2 ^ 64) :
    WellBracketed b.parent (b :: (events ++ [e])) := by
  have hwhole : Nested b.parent n (b :: (events ++ [e])) (k + 1) := .span hb he hsame rfl hnumber h
  refine ⟨⟨b, _, rfl, hb, hscope, rfl, h.bracketed rfl ?_⟩, hwhole.nodup_begun hk,
    hwhole.ended_perm.nodup_iff.mpr (hwhole.nodup_begun hk), hwhole.pairs.1, hwhole.pairs.2⟩
  rw [Bracketed, he, if_neg (by decide), if_pos rfl, hsame]
  exact ⟨rfl, rfl⟩

end Nested

end EventLog

end SymbolAtlas
