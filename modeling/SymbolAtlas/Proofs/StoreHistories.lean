import SymbolAtlas.Proofs.EntryFiles
import SymbolAtlas.Proofs.PackedRecords

set_option autoImplicit false

/-! # Store histories

A store is used again and again, and its files may be written over by others in between. Each action
changes what is answered for a digest in one way only (`answer_perform`): a write for the digest
makes its bytes the answer, dropping everything leaves none, and nothing else counts. So the answer
is decided by the last action that concerned the digest, however long the history (`get_latest`). -/

namespace SymbolAtlas.Cache.Store

/-- An action on a store: one of its own, or bytes that are written over the file of a digest. -/
inductive Action where
  | put (digest : List UInt8) (payload : Option StoredPayload)
  | get (digest : List UInt8)
  | dropAll
  | overwrite (digest bytes : List UInt8)

namespace Action

/-- Takes an action. What is found under a digest is left aside. -/
def perform {m : Type → Type} [Monad m] [Host m] (s : Store) : Action → m (Except FileError Unit)
  | put digest payload => s.putSome digest payload
  | get digest => do
    let _ ← s.get digest
    return .ok ()
  | dropAll => s.dropAll
  | overwrite digest bytes => s.overwrite digest bytes

/-- Whether an action writes the file of a digest or takes it away. To put no payload does
neither. -/
def concerns (digest : List UInt8) : Action → Bool
  | put other payload => other == digest && payload.isSome
  | get _ => false
  | dropAll => true
  | overwrite other _ => other == digest

/-- The bytes that an action leaves in the file it concerns. -/
def bytes? : Action → Option (List UInt8)
  | put _ payload => payload.map fun p => Payload.encode { p with schema := Payload.currentSchema }
  | get _ => none
  | dropAll => none
  | overwrite _ bytes => some bytes

end Action

/-- The last action that concerned a digest. -/
def latest? (digest : List UInt8) (actions : List Action) : Option Action :=
  (actions.filter (·.concerns digest)).getLast?

theorem latest?_concat (digest : List UInt8) (actions : List Action) (a : Action) :
    latest? digest (actions ++ [a]) = if a.concerns digest then
      some a else latest? digest actions := by
  unfold latest?
  rw [List.filter_append]
  cases hconcerns : a.concerns digest <;> simp [hconcerns]

/-- **A history of a store**: the actions succeed one after the other, and the store is dropped only
while its directory is found. -/
inductive History (s : Store) (start : World) : List Action → World → Prop
  | start : History s start [] start
  | act {actions : List Action} {a : Action} {w w' : World} (before : History s start actions w)
      (found : a = .dropAll → s.Found w)
      (run : (a.perform (m := StateM World) s).run w = (.ok (), w')) :
      History s start (actions ++ [a]) w'

variable {s : Store} {digest other bytes : List UInt8} {w w' start : World} {a : Action}
  {actions : List Action} {kept : Option StoredPayload}

theorem run_perform_get (s : Store) (digest : List UInt8) (w : World) :
    (Action.perform (m := StateM World) s (.get digest)).run w = (.ok (), w) := by
  unfold Action.perform
  rw [StateT.run_bind, run_get_eq]
  rfl

/-! ## Answers along a history -/

/-- Bytes that are written decide the answer for their digest, and for no other. -/
theorem answer_overwrite (hw : w.Sound) (hdigest : digest.length = 32)
    (hkept : s.answer digest (w.find (s.entryPath digest)) = .ok kept)
    (h : (s.overwrite (m := StateM World) other bytes).run w = (.ok (), w')) :
    w'.Sound ∧ s.answer digest (w'.find (s.entryPath digest))
      = .ok (if other = digest then accept? digest bytes else kept) := by
  have hsound : w'.Sound := by
    obtain ⟨t, rfl, ht⟩ := overwritten hw h
    exact ⟨hw.absolute, ht.sound⟩
  refine ⟨hsound, ?_⟩
  by_cases hsame : other = digest
  · subst hsame
    have hget := get_of_overwrite h
    rw [run_get_eq] at hget
    rw [if_pos rfl]
    exact congrArg Prod.fst hget
  · rw [if_neg hsame, find_overwrite_other hw hdigest (Ne.symm hsame) hkept h, hkept]

/-- **What one action does to the answer for a digest.** -/
theorem answer_perform (hw : w.Sound) (hdigest : digest.length = 32)
    (hkept : s.answer digest (w.find (s.entryPath digest)) = .ok kept)
    (hfound : a = .dropAll → s.Found w)
    (h : (a.perform (m := StateM World) s).run w = (.ok (), w')) :
    w'.Sound ∧ s.answer digest (w'.find (s.entryPath digest))
      = .ok (if a.concerns digest then a.bytes?.bind (accept? digest) else kept) := by
  cases a with
  | put other payload =>
      cases payload with
      | none =>
          -- nothing is asked of the host
          obtain rfl : w = w' := congrArg Prod.snd h
          simpa [Action.concerns] using ⟨hw, hkept⟩
      | some p =>
          rw [Action.perform, putSome, put_eq_overwrite] at h
          obtain ⟨hsound, hanswer⟩ := answer_overwrite hw hdigest hkept h
          simpa [Action.concerns, Action.bytes?] using ⟨hsound, hanswer⟩
  | get other =>
      rw [run_perform_get] at h
      obtain rfl : w = w' := congrArg Prod.snd h
      simpa [Action.concerns] using ⟨hw, hkept⟩
  | dropAll =>
      obtain ⟨hsound, hfind⟩ := find_dropAll hw hkept (hfound rfl) h
      rw [hfind]
      simpa [Action.concerns, Action.bytes?, answer] using hsound
  | overwrite other bytes =>
      obtain ⟨hsound, hanswer⟩ := answer_overwrite hw hdigest hkept h
      simpa [Action.concerns, Action.bytes?] using ⟨hsound, hanswer⟩

/-- **The answer after a history is what the bytes of the last write hold**, if nothing was found
before it. -/
theorem answer_history (hsound : start.Sound) (hdigest : digest.length = 32)
    (hstart : (s.get (m := StateM World) digest).run start = (.ok none, start))
    (h : History s start actions w) : w.Sound ∧ s.answer digest (w.find (s.entryPath digest))
      = .ok ((latest? digest actions).bind fun a => a.bytes?.bind (accept? digest)) := by
  induction h with
  | start =>
      rw [run_get_eq] at hstart
      exact ⟨hsound, congrArg Prod.fst hstart⟩
  | act before found run ih =>
      obtain ⟨hw, hkept⟩ := ih
      obtain ⟨hw', hanswer⟩ := answer_perform hw hdigest hkept found run
      refine ⟨hw', ?_⟩
      rw [hanswer, latest?_concat]
      split <;> rfl

theorem accept?_eq_some_iff {p : StoredPayload} : accept? digest bytes = some p ↔
    Payload.decode? bytes = some p ∧ p.schema = Payload.currentSchema ∧ p.hash = digest := by
  unfold accept?
  cases hdecode : Payload.decode? bytes with
  | none => simp
  | some q =>
      constructor
      · intro h
        simp only [Option.bind_some, bind, Option.ite_none_right_eq_some] at h
        obtain ⟨⟨hschema, hhash⟩, ⟨⟩⟩ := h
        exact ⟨rfl, hschema, hhash⟩
      · rintro ⟨⟨⟩, hschema, hhash⟩
        simp [hschema, hhash]

/-- The last action that concerned a digest wrote its file or dropped everything. -/
theorem latest?_cases (h : latest? digest actions = some a) :
    (∃ p, a = .put digest (some p) ∧ a ∈ actions) ∨ a = .dropAll ∨
      ∃ bytes, a = .overwrite digest bytes ∧ a ∈ actions := by
  obtain ⟨hmem, hconcerns⟩ := List.mem_filter.mp (List.mem_of_getLast? h)
  cases a with
  | put other payload =>
      cases payload with
      | none => simp [Action.concerns] at hconcerns
      | some p =>
          obtain rfl : other = digest := by simpa [Action.concerns] using hconcerns
          exact .inl ⟨p, rfl, hmem⟩
  | get other => cases hconcerns
  | dropAll => exact .inr (.inl rfl)
  | overwrite other bytes =>
      obtain rfl : other = digest := by simpa [Action.concerns] using hconcerns
      exact .inr (.inr ⟨bytes, rfl, hmem⟩)

/-! ## Histories of a fresh store -/

/-- The digest of an action is of the size of a manifest's. -/
def Action.Sized : Action → Prop
  | .put digest _ => digest.length = 32
  | .get digest => digest.length = 32
  | .dropAll => True
  | .overwrite digest _ => digest.length = 32

theorem exists_perform_fresh (hroom : Roomy w) (hsized : a.Sized) : (a = .dropAll → fresh.Found w) ∧
    ∃ w', (a.perform (m := StateM World) fresh).run w = (.ok (), w') ∧ Roomy w' := by
  cases a with
  | put digest payload =>
      refine ⟨by simp, ?_⟩
      cases payload with
      | none => exact ⟨w, rfl, hroom⟩
      | some p => exact exists_overwrite_fresh hroom hsized _
  | get digest => exact ⟨by simp, w, run_perform_get fresh digest w, hroom⟩
  | dropAll =>
      obtain ⟨w', hrun, hroom'⟩ := exists_dropAll_fresh hroom
      exact ⟨fun _ => found_fresh hroom hrun, w', hrun, hroom'⟩
  | overwrite digest bytes => exact ⟨by simp, exists_overwrite_fresh hroom hsized bytes⟩

/-- **Every history can happen to a fresh store.** -/
theorem exists_history_fresh (hroom : Roomy start) (hsized : ∀ a ∈ actions, a.Sized) :
    ∃ w, History fresh start actions w ∧ Roomy w := by
  induction actions using List.reverseRecOn with
  | nil => exact ⟨start, .start, hroom⟩
  | append_singleton actions a ih =>
      obtain ⟨w, hbefore, hw⟩ := ih fun b hb => hsized b (List.mem_append_left [a] hb)
      obtain ⟨hfound, w', hrun, hw'⟩ :=
        exists_perform_fresh hw (hsized a (List.mem_append_right actions List.mem_cons_self))
      exact ⟨w', .act hbefore hfound hrun, hw'⟩

/-- A payload with nothing but the digest of its manifest. -/
def bare (digest : List UInt8) : StoredPayload := { manifest := [], hash := digest }

theorem decode?_bare (hdigest : digest.length = 32) :
    Payload.decode? (Payload.encode { bare digest with schema := Payload.currentSchema })
      = some { bare digest with schema := Payload.currentSchema } := by
  have hnone : ∀ {α : Type} (fit : α → Prop), Payload.FitsMap fit none := fun _ =>
    ⟨by simp, by simp, by simp, by simp⟩
  exact Payload.decode?_encode
    ⟨by simp [bare], hdigest, hnone _, hnone _, hnone _, by simp [bare], by simp [bare]⟩

/-- A history with a foreign payload, a spoiled file, a drop, no payload, the payload of the digest
and calls for another digest. -/
def mixed (digest other : List UInt8) : List Action :=
  [.put digest (some (bare other)), .overwrite digest [0x85], .dropAll,
    .put digest (some (bare digest)), .put digest none, .get other, .put other (some (bare digest))]

theorem sized_mixed (hdigest : digest.length = 32) (hother : other.length = 32) :
    ∀ a ∈ mixed digest other, a.Sized := by
  simp [mixed, Action.Sized, hdigest, hother]

theorem eq_of_put_mem_mixed {p : StoredPayload} (hne : digest ≠ other)
    (h : .put digest (some p) ∈ mixed digest other) : p = bare other ∨ p = bare digest := by
  simpa [mixed, hne] using h

theorem eq_of_overwrite_mem_mixed (h : .overwrite digest bytes ∈ mixed digest other) :
    bytes = [0x85] := by
  simpa [mixed] using h

/-! ## The last action decides -/

/-- **A digest is answered by the last action that concerned it**: with the payload that was put
then, in the current version, if the payload is one of that digest, and with nothing in every other
case. Other digests do not count, and no answer is an error. -/
theorem get_latest (hdigest : digest.length = 32) (hsound : start.Sound)
    (hstart : (s.get (m := StateM World) digest).run start = (.ok none, start))
    (h : History s start actions w)
    (hcodec : ∀ p : StoredPayload, .put digest (some p) ∈ actions →
      Payload.decode? (Payload.encode { p with schema := Payload.currentSchema })
        = some { p with schema := Payload.currentSchema })
    (hjunk : ∀ bytes, .overwrite digest bytes ∈ actions → Payload.decode? bytes = none) :
    ∃ found, (s.get (m := StateM World) digest).run w = (.ok found, w) ∧
      ∀ q, found = some q ↔ ∃ p : StoredPayload,
        latest? digest actions = some (.put digest (some p)) ∧
        p.hash = digest ∧ q = { p with schema := Payload.currentSchema } := by
  obtain ⟨-, hanswer⟩ := answer_history hsound hdigest hstart h
  refine ⟨_, by rw [run_get_eq, hanswer], fun q => ?_⟩
  -- what the bytes of each kind of last action hold
  cases hlatest : latest? digest actions with
  | none => simp
  | some a =>
      rw [Option.bind_some]
      rcases latest?_cases hlatest with ⟨p, rfl, hmem⟩ | rfl | ⟨bytes, rfl, hmem⟩
      · rw [Action.bytes?, Option.map_some, Option.bind_some, accept?_eq_some_iff, hcodec p hmem]
        constructor
        · rintro ⟨⟨⟩, -, hhash⟩
          exact ⟨p, rfl, hhash, rfl⟩
        · rintro ⟨_, ⟨⟩, hhash, rfl⟩
          exact ⟨rfl, rfl, hhash⟩
      · simp [Action.bytes?]
      · rw [Action.bytes?, Option.bind_some, accept?_eq_some_iff, hjunk bytes hmem]
        simp

theorem get_latest_mixed :
    ∃ w, History fresh {} (mixed (List.replicate 32 7) (List.replicate 32 8)) w ∧
    (fresh.get (m := StateM World) (List.replicate 32 7)).run w
      = (.ok (some { bare (List.replicate 32 7) with schema := Payload.currentSchema }), w) := by
  have hdigest : (List.replicate 32 (7 : UInt8)).length = 32 := List.length_replicate
  have hother : (List.replicate 32 (8 : UInt8)).length = 32 := List.length_replicate
  have hne : List.replicate 32 (7 : UInt8) ≠ List.replicate 32 8 := by decide
  have hjunk : Payload.decode? [0x85] = none := rfl
  obtain ⟨w, hhistory, -⟩ := exists_history_fresh roomy_empty (sized_mixed hdigest hother)
  obtain ⟨found, hget, hfound⟩ :=
    get_latest hdigest roomy_empty.sound (run_get_empty hdigest) hhistory
    (fun p hp => by
      rcases eq_of_put_mem_mixed hne hp with rfl | rfl
      · exact decode?_bare hother
      · exact decode?_bare hdigest)
    (fun bytes hbytes => eq_of_overwrite_mem_mixed hbytes ▸ hjunk)
  refine ⟨w, hhistory, ?_⟩
  rw [hget, (hfound _).mpr ⟨bare (List.replicate 32 7), rfl, rfl, rfl⟩]

end SymbolAtlas.Cache.Store
