import SymbolAtlas.Proofs.ScannerSteps

set_option autoImplicit false

/-! # Reading a piece of a document

A text that is a document by itself is read in the same way within a longer one. Two scanners are
run beside each other, one over the piece alone and one over the whole (`Beside`); what differs is
what stands around the piece. The second one sees more text where the first one sees the end, so the
piece must end its last line, unless nothing follows: then no reader that succeeds looks past the
end of the piece.

`After` says of a reader and its twin that they keep two scanners beside each other if they start
after some characters were read. Each form of the grammar has one lemma, put together from those for
single steps. -/

namespace SymbolAtlas.Toml

open Text

/-- What a token says, wherever it stands. -/
abbrev Word : Type := TokenKind × String

def Token.word (t : Token) : Word :=
  (t.kind, t.text)

/-- A text whose last line is ended. -/
def EndsLine (rest : List Glyph) : Prop :=
  ∃ w, rest.getLast? = some (.char '\n' w)

theorem EndsLine.ne_nil {rest : List Glyph} (h : EndsLine rest) : rest ≠ [] := by
  rintro rfl
  obtain ⟨w, hw⟩ := h
  cases hw

/-- The rest after a character ends its last line too, unless the character was the end of that
line. -/
theorem EndsLine.tail {c : Char} {w : Nat} {rest : List Glyph} (h : EndsLine (.char c w :: rest)) :
    EndsLine rest ∨ (rest = [] ∧ c = '\n') := by
  obtain ⟨v, hv⟩ := h
  cases rest with
  | nil =>
      right
      injection hv with hv
      injection hv with hc
      exact ⟨rfl, hc⟩
  | cons g rest =>
      left
      rw [List.getLast?_cons_cons] at hv
      exact ⟨v, hv⟩

/-- What stands around a piece of a document: the glyphs after it, the number of bytes before it,
and what the tokens before it say, the latest first. -/
structure Surroundings where
  post : List Glyph
  offset : Nat
  older : List Word

namespace Surroundings

variable {d : Surroundings}

/-- Two scanners at the same place of the piece, the first one in the piece alone. -/
structure Beside (d : Surroundings) (s s' : Scanner) : Prop where
  rest : s'.rest = s.rest ++ d.post
  past : ∃ before, s'.past = s.past ++ before
  position : s'.position = s.position + d.offset
  start : s'.start = s.start + d.offset
  tokens : s'.tokens.map Token.word = s.tokens.map Token.word ++ d.older
  read : (s.past.map Glyph.width).sum = s.position
  room : s.rest.length ≤ s.size
  room' : s'.rest.length ≤ s'.size

/-- The text of the latest glyphs does not depend on those before. -/
theorem textBack_append (width : Nat) (past before : List Glyph) (text : List Char)
    (h : width ≤ (past.map Glyph.width).sum) :
    Scanner.textBack width (past ++ before) text = Scanner.textBack width past text := by
  induction past generalizing width text with
  | nil =>
      obtain rfl : width = 0 := by simpa using h
      cases before <;> rfl
  | cons g past ih =>
      cases width with
      | zero => rfl
      | succ width =>
          rw [List.map_cons, List.sum_cons] at h
          show Scanner.textBack (width + 1 - g.width) (past ++ before) _
            = Scanner.textBack (width + 1 - g.width) past _
          exact ih _ _ (by omega)

/-- From any place of the piece on both have read the same text. -/
theorem Beside.textBack {s s' : Scanner} (h : d.Beside s s') (place : Nat) (text : List Char) :
    Scanner.textBack (s'.position - (place + d.offset)) s'.past text
      = Scanner.textBack (s.position - place) s.past text := by
  obtain ⟨before, hpast⟩ := h.past
  have hwidth : s'.position - (place + d.offset) = s.position - place := by
    rw [h.position]
    omega
  have hread := h.read
  rw [hwidth, hpast, textBack_append _ _ _ _ (by omega)]

theorem Beside.current {s s' : Scanner} (h : d.Beside s s') : s'.current = s.current := by
  unfold Scanner.current
  rw [h.start]
  exact h.textBack s.start []

theorem Beside.advance {s s' : Scanner} (h : d.Beside s s') {c : Char} {w : Nat} {rest : List Glyph}
    (hrest : s.rest = .char c w :: rest) :
    d.Beside (s.advance c w rest) (s'.advance c w (rest ++ d.post)) := by
  -- both get past the same glyph, and each of the sums that are compared grows by its width
  obtain ⟨before, hpast⟩ := h.past
  have hposition := h.position
  have hread := h.read
  have hroom := h.room
  have hroom' := h.room'
  rw [hrest, List.length_cons] at hroom
  rw [h.rest, hrest, List.cons_append, List.length_cons] at hroom'
  refine ⟨rfl, ⟨before, ?_⟩, ?_, h.start, h.tokens, ?_, ?_, ?_⟩
  · show Glyph.char c w :: s'.past = _
    rw [hpast]
    rfl
  · show s'.position + w = s.position + w + d.offset
    omega
  · show (((Glyph.char c w) :: s.past).map Glyph.width).sum = s.position + w
    rw [List.map_cons, List.sum_cons, hread]
    exact Nat.add_comm _ _
  · show rest.length ≤ s.size
    omega
  · show (rest ++ d.post).length ≤ s'.size
    omega

/-- Two scanners that may go on beside each other: neither has met the end, and before the text that
follows the piece a line ends. -/
structure Joint (d : Surroundings) (s s' : Scanner) : Prop where
  beside : d.Beside s s'
  open_ : s.atEnd = false
  open_' : s'.atEnd = false
  closed : d.post = [] ∨ EndsLine s.rest

/-- **A new token starts in both**, once each has the tokens before it. -/
theorem Joint.mark {s s' : Scanner} (h : d.Joint s s') {tokens tokens' : List Token}
    (htokens : tokens'.map Token.word = tokens.map Token.word ++ d.older) :
    d.Joint { s with tokens, start := s.position }
      { s' with tokens := tokens', start := s'.position } := by
  obtain ⟨hb, hopen, hopen', hclosed⟩ := h
  exact ⟨⟨hb.rest, hb.past, hb.position, hb.position, htokens, hb.read, hb.room, hb.room'⟩,
    hopen, hopen', hclosed⟩

theorem Joint.ignore {s s' : Scanner} (h : d.Joint s s') :
    d.Joint { s with start := s.position } { s' with start := s'.position } :=
  h.mark h.beside.tokens

/-- One more token of the text that both have read since the last one. -/
theorem Beside.token {s s' : Scanner} (h : d.Beside s s') (kind : TokenKind)
    (f : List Char → String) :
    (kind, f s'.current) :: s'.tokens.map Token.word
      = (kind, f s.current) :: s.tokens.map Token.word ++ d.older := by
  rw [h.current, h.tokens]
  rfl

/-! ## Characters that were read -/

/-- A scanner after some characters were read, the latest first. -/
inductive Took : List Char → Scanner → Scanner → Prop where
  | nil (s : Scanner) : Took [] s s
  | cons {cs : List Char} {s u t : Scanner} {c : Char} :
      Took cs s u → exec ScanM.next u = (.ok c, t) → Took (c :: cs) s t

/-- Characters after which two scanners may go on as before: not the end, and no end of a line,
which may be the last one of the piece. -/
def Inside (cs : List Char) : Prop :=
  ScanM.endMark ∉ cs ∧ '\n' ∉ cs

theorem inside_nil : Inside [] :=
  ⟨List.not_mem_nil, List.not_mem_nil⟩

theorem Inside.cons {c : Char} {cs : List Char} (h : Inside cs) (hend : c ≠ ScanM.endMark)
    (hline : c ≠ '\n') : Inside (c :: cs) :=
  ⟨fun hmem => (List.mem_cons.mp hmem).elim (fun heq => hend heq.symm) h.1,
    fun hmem => (List.mem_cons.mp hmem).elim (fun heq => hline heq.symm) h.2⟩

theorem Took.atEnd {cs : List Char} {s t : Scanner} (h : Took cs s t) (hs : s.atEnd = false)
    (hend : ScanM.endMark ∉ cs) : t.atEnd = false := by
  induction h with
  | nil s => exact hs
  | cons _ hnext ih =>
      rw [List.mem_cons, not_or] at hend
      have hu := ih hs hend.2
      rcases ScanM.next_ok hnext with ⟨-, hc, -⟩ | ⟨w, rest, -, -, rfl⟩
      · exact absurd hc.symm hend.1
      · exact hu

theorem Took.rest_eq_nil {cs : List Char} {s t : Scanner} (h : Took cs s t)
    (hend : ScanM.endMark ∈ cs) :
    t.rest = [] := by
  induction h with
  | nil s => cases hend
  | @cons cs s u t c _ hnext ih =>
      rcases ScanM.next_ok hnext with ⟨hrest, -, rfl⟩ | ⟨w, rest, hrest, hc, rfl⟩
      · exact hrest
      · rcases List.mem_cons.mp hend with heq | hmem
        · exact absurd heq.symm hc.ne_endMark
        · rw [ih hmem] at hrest
          cases hrest

/-- **After some characters were read** two scanners are still beside each other. A line end still
stands before the text that follows, unless the last one was read. -/
theorem Joint.took {s s' : Scanner} (h : d.Joint s s') {cs : List Char} {t t' : Scanner}
    (ht : Took cs s t) (ht' : Took cs s' t') (hend : ScanM.endMark ∉ cs) :
    d.Beside t t' ∧ t.rest.length + cs.length = s.rest.length ∧
      (d.post = [] ∨ EndsLine t.rest ∨ (t.rest = [] ∧ '\n' ∈ cs)) := by
  induction ht generalizing t' with
  | nil s =>
      cases ht'
      refine ⟨h.beside, rfl, ?_⟩
      rcases h.closed with hpost | hline
      · exact Or.inl hpost
      · exact Or.inr (Or.inl hline)
  | @cons cs s u t c hu hnext ih =>
      obtain _ | ⟨hu', hnext'⟩ := ht'
      rename_i u'
      rw [List.mem_cons, not_or] at hend
      -- neither scanner is at its end, so both read the same glyph last
      obtain ⟨hbeside, hlen, hclosed⟩ := ih h hu' hend.2
      rcases ScanM.next_ok hnext with ⟨-, hc, -⟩ | ⟨w, rest, hrest, -, rfl⟩
      · exact absurd hc.symm hend.1
      · rcases ScanM.next_ok hnext' with ⟨-, hc, -⟩ | ⟨w', rest', hrest', -, rfl⟩
        · exact absurd hc.symm hend.1
        · rw [hbeside.rest, hrest, List.cons_append] at hrest'
          obtain ⟨hg, rfl⟩ := List.cons.inj hrest'
          obtain ⟨-, rfl⟩ := Glyph.char.inj hg
          refine ⟨hbeside.advance hrest, ?_, ?_⟩
          · rw [hrest, List.length_cons] at hlen
            show rest.length + (cs.length + 1) = _
            omega
          · rw [hrest] at hclosed
            rcases hclosed with hpost | hline | ⟨hnil, -⟩
            · exact Or.inl hpost
            · rcases hline.tail with hline | ⟨hnil, rfl⟩
              · exact Or.inr (Or.inl hline)
              · exact Or.inr (Or.inr ⟨hnil, List.mem_cons_self⟩)
            · cases hnil

theorem Joint.inside {s s' : Scanner} (h : d.Joint s s') {cs : List Char} {t t' : Scanner}
    (ht : Took cs s t) (ht' : Took cs s' t') (hcs : Inside cs) :
    d.Joint t t' ∧ t.rest.length + cs.length = s.rest.length := by
  obtain ⟨hbeside, hlen, hclosed⟩ := h.took ht ht' hcs.1
  refine ⟨⟨hbeside, ht.atEnd h.open_ hcs.1, ht'.atEnd h.open_' hcs.1, ?_⟩, hlen⟩
  rcases hclosed with hpost | hline | ⟨-, hmem⟩
  · exact Or.inl hpost
  · exact Or.inr hline
  · exact absurd hmem hcs.2

/-- **The next character** is the same for both. The piece is at its end only if nothing follows. -/
theorem Joint.next {s s' : Scanner} (h : d.Joint s s') {c : Char} {t : Scanner}
    (hnext : exec ScanM.next s = (.ok c, t)) : ∃ t', exec ScanM.next s' = (.ok c, t') := by
  rcases ScanM.next_ok hnext with ⟨hrest, rfl, -⟩ | ⟨w, rest, hrest, hc, -⟩
  · have hpost : d.post = [] := by
      rcases h.closed with hpost | hline
      · exact hpost
      · exact absurd hrest hline.ne_nil
    exact ⟨_, ScanM.exec_next_end (by rw [h.beside.rest, hrest, hpost]; rfl)⟩
  · refine ⟨_, @ScanM.exec_next _ c w (rest ++ d.post) ?_ ⟨hc.proper, hc.plain, ?_⟩⟩
    · rw [h.beside.rest, hrest]
      rfl
    · intro hr
      have hpaired := hc.paired hr
      cases rest with
      | nil => cases hpaired
      | cons g rest => cases g <;> exact hpaired

/-! ## Readers beside each other -/

/-- **A reader and its twin** that start after some characters were read, with fewer than `n` glyphs
of the piece to be read before those: where the first succeeds, the second one does with the same
answer, and the scanners stay beside each other. -/
def After {α : Type} (d : Surroundings) (n : Nat) (cs : List Char) (m m' : ScanM α) : Prop :=
  ∀ ⦃s s' : Scanner⦄, d.Joint s s' → s.rest.length < n → ∀ ⦃t t' : Scanner⦄, Took cs s t →
    Took cs s' t' →
    ∀ ⦃a : α⦄ ⦃u : Scanner⦄, exec m t = (.ok a, u) →
      ∃ u', exec m' t' = (.ok a, u') ∧ d.Joint u u' ∧ u.rest.length ≤ s.rest.length

/-- A reader that does not succeed where nothing is left. -/
def Needy {α : Type} (m : ScanM α) : Prop :=
  ∀ s a t, s.rest = [] → exec m s ≠ (.ok a, t)

namespace After

variable {α β : Type} {n : Nat} {cs : List Char}

theorem pure (a : α) : d.After n [] (Pure.pure a : ScanM α) (Pure.pure a) := by
  intro s s' h _ t t' ht ht' b u hrun
  cases ht
  cases ht'
  obtain ⟨hb, rfl⟩ := Prod.mk.inj hrun
  obtain rfl := Except.ok.inj hb
  exact ⟨s', rfl, h, le_rfl⟩

theorem fails {m m' : ScanM α} (h : ScanM.Fails m) : d.After n cs m m' := by
  intro s s' _ _ t t' _ _ a u hrun
  exact absurd hrun (h t a u)

/-- A second reader starts where the first one stopped. -/
theorem bind {m m' : ScanM α} {f f' : α → ScanM β} (h : d.After n cs m m')
    (hf : ∀ a, d.After n [] (f a) (f' a)) : d.After n cs (m >>= f) (m' >>= f') := by
  intro s s' hs hn t t' ht ht' b v hrun
  obtain ⟨a, u, hm, hfa⟩ := exec_bind_eq_ok.mp hrun
  obtain ⟨u', hm', hu, hle⟩ := h hs hn ht ht' hm
  obtain ⟨v', hfa', hv, hle'⟩ := hf a hu (lt_of_le_of_lt hle hn) (.nil u) (.nil u') hfa
  exact ⟨v', exec_bind_eq_ok.mpr ⟨a, u', hm', hfa'⟩, hv, hle'.trans hle⟩

/-- The characters that were read may be forgotten. If nothing may be left the reader must need
more. -/
theorem forget {k : Nat} {m m' : ScanM α} (h : d.After k [] m m') (hk : n ≤ k + cs.length)
    (hend : ScanM.endMark ∈ cs → Needy m) (hline : '\n' ∈ cs → 0 < k → Needy m) :
    d.After n cs m m' := by
  intro s s' hs hn t t' ht ht' a u hrun
  have hend' : ScanM.endMark ∉ cs := fun hmem => hend hmem t a u (ht.rest_eq_nil hmem) hrun
  obtain ⟨hbeside, hlen, hclosed⟩ := hs.took ht ht' hend'
  have hopen := ht.atEnd hs.open_ hend'
  have hgo : d.post = [] ∨ EndsLine t.rest := by
    rcases hclosed with hpost | hrest | ⟨hnil, hmem⟩
    · exact Or.inl hpost
    · exact Or.inr hrest
    · exact absurd hrun (hline hmem (by omega) t a u hnil)
  obtain ⟨u', hrun', hu, hle⟩ :=
    h ⟨hbeside, hopen, ht'.atEnd hs.open_' hend', hgo⟩ (by omega) (.nil t) (.nil t') hrun
  exact ⟨u', hrun', hu, by omega⟩

theorem inside {k : Nat} {m m' : ScanM α} (h : d.After k [] m m') (hk : n ≤ k + cs.length)
    (hcs : Inside cs) : d.After n cs m m' :=
  h.forget hk (fun hmem => absurd hmem hcs.1) (fun hmem => absurd hmem hcs.2)

theorem mono {k : Nat} {m m' : ScanM α} (h : d.After k cs m m') (hk : n ≤ k) : d.After n cs m m' :=
  fun _ _ hs hn => h hs (lt_of_lt_of_le hn hk)

/-- **Reading one more character.** Inside the piece both read the same one. -/
theorem next_bind {f f' : Char → ScanM α} (hcs : Inside cs)
    (h : ∀ c, d.After n (c :: cs) (f c) (f' c)) :
    d.After n cs (ScanM.next >>= f) (ScanM.next >>= f') := by
  intro s s' hs hn t t' ht ht' a u hrun
  obtain ⟨c, v, hnext, hf⟩ := exec_bind_eq_ok.mp hrun
  obtain ⟨v', hnext'⟩ := (hs.inside ht ht' hcs).1.next hnext
  obtain ⟨u', hf', hu, hle⟩ := h c hs hn (.cons ht hnext) (.cons ht' hnext') hf
  exact ⟨u', exec_bind_eq_ok.mpr ⟨c, v', hnext', hf'⟩, hu, hle⟩

/-- **Taking a character back.** -/
theorem back_bind {c : Char} {f f' : Unit → ScanM α} (hend : ScanM.endMark ∉ cs)
    (h : d.After n cs (f ()) (f' ())) :
    d.After n (c :: cs) (ScanM.back >>= f) (ScanM.back >>= f') := by
  intro s s' hs hn t t' ht ht' a u hrun
  obtain _ | ⟨hv, hnext⟩ := ht
  obtain _ | ⟨hv', hnext'⟩ := ht'
  rw [exec_bind_ok (ScanM.exec_back hnext (hv.atEnd hs.open_ hend))] at hrun
  rw [exec_bind_ok (ScanM.exec_back hnext' (hv'.atEnd hs.open_' hend))]
  exact h hs hn hv hv' hrun

theorem back {c : Char} (hend : ScanM.endMark ∉ cs)
    (h : d.After n cs (Pure.pure ()) (Pure.pure ())) :
    d.After n (c :: cs) ScanM.back ScanM.back := by
  have hback : d.After n (c :: cs) (ScanM.back >>= Pure.pure) (ScanM.back >>= Pure.pure) :=
    back_bind hend h
  rwa [bind_pure] at hback

/-- **Looking at the next character.** -/
theorem peek_bind {f f' : Char → ScanM α} (hcs : Inside cs) (h : ∀ c, d.After n cs (f c) (f' c)) :
    d.After n cs (ScanM.peek >>= f) (ScanM.peek >>= f') := by
  unfold ScanM.peek
  simp only [bind_assoc, pure_bind]
  exact next_bind hcs fun c => back_bind hcs.1 (h c)

/-- **Reading a given character** if it comes next. -/
theorem accept_bind {c : Char} {f f' : Bool → ScanM α} (hcs : Inside cs)
    (htrue : d.After n (c :: cs) (f true) (f' true)) (hfalse : d.After n cs (f false) (f' false)) :
    d.After n cs (ScanM.accept c >>= f) (ScanM.accept c >>= f') := by
  unfold ScanM.accept
  rw [bind_assoc, bind_assoc]
  refine next_bind hcs fun x => ?_
  by_cases hx : x = c
  · subst hx
    simpa using htrue
  · simp only [beq_eq_false_iff_ne.mpr hx, Bool.false_eq_true, if_false, bind_assoc, pure_bind]
    exact back_bind hcs.1 hfalse

theorem acceptBoth_bind {x y : Char} {f f' : Bool → ScanM α} (hcs : Inside cs)
    (hx : Inside (x :: cs)) (hboth : d.After n (y :: x :: cs) (f true) (f' true))
    (hfirst : d.After n (x :: cs) (f false) (f' false))
    (hnone : d.After n cs (f false) (f' false)) :
    d.After n cs (ScanM.acceptBoth x y >>= f) (ScanM.acceptBoth x y >>= f') := by
  unfold ScanM.acceptBoth
  rw [bind_assoc, bind_assoc]
  refine accept_bind hcs ?_ ?_
  · simp only [if_true]
    exact accept_bind hx hboth hfirst
  · simpa using hnone

/-! ## Steps that read nothing -/

/-- A step that changes both scanners and keeps them beside each other. -/
theorem of_step {m m' : ScanM α}
    (h : ∀ {s s' : Scanner}, d.Joint s s' → ∀ {a : α} {u : Scanner}, exec m s = (.ok a, u) →
      ∃ u', exec m' s' = (.ok a, u') ∧ d.Joint u u' ∧ u.rest = s.rest) : d.After n [] m m' := by
  intro s s' hs _ t t' ht ht' a u hrun
  cases ht
  cases ht'
  obtain ⟨u', hrun', hu, hrest⟩ := h hs hrun
  exact ⟨u', hrun', hu, by rw [hrest]⟩

theorem ignore : d.After n [] ScanM.ignore ScanM.ignore := by
  refine of_step fun {s s'} hs a u hrun => ?_
  obtain ⟨-, rfl⟩ := Prod.mk.inj hrun
  exact ⟨_, rfl, hs.ignore, rfl⟩

/-- Ending a token. Both scanners agree on its text. -/
theorem emit (kind : TokenKind) : d.After n [] (ScanM.emit kind) (ScanM.emit kind) := by
  refine of_step fun {s s'} hs a u hrun => ?_
  obtain ⟨-, rfl⟩ := Prod.mk.inj hrun
  exact ⟨_, rfl, hs.mark (hs.beside.token kind String.ofList), rfl⟩

theorem get_bind {f f' : Scanner → ScanM α} (hend : ScanM.endMark ∉ cs)
    (h : ∀ t t', d.Beside t t' → d.After n cs (f t) (f' t')) :
    d.After n cs (get >>= f) (get >>= f') := by
  intro s s' hs hn t t' ht ht' a u hrun
  exact h t t' (hs.took ht ht' hend).1 hs hn ht ht' hrun

/-- **Asking for a bound.** Either one is more than the glyphs that are left of the piece. -/
theorem bound_bind {f f' : Nat → ScanM α} (h : ∀ k fuel fuel', k ≤ fuel → k ≤ fuel' →
    d.After k [] (f fuel) (f' fuel')) : d.After n [] (ScanM.bound >>= f) (ScanM.bound >>= f') := by
  intro s s' hs _ t t' ht ht' a u hrun
  cases ht
  cases ht'
  have hroom := hs.beside.room
  have hroom' := hs.beside.room'
  rw [hs.beside.rest, List.length_append] at hroom'
  rw [exec_bind_ok (ScanM.exec_bound s)] at hrun
  rw [exec_bind_ok (ScanM.exec_bound s')]
  exact h (s.rest.length + 1) _ _ (by omega) (by omega) hs (Nat.lt_succ_self _) (.nil s)
    (.nil s') hrun

theorem zero (m m' : ScanM α) : d.After 0 cs m m' :=
  fun _ _ _ hn => absurd hn (Nat.not_lt_zero _)

end After

end Surroundings

end SymbolAtlas.Toml
