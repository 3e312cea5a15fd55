import SymbolAtlas.Proofs.PiecewiseForms

set_option autoImplicit false

/-! # Reading documents piecewise

A document is read line by line, and between two lines a scanner keeps nothing in mind. `Top`
describes it there. A piece of text is passed over (`Passes`) if reading on from the start of the
piece comes to the same as reading on from its end with the words of the piece, or fails.
`passes_of_scan` says that every text that is a document by itself is passed over like that,
wherever it stands. -/

namespace SymbolAtlas.Toml

open Text

namespace ScanM

/-- Reads the rest of the line of a header or pair, and of the document. -/
def afterItem (fuel : Nat) : ScanM Unit := do
  if ← lineRest (← bound) then document fuel

theorem document_succ (fuel : Nat) : document (fuel + 1) = (do
    let c ← next
    if isSpace c || isLineEnd c then
      ignore
      document fuel
    else if c == '#' then
      comment
      document fuel
    else if c == endMark then return
    else if c == '[' then
      header
      afterItem fuel
    else
      back
      key
      value (4 * (← bound))
      afterItem fuel) := by
  rw [document]
  rfl

end ScanM

open ScanM

/-- A scanner where a new token starts: what is left, and what the tokens say, the latest first. -/
structure Ready (rest : List Glyph) (words : List Word) (s : Scanner) : Prop where
  rest : s.rest = rest
  open_ : s.atEnd = false
  fresh : s.start = s.position
  room : s.rest.length ≤ s.size
  words : s.tokens.map Token.word = words

/-- A scanner between two lines, with a bound that is enough for the rest. -/
structure Top (bound : Nat) (rest : List Glyph) (words : List Word) (s : Scanner) : Prop
    extends Ready rest words s where
  bound : s.rest.length < bound

/-- What comes of reading a document on: whether it fails, and the tokens. -/
def outcome (k : Nat) (s : Scanner) : Except Failure Unit × List Token :=
  ((exec (document k) s).1, (exec (document k) s).2.tokens)

theorem outcome_congr {k k' : Nat} {s t : Scanner}
    (h : exec (document k) s = exec (document k') t) :
    outcome k s = outcome k' t := by
  unfold outcome
  rw [h]

theorem scan_eq_ok {glyphs : List Glyph} {tokens : List Token} : scan glyphs = (tokens, none) ↔
    outcome (glyphs.length + 1) { size := glyphs.length, rest := glyphs }
      = (.ok (), tokens.reverse) := by
  unfold scan outcome exec
  generalize ((document (glyphs.length + 1)).run.run { size := glyphs.length, rest := glyphs }) = r
  obtain ⟨_ | _, s⟩ := r
  · simp
  · simp [List.reverse_eq_iff]

/-- **Passing over a piece** before some text: the document fails, or goes on after the piece, which
gives some words. -/
def Passes (post piece : List Glyph) (words : List Word) : Prop :=
  ∀ ⦃k : Nat⦄ ⦃older : List Word⦄ ⦃s : Scanner⦄, Top k (piece ++ post) older s →
    (∃ e, (outcome k s).1 = .error e) ∨
    ∃ k' t, Top k' post (words.reverse ++ older) t ∧ outcome k s = outcome k' t

theorem Passes.trans {post piece piece' : List Glyph} {words words' : List Word}
    (h : Passes (piece' ++ post) piece words) (h' : Passes post piece' words') :
    Passes post (piece ++ piece') (words ++ words') := by
  intro k older s hs
  rw [List.append_assoc] at hs
  rcases h hs with herror | ⟨k₁, t, ht, hrun⟩
  · exact Or.inl herror
  · rcases h' ht with ⟨e, herror⟩ | ⟨k₂, v, hv, hrun'⟩
    · exact Or.inl ⟨e, hrun ▸ herror⟩
    · refine Or.inr ⟨k₂, v, ?_, hrun.trans hrun'⟩
      rwa [List.reverse_append, List.append_assoc]

theorem Passes.nil (post : List Glyph) : Passes post [] [] :=
  fun k _ s hs => Or.inr ⟨k, s, hs, rfl⟩

theorem Top.end {k : Nat} {words : List Word} {s : Scanner} (h : Top k [] words s) :
    exec (document k) s = (.ok (), { s with atEnd := true }) := by
  obtain ⟨k, rfl⟩ := Nat.exists_eq_add_one.mpr (Nat.zero_lt_of_lt h.bound)
  unfold document
  rw [exec_bind_ok (exec_next_end h.rest)]
  rfl

/-- **A document that is passed over** to its end has the words of its pieces. -/
theorem Passes.scan {glyphs : List Glyph} {words : List Word} (h : Passes [] glyphs words)
    {tokens : List Token} (hscan : scan glyphs = (tokens, none)) :
    tokens.map Token.word = words := by
  have htop : Top (glyphs.length + 1) (glyphs ++ []) [] { size := glyphs.length, rest := glyphs } :=
    ⟨⟨(List.append_nil _).symm, rfl, rfl, le_rfl, rfl⟩, Nat.lt_succ_self _⟩
  rw [scan_eq_ok] at hscan
  rcases h htop with ⟨e, herror⟩ | ⟨k, t, ht, hrun⟩
  · rw [hscan] at herror
    cases herror
  · rw [hscan] at hrun
    have htokens : tokens.reverse = t.tokens := by
      unfold outcome at hrun
      rw [ht.end] at hrun
      exact congrArg Prod.snd hrun
    have hwords := ht.words
    rw [← htokens, List.append_nil, List.map_reverse] at hwords
    exact List.reverse_injective hwords

namespace Surroundings

variable {d : Surroundings}

/-- Two scanners between two lines of a piece, or at its end. -/
structure Paused (d : Surroundings) (s s' : Scanner) : Prop where
  beside : d.Beside s s'
  open_ : s.atEnd = false
  open_' : s'.atEnd = false
  closed : d.post = [] ∨ EndsLine s.rest ∨ s.rest = []
  fresh : s.start = s.position

theorem Paused.joint {s s' : Scanner} (h : d.Paused s s') (hrest : s.rest ≠ []) : d.Joint s s' := by
  refine ⟨h.beside, h.open_, h.open_', ?_⟩
  rcases h.closed with hpost | hline | hnil
  · exact Or.inl hpost
  · exact Or.inr hline
  · exact absurd hnil hrest

/-- A new token starts after a character, which may end the line. -/
theorem Joint.pause {s s' : Scanner} (h : d.Joint s s') {c : Char} {t t' : Scanner}
    (hnext : exec ScanM.next s = (.ok c, t)) (hnext' : exec ScanM.next s' = (.ok c, t'))
    (hc : c ≠ endMark) :
    d.Paused { t with start := t.position } { t' with start := t'.position } ∧
      t.rest.length + 1 = s.rest.length := by
  have hend : endMark ∉ [c] := by simpa using hc.symm
  have ht := (Took.nil s).cons hnext
  have ht' := (Took.nil s').cons hnext'
  obtain ⟨hb, hlen, hclosed⟩ := h.took ht ht' hend
  refine ⟨⟨⟨hb.rest, hb.past, hb.position, hb.position, hb.tokens, hb.read, hb.room, hb.room'⟩,
    ht.atEnd h.open_ hend, ht'.atEnd h.open_' hend, ?_, rfl⟩, hlen⟩
  rcases hclosed with hpost | hline | ⟨hnil, -⟩
  · exact Or.inl hpost
  · exact Or.inr (Or.inl hline)
  · exact Or.inr (Or.inr hnil)

/-- Where the piece is at its end nothing follows. -/
theorem Joint.finish {s s' : Scanner} (h : d.Joint s s') {c : Char} {t t' : Scanner}
    (hnext : exec ScanM.next s = (.ok endMark, t)) (hnext' : exec ScanM.next s' = (.ok c, t')) :
    d.post = [] ∧ d.Beside t t' ∧ t.rest = [] := by
  rcases next_ok hnext with ⟨hrest, -, rfl⟩ | ⟨w, rest, -, hc, -⟩
  · have hpost : d.post = [] := by
      rcases h.closed with hpost | hline
      · exact hpost
      · exact absurd hrest hline.ne_nil
    obtain ⟨hb, -, -, -⟩ := h
    have hrest' : s'.rest = [] := by rw [hb.rest, hrest, hpost]; rfl
    rw [exec_next_end hrest'] at hnext'
    obtain ⟨-, rfl⟩ := Prod.mk.inj hnext'
    exact ⟨hpost,
      ⟨hb.rest, hb.past, hb.position, hb.start, hb.tokens, hb.read, hb.room, hb.room'⟩, hrest⟩
  · exact absurd rfl hc.ne_endMark

theorem exec_comment_ok {s u : Scanner} {a : Unit} (h : exec comment s = (.ok a, u)) :
    u.start = u.position := by
  unfold comment at h
  obtain ⟨_, t₁, -, h⟩ := exec_bind_eq_ok.mp h
  obtain ⟨_, t₂, -, h⟩ := exec_bind_eq_ok.mp h
  obtain ⟨_, t₃, -, h⟩ := exec_bind_eq_ok.mp h
  obtain ⟨-, rfl⟩ := Prod.mk.inj h
  rfl

/-- Both pass over a comment, whose first character has been read. -/
theorem Joint.comment {s s' : Scanner} (h : d.Joint s s') {t t' : Scanner}
    (hnext : exec ScanM.next s = (.ok '#', t)) (hnext' : exec ScanM.next s' = (.ok '#', t'))
    {a : Unit} {u : Scanner} (hrun : exec ScanM.comment t = (.ok a, u)) :
    ∃ u', exec ScanM.comment t' = (.ok a, u') ∧ d.Paused u u' ∧ u.rest.length < s.rest.length := by
  obtain ⟨ht, hlen⟩ := h.inside ((Took.nil s).cons hnext) ((Took.nil s').cons hnext') (by decide)
  obtain ⟨u', hrun', hu, hle⟩ := After.comment ht (Nat.lt_succ_self _) (.nil t) (.nil t') hrun
  rw [List.length_singleton] at hlen
  exact ⟨u', hrun',
    ⟨hu.beside, hu.open_, hu.open_', hu.closed.imp_right Or.inl, exec_comment_ok hrun⟩, by omega⟩

/-- What reading to the end of a line leaves: the document goes on, or it ends here. -/
structure LineRead (d : Surroundings) (goesOn : Bool) (s u u' : Scanner) : Prop where
  on : goesOn = true → d.Paused u u' ∧ u.rest.length < s.rest.length
  off : goesOn = false → d.post = [] ∧ d.Beside u u' ∧ u.rest = []

theorem Joint.lineRest {n fuel fuel' : Nat} {s s' : Scanner} (hs : d.Joint s s')
    (hn : s.rest.length < n) (h : n ≤ fuel) (h' : n ≤ fuel') {b : Bool} {u : Scanner}
    (hrun : exec (ScanM.lineRest fuel) s = (.ok b, u)) :
    ∃ u', exec (ScanM.lineRest fuel') s' = (.ok b, u') ∧ d.LineRead b s u u' := by
  -- both runs meet the same character and take the same branch; only a blank goes round again
  induction n generalizing fuel fuel' s s' with
  | zero => exact absurd hn (Nat.not_lt_zero _)
  | succ n ih =>
      obtain ⟨fuel, rfl⟩ := Nat.exists_eq_add_one_of_ne_zero (show fuel ≠ 0 by omega)
      obtain ⟨fuel', rfl⟩ := Nat.exists_eq_add_one_of_ne_zero (show fuel' ≠ 0 by omega)
      unfold ScanM.lineRest at hrun ⊢
      obtain ⟨c, t, hnext, hrun⟩ := exec_bind_eq_ok.mp hrun
      obtain ⟨t', hnext'⟩ := hs.next hnext
      rw [exec_bind_ok hnext']
      by_cases hcomment : (c == '#') = true
      · rw [if_pos hcomment] at hrun ⊢
        obtain rfl : c = '#' := by simpa using hcomment
        obtain ⟨a, v, hrun, hv⟩ := exec_bind_eq_ok.mp hrun
        obtain ⟨v', hrun', hpaused, hlt⟩ := hs.comment hnext hnext' hrun
        obtain ⟨hb, rfl⟩ := Prod.mk.inj hv
        obtain rfl := Except.ok.inj hb
        exact ⟨v', by rw [exec_bind_ok hrun']; rfl, ⟨fun _ => ⟨hpaused, hlt⟩, fun h => nomatch h⟩⟩
      rw [if_neg hcomment] at hrun ⊢
      by_cases hspace : isSpace c = true
      · rw [if_pos hspace] at hrun ⊢
        obtain ⟨ht, hlen⟩ := hs.inside ((Took.nil s).cons hnext) ((Took.nil s').cons hnext')
          (inside_nil.test hspace rfl rfl)
        rw [List.length_singleton] at hlen
        obtain ⟨u', hrun', hon, hoff⟩ :=
          ih ht (by omega) (Nat.le_of_succ_le_succ h) (Nat.le_of_succ_le_succ h') hrun
        exact ⟨u', hrun', ⟨fun hb => ⟨(hon hb).1, (hon hb).2.trans (by omega)⟩, hoff⟩⟩
      rw [if_neg hspace] at hrun ⊢
      by_cases hline : isLineEnd c = true
      · rw [if_pos hline] at hrun ⊢
        have hc : c ≠ endMark := by
          rintro rfl
          exact absurd hline (by decide)
        obtain ⟨hpaused, hlen⟩ := hs.pause hnext hnext' hc
        obtain ⟨hb, rfl⟩ := Prod.mk.inj hrun
        obtain rfl := Except.ok.inj hb
        exact ⟨_, rfl,
          ⟨fun _ => ⟨hpaused, Nat.lt_of_succ_le (Nat.le_of_eq hlen)⟩, fun h => nomatch h⟩⟩
      rw [if_neg hline] at hrun ⊢
      by_cases hend : (c == endMark) = true
      · rw [if_pos hend] at hrun ⊢
        obtain ⟨hb, rfl⟩ := Prod.mk.inj hrun
        obtain rfl := Except.ok.inj hb
        obtain rfl : c = endMark := by simpa using hend
        exact ⟨t', rfl, ⟨(nomatch ·), fun _ => hs.finish hnext hnext'⟩⟩
      · rw [if_neg hend] at hrun
        exact absurd hrun (fails_fail _ _ _ _)

/-- After the last line the whole goes on as it would from there. -/
theorem Paused.top {s s' : Scanner} (h : d.Paused s s') (hrest : s.rest = []) {k : Nat}
    (hk : d.post.length < k) : Top k d.post (s.tokens.map Token.word ++ d.older) s' := by
  obtain ⟨hb, -, hopen', -, hfresh⟩ := h
  have hpost : s'.rest = d.post := by rw [hb.rest, hrest]; rfl
  refine ⟨⟨hpost, hopen', ?_, hb.room', hb.tokens⟩, by rwa [hpost]⟩
  rw [hb.start, hb.position, hfresh]

/-- What the rest of the line and of the document after an item comes to: the document is read on
from two later places, or it is over. -/
theorem Joint.rest {fuel : Nat} (fuel' : Nat) {s s' : Scanner} (hs : d.Joint s s') {a : Unit}
    {u : Scanner} (hrun : exec (afterItem fuel) s = (.ok a, u)) :
    (∃ v v', d.Paused v v' ∧ v.rest.length < s.rest.length ∧
      exec (ScanM.document fuel) v = (.ok a, u) ∧
      exec (afterItem fuel') s' = exec (ScanM.document fuel') v') ∨
    (d.post = [] ∧ u.rest = [] ∧ ∃ u', d.Beside u u' ∧
      exec (afterItem fuel') s' = (.ok (), u')) := by
  unfold afterItem at hrun ⊢
  rw [exec_bind_ok (exec_bound s)] at hrun
  obtain ⟨b, v, hline, hrun⟩ := exec_bind_eq_ok.mp hrun
  have hroom := hs.beside.room
  have hroom' := hs.beside.room'
  rw [hs.beside.rest, List.length_append] at hroom'
  obtain ⟨v', hline', hon, hoff⟩ :=
    hs.lineRest (Nat.lt_succ_self _) (Nat.succ_le_succ hroom) (show _ ≤ s'.size + 1 by omega) hline
  rw [exec_bind_ok (exec_bound s'), exec_bind_ok hline']
  cases b with
  | true => exact Or.inl ⟨v, v', (hon rfl).1, (hon rfl).2, hrun, rfl⟩
  | false =>
      obtain ⟨-, rfl⟩ := Prod.mk.inj hrun
      obtain ⟨hpost, hb, hrest⟩ := hoff rfl
      exact Or.inr ⟨hpost, hrest, v', hb, rfl⟩

/-- **A key and its value** are read beside each other. -/
theorem Joint.pair {fuel : Nat} (fuel' : Nat) {s s' : Scanner} (hs : d.Joint s s') {a : Unit}
    {u : Scanner} (hrun : exec (do key; value (4 * (← bound)); afterItem fuel) s = (.ok a, u)) :
    ∃ v v', d.Joint v v' ∧ v.rest.length ≤ s.rest.length ∧ exec (afterItem fuel) v = (.ok a, u) ∧
      exec (do key; value (4 * (← bound)); afterItem fuel') s' = exec (afterItem fuel') v' := by
  obtain ⟨_, v, hkey, hrun⟩ := exec_bind_eq_ok.mp hrun
  obtain ⟨v', hkey', hv, hle⟩ := After.key hs (Nat.lt_succ_self _) (.nil s) (.nil s') hkey
  rw [exec_bind_ok (exec_bound v)] at hrun
  obtain ⟨_, w, hvalue, hrun⟩ := exec_bind_eq_ok.mp hrun
  have hroom := hv.beside.room
  have hroom' := hv.beside.room'
  rw [hv.beside.rest, List.length_append] at hroom'
  obtain ⟨w', hvalue', hw, hle'⟩ :=
    (d.nest (v.rest.length + 1)).value _ (4 * (v'.size + 1)) (by omega)
    (by omega) hv (Nat.lt_succ_self _) (.nil v) (.nil v') hvalue
  refine ⟨w, w', hw, hle'.trans hle, hrun, ?_⟩
  rw [exec_bind_ok hkey', exec_bind_ok (exec_bound v'), exec_bind_ok hvalue']

/-- **What one round of reading a document comes to**: the document is read on from two later
places, after a blank, a line end or a comment, or the rest of the line is read after an item. -/
inductive Round (d : Surroundings) (fuel fuel' : Nat) (a : Unit) (u s s' : Scanner) : Prop where
  | later {v v' : Scanner} : d.Paused v v' → v.rest.length < s.rest.length →
      exec (ScanM.document fuel) v = (.ok a, u) →
      exec (ScanM.document (fuel' + 1)) s' = exec (ScanM.document fuel') v' →
        Round d fuel fuel' a u s s'
  | item {v v' : Scanner} : d.Joint v v' → v.rest.length ≤ s.rest.length →
      exec (afterItem fuel) v = (.ok a, u) →
      exec (ScanM.document (fuel' + 1)) s' = exec (afterItem fuel') v' → Round d fuel fuel' a u s s'

theorem Joint.round {fuel : Nat} (fuel' : Nat) {s s' : Scanner} (hs : d.Joint s s')
    (hrest : s.rest ≠ []) {a : Unit} {u : Scanner}
    (hrun : exec (ScanM.document (fuel + 1)) s = (.ok a, u)) :
    d.Round fuel fuel' a u s s' := by
  rw [document_succ] at hrun
  obtain ⟨c, t, hnext, hrun⟩ := exec_bind_eq_ok.mp hrun
  obtain ⟨t', hnext'⟩ := hs.next hnext
  -- both runs meet the same character, and the branches are those of `document_succ`
  by_cases hblank : (isSpace c || isLineEnd c) = true
  · rw [if_pos hblank] at hrun
    have hc : c ≠ endMark := by
      rintro rfl
      exact absurd hblank (by decide)
    obtain ⟨hpaused, hlen⟩ := hs.pause hnext hnext' hc
    refine .later hpaused (Nat.lt_of_succ_le (Nat.le_of_eq hlen)) hrun ?_
    rw [document_succ, exec_bind_ok hnext', if_pos hblank]
    rfl
  rw [if_neg hblank] at hrun
  by_cases hcomment : (c == '#') = true
  · rw [if_pos hcomment] at hrun
    obtain rfl : c = '#' := by simpa using hcomment
    obtain ⟨_, v, hread, hrun⟩ := exec_bind_eq_ok.mp hrun
    obtain ⟨v', hread', hpaused, hlt⟩ := hs.comment hnext hnext' hread
    refine .later hpaused hlt hrun ?_
    rw [document_succ, exec_bind_ok hnext', if_neg hblank, if_pos hcomment, exec_bind_ok hread']
  rw [if_neg hcomment] at hrun
  -- something is left to be read, so this is not the end mark
  have hend : ¬ (c == endMark) = true := by
    intro hend
    obtain rfl : c = endMark := by simpa using hend
    rcases next_ok hnext with ⟨hnil, -, -⟩ | ⟨w, rest, -, hc, -⟩
    · exact hrest hnil
    · exact hc.ne_endMark rfl
  rw [if_neg hend] at hrun
  by_cases hheader : (c == '[') = true
  · rw [if_pos hheader] at hrun
    obtain ⟨_, v, hread, hrun⟩ := exec_bind_eq_ok.mp hrun
    obtain ⟨v', hread', hv, hle⟩ := After.header.within (inside_nil.same hheader (by decide)) hs
      (Nat.lt_succ_self _) ((Took.nil s).cons hnext) ((Took.nil s').cons hnext') hread
    refine .item hv hle hrun ?_
    rw [document_succ, exec_bind_ok hnext', if_neg hblank, if_neg hcomment, if_neg hend,
      if_pos hheader, exec_bind_ok hread']
  · rw [if_neg hheader, exec_bind_ok (exec_back hnext hs.open_)] at hrun
    obtain ⟨v, v', hv, hle, hrun, hpair⟩ := hs.pair fuel' hrun
    refine .item hv hle hrun ?_
    rw [document_succ, exec_bind_ok hnext', if_neg hblank, if_neg hcomment, if_neg hend,
      if_neg hheader, exec_bind_ok (exec_back hnext' hs.open_'), hpair]

/-- A document that is over has nothing left to be read. -/
theorem Beside.top {u u' : Scanner} (h : d.Beside u u') (hpost : d.post = [])
    (hrest : u.rest = []) :
    Top 1 d.post (u.tokens.map Token.word ++ d.older)
      { u' with start := u'.position, atEnd := false } := by
  have hnil : u'.rest = [] := by
    rw [h.rest, hrest, hpost]
    rfl
  refine ⟨⟨hnil.trans hpost.symm, rfl, rfl, h.room', h.tokens⟩, ?_⟩
  show u'.rest.length < 1
  rw [hnil]
  exact Nat.one_pos

/-- **Documents are read beside each other**, line by line, up to the end of the piece. -/
theorem Paused.document {n fuel fuel' : Nat} {s s' : Scanner} (hs : d.Paused s s')
    (hn : s.rest.length < n) (h : n ≤ fuel) (h' : n + d.post.length ≤ fuel') {a : Unit}
    {u : Scanner}
    (hrun : exec (ScanM.document fuel) s = (.ok a, u)) :
    ∃ k t, Top k d.post (u.tokens.map Token.word ++ d.older) t ∧
    outcome fuel' s' = outcome k t := by
  induction n generalizing fuel fuel' s s' with
  | zero => exact absurd hn (Nat.not_lt_zero _)
  | succ n ih =>
      obtain ⟨fuel, rfl⟩ := Nat.exists_eq_add_one_of_ne_zero (show fuel ≠ 0 by omega)
      by_cases hrest : s.rest = []
      · unfold ScanM.document at hrun
        rw [exec_bind_ok (exec_next_end hrest)] at hrun
        obtain ⟨-, rfl⟩ := Prod.mk.inj hrun
        exact ⟨fuel', s', hs.top hrest (by omega), rfl⟩
      obtain ⟨fuel', rfl⟩ := Nat.exists_eq_add_one_of_ne_zero (show fuel' ≠ 0 by omega)
      have hfuel : n + d.post.length ≤ fuel' := by omega
      -- a round ends a line in both texts, or reads one more item of it
      cases (hs.joint hrest).round fuel' hrest hrun with
      | later hv hlt hrun hstep =>
          obtain ⟨k, t, ht, hout⟩ := ih hv (by omega) (Nat.le_of_succ_le_succ h) hfuel hrun
          exact ⟨k, t, ht, (outcome_congr hstep).trans hout⟩
      | item hv hle hrun hstep =>
          rcases hv.rest fuel' hrun with
            ⟨w, w', hw, hlt, hrun, hline⟩ | ⟨hpost, hnil, u', hb, hline⟩
          · obtain ⟨k, t, ht, hout⟩ := ih hw (by omega) (Nat.le_of_succ_le_succ h) hfuel hrun
            exact ⟨k, t, ht, (outcome_congr (hstep.trans hline)).trans hout⟩
          · have htop := hb.top hpost hnil
            refine ⟨1, _, htop, ?_⟩
            unfold outcome
            rw [hpost] at htop
            rw [hstep, hline, htop.end]

end Surroundings

open Surroundings

/-- **A document is passed over** wherever it stands, if it ends its last line or nothing
follows. -/
theorem passes_of_scan {post piece : List Glyph} {tokens : List Token}
    (h : scan piece = (tokens, none)) (hend : post = [] ∨ EndsLine piece ∨ piece = []) :
    Passes post piece (tokens.map Token.word) := by
  intro k older s hs
  right
  rw [scan_eq_ok] at h
  obtain ⟨hresult, htokens⟩ := Prod.mk.inj h
  set u := (exec (document (piece.length + 1)) { size := piece.length, rest := piece }).2 with hu
  have hrun : exec (document (piece.length + 1)) { size := piece.length, rest := piece }
      = (.ok (), u) :=
    Prod.ext hresult rfl
  have hroom := hs.room
  have hbound := hs.bound
  rw [hs.rest, List.length_append] at hbound
  have hpaused : Paused ⟨post, s.position, older⟩ { size := piece.length, rest := piece } s := by
    refine ⟨⟨hs.rest, ⟨s.past, rfl⟩, (Nat.zero_add _).symm, ?_, hs.words, rfl, le_rfl, hroom⟩, rfl,
      hs.open_, hend, rfl⟩
    show s.start = 0 + s.position
    rw [hs.fresh, Nat.zero_add]
  obtain ⟨k', t, ht, hout⟩ := hpaused.document (Nat.lt_succ_self _) le_rfl
    (show piece.length + 1 + post.length ≤ k by omega) hrun
  refine ⟨k', t, ?_, hout⟩
  rwa [htokens, List.map_reverse] at ht

end SymbolAtlas.Toml
