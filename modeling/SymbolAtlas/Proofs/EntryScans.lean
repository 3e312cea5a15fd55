import SymbolAtlas.Proofs.PiecewiseDocuments
import SymbolAtlas.Proofs.Utf8Text

set_option autoImplicit false

/-! # Reading the first lines of an entry

An entry of a manifest starts with a header and the line of its key. The header is a document by
itself. The line of the key is followed character by character: it holds any text in quotes, and
either the text is one that no document may hold, or its token is that text (`passes_keyLine`). -/

namespace SymbolAtlas

namespace Text.Utf8

/-- The glyphs of a text. -/
def spelled (cs : List Char) : List Glyph :=
  cs.map fun c => .char c c.utf8Size

theorem spelled_append (cs ds : List Char) : spelled (cs ++ ds) = spelled cs ++ spelled ds :=
  List.map_append

/-- **The glyphs of the bytes of a text** are its characters, each with its own width. -/
theorem decode_encode (s : String) : decode (encode s) = spelled s.toList := by
  rw [encode_eq_flatMap]
  induction s.toList with
  | nil => rfl
  | cons c cs ih =>
      obtain ⟨a, tail, hbytes, hspells⟩ := encoded_char c
      have hwidth : tail.length + 1 = c.utf8Size := by
        rw [← String.length_utf8EncodeChar, hbytes, List.length_cons]
      rw [List.flatMap_cons, hbytes, List.cons_append]
      unfold decode decodeFrom glyphAt
      rw [hspells.char]
      dsimp only [Glyph.width]
      rw [Nat.add_sub_cancel, decodeFrom_skip, hwidth]
      exact congrArg (Glyph.char c c.utf8Size :: ·) ih

end Text.Utf8

namespace Toml

open Text Utf8 ScanM

/-! ## Reading a given text -/

namespace Scanner

def reading (s : Scanner) : (cs : List Char) → (rest : List Glyph) → Scanner
  | [], _ => s
  | c :: cs, rest => (s.advance c c.utf8Size (spelled cs ++ rest)).reading cs rest

variable {s : Scanner} {cs : List Char} {rest : List Glyph}

theorem reading_rest (h : s.rest = spelled cs ++ rest) : (s.reading cs rest).rest = rest := by
  induction cs generalizing s with
  | nil => exact h
  | cons c cs ih => exact ih rfl

theorem reading_past : (s.reading cs rest).past = (spelled cs).reverse ++ s.past := by
  induction cs generalizing s with
  | nil => rfl
  | cons c cs ih =>
      rw [reading, ih]
      simp [spelled, advance]

theorem reading_position :
    (s.reading cs rest).position = s.position + ((spelled cs).reverse.map Glyph.width).sum := by
  induction cs generalizing s with
  | nil => rfl
  | cons c cs ih =>
      rw [reading, ih]
      simp [spelled, advance, Glyph.width]
      omega

@[simp] theorem reading_start : (s.reading cs rest).start = s.start := by
  induction cs generalizing s with
  | nil => rfl
  | cons c cs ih => exact ih

@[simp] theorem reading_size : (s.reading cs rest).size = s.size := by
  induction cs generalizing s with
  | nil => rfl
  | cons c cs ih => exact ih

@[simp] theorem reading_atEnd : (s.reading cs rest).atEnd = s.atEnd := by
  induction cs generalizing s with
  | nil => rfl
  | cons c cs ih => exact ih

@[simp] theorem reading_tokens : (s.reading cs rest).tokens = s.tokens := by
  induction cs generalizing s with
  | nil => rfl
  | cons c cs ih => exact ih

/-- Glyphs that take bytes make up a text of their own. -/
theorem textBack_sum (gs past : List Glyph) (hgs : ∀ g ∈ gs, 0 < g.width) (text : List Char) :
    textBack (gs.map Glyph.width).sum (gs ++ past) text = (gs.map Glyph.toChar).reverse
      ++ text := by
  induction gs generalizing text with
  | nil => cases past <;> rfl
  | cons g gs ih =>
      have hg := hgs g List.mem_cons_self
      obtain ⟨w, hw⟩ := Nat.exists_eq_add_one_of_ne_zero (Nat.ne_of_gt hg)
      have hsum : ((g :: gs).map Glyph.width).sum = (w + (gs.map Glyph.width).sum) + 1 := by
        rw [List.map_cons, List.sum_cons, hw]
        omega
      have hsub : w + (gs.map Glyph.width).sum + 1 - g.width = (gs.map Glyph.width).sum := by omega
      rw [hsum]
      show textBack (w + (gs.map Glyph.width).sum + 1 - g.width) (gs ++ past) (g.toChar :: text) = _
      rw [hsub, ih fun g hmem => hgs g (List.mem_cons_of_mem _ hmem)]
      simp

/-- **The current token** of a scanner that has read a text since it started the token is that
text. -/
theorem current_reading (hfresh : s.start = s.position) : (s.reading cs rest).current = cs := by
  have hwidth : ∀ g ∈ (spelled cs).reverse, 0 < g.width := by
    intro g hg
    obtain ⟨c, -, rfl⟩ := List.mem_map.mp (List.mem_reverse.mp hg)
    exact c.utf8Size_pos
  unfold current
  rw [reading_position, reading_past, reading_start, hfresh, Nat.add_sub_cancel_left,
    textBack_sum _ _ hwidth]
  simp [spelled, Function.comp_def, Glyph.toChar]

end Scanner

/-- A character that a document may hold anywhere. -/
structure Plain (c : Char) : Prop where
  proper : c ≠ Char.ofNat 0xFFFD
  plain : isControl c = false
  unpaired : c ≠ '\r'

instance (c : Char) : Decidable (Plain c) :=
  decidable_of_iff (c ≠ Char.ofNat 0xFFFD ∧ isControl c = false ∧ c ≠ '\r')
    ⟨fun h => ⟨h.1, h.2.1, h.2.2⟩, fun h => ⟨h.1, h.2, h.3⟩⟩

theorem Plain.readable {c : Char} (h : Plain c) (rest : List Glyph) : Readable c rest :=
  ⟨h.proper, h.plain, fun hr => absurd hr h.unpaired⟩

variable {s : Scanner} {cs : List Char} {rest : List Glyph} {words : List Word}

/-- Reading all of a text, up to a character that no longer passes. -/
theorem exec_readWhile {p : Char → Bool} {x : Char} {w fuel : Nat}
    (hrest : s.rest = spelled cs ++ .char x w :: rest) (hopen : s.atEnd = false)
    (hcs : ∀ c ∈ cs, p c = true ∧ Plain c) (hx : p x = false) (hx' : Readable x rest)
    (hfuel : cs.length < fuel) :
    exec (readWhile p fuel) s = (.ok (), s.reading cs (.char x w :: rest)) := by
  induction cs generalizing s fuel with
  | nil =>
      obtain ⟨fuel, rfl⟩ := Nat.exists_eq_add_one.mpr hfuel
      have hnext := exec_next hrest hx'
      unfold readWhile
      rw [exec_bind_ok hnext, if_neg (by simp [hx]), exec_back hnext hopen]
      rfl
  | cons c cs ih =>
      obtain ⟨fuel, rfl⟩ := Nat.exists_eq_add_one.mpr (Nat.zero_lt_of_lt hfuel)
      obtain ⟨hp, hc⟩ := hcs c List.mem_cons_self
      unfold readWhile
      rw [exec_bind_ok (exec_next hrest (hc.readable _)), if_pos hp]
      exact ih rfl hopen (fun c hmem => hcs c (List.mem_cons_of_mem _ hmem))
        (Nat.lt_of_succ_lt_succ hfuel)

namespace Ready

theorem drop (cs : List Char) (h : Ready (spelled cs ++ rest) words s) :
    Ready rest words { s.reading cs rest with start := (s.reading cs rest).position } := by
  have hrest := Scanner.reading_rest h.rest
  have hroom := h.room
  rw [h.rest, List.length_append] at hroom
  refine ⟨hrest, by simp [h.open_], rfl, ?_, by simp [h.words]⟩
  show (s.reading cs rest).rest.length ≤ (s.reading cs rest).size
  rw [hrest, Scanner.reading_size]
  omega

theorem token (cs : List Char) (h : Ready (spelled cs ++ rest) words s) (kind : TokenKind) :
    Ready rest ((kind, String.ofList cs) :: words) (exec (emit kind) (s.reading cs rest)).2 := by
  obtain ⟨hrest, hopen, -, hroom, hwords⟩ := h.drop cs
  refine ⟨hrest, hopen, rfl, hroom, ?_⟩
  show (kind, String.ofList (s.reading cs rest).current) ::
    (s.reading cs rest).tokens.map Token.word = _
  rw [Scanner.current_reading h.fresh]
  exact congrArg _ hwords

theorem exec_next {c : Char} (h : Ready (spelled [c] ++ rest) words s) (hc : Plain c) :
    exec next s = (.ok c, s.reading [c] rest) :=
  ScanM.exec_next h.rest (hc.readable rest)

theorem exec_peek {c : Char} {w : Nat} (h : Ready (.char c w :: rest) words s)
    (hc : Readable c rest) :
    exec peek s = (.ok c, s) := by
  have hnext := ScanM.exec_next h.rest hc
  unfold peek
  rw [exec_bind_ok hnext, exec_bind_ok (exec_back hnext h.open_)]
  rfl

theorem skipSpaces (cs : List Char) {x : Char} {w : Nat}
    (h : Ready (spelled cs ++ .char x w :: rest) words s)
    (hcs : ∀ c ∈ cs, isSpace c = true ∧ Plain c) (hx : isSpace x = false) (hx' : Readable x rest) :
    ∃ t, exec skipSpaces s = (.ok (), t) ∧ Ready (.char x w :: rest) words t := by
  have hroom := h.room
  rw [h.rest, List.length_append, spelled, List.length_map] at hroom
  refine ⟨_, ?_, h.drop cs⟩
  unfold ScanM.skipSpaces
  rw [exec_bind_ok (exec_bound s),
    exec_bind_ok (exec_readWhile h.rest h.open_ hcs hx hx' (by omega))]
  rfl

theorem keyPart (c : Char) (cs : List Char) {x : Char} {w : Nat}
    (h : Ready (spelled (c :: cs) ++ .char x w :: rest) words s)
    (hc : (c == '"' || c == '\'') = false) (hcs : ∀ d ∈ c :: cs, isBareChar d = true ∧ Plain d)
    (hx : isBareChar x = false) (hx' : Readable x rest) :
    ∃ t, exec keyPart s = (.ok (), t) ∧
      Ready (.char x w :: rest) ((.bare, String.ofList (c :: cs)) :: words) t := by
  have hroom := h.room
  rw [h.rest, List.length_append, spelled, List.length_map] at hroom
  refine ⟨_, ?_, h.token (c :: cs) .bare⟩
  unfold ScanM.keyPart
  rw [exec_bind_ok (exec_peek h ((hcs c List.mem_cons_self).2.readable _)), if_neg (by simp [hc])]
  unfold finishWith
  rw [exec_bind_ok (exec_bound s),
    exec_bind_ok (exec_readWhile h.rest h.open_ hcs hx hx' (by omega))]
  rfl

end Ready

/-- The glyphs of the name of the key's field, with the sign that divides it from its value. -/
def keyName : List Glyph :=
  spelled ['k', 'e', 'y', ' ', '=']

theorem exec_keyParts (fuel : Nat) (h : Ready (keyName ++ rest) words s) :
    ∃ t, exec (keyParts (fuel + 1)) s = (.ok (), t) ∧
      Ready rest ((.keyEnd, "=") :: (.bare, "key") :: words) t := by
  obtain ⟨t₁, hrun₁, h₁⟩ := Ready.skipSpaces [] h (by simp) rfl (Plain.readable (by decide) _)
  have hpeek := h₁.exec_peek (Plain.readable (by decide) _)
  have hletters : ∀ c ∈ ['k', 'e', 'y'], isBareChar c = true ∧ Plain c := by
    intro c hc
    simp only [List.mem_cons, List.not_mem_nil, or_false] at hc
    rcases hc with rfl | rfl | rfl
    all_goals decide
  -- the name of the key, the blank behind it, and the equals sign
  obtain ⟨t₂, hrun₂, h₂⟩ :=
    Ready.keyPart 'k' ['e', 'y'] h₁ rfl hletters rfl (Plain.readable (by decide) _)
  obtain ⟨t₃, hrun₃, h₃⟩ :=
    Ready.skipSpaces [' '] h₂ (List.forall_mem_singleton.mpr (by decide)) rfl
    (Plain.readable (by decide) _)
  have hnext := Ready.exec_next (c := '=') h₃ (by decide)
  refine ⟨_, ?_, Ready.drop [] (Ready.token ['='] h₃ .keyEnd)⟩
  unfold keyParts
  dsimp only
  rw [exec_bind_ok hrun₁, exec_bind_ok hpeek, if_neg (by decide), if_neg (by decide),
    exec_bind_ok hrun₂, exec_bind_ok hrun₃, exec_bind_ok hnext, if_neg (by decide),
    if_neg (by decide), if_pos (by decide)]
  rfl

theorem exec_key (h : Ready (keyName ++ rest) words s) : ∃ t, exec key s = (.ok (), t) ∧
    Ready rest ((.keyEnd, "=") :: (.bare, "key") :: (.keyStart, "") :: words) t := by
  obtain ⟨t, hrun, ht⟩ := Ready.skipSpaces [] h (by simp) rfl (Plain.readable (by decide) _)
  have hpeek := ht.exec_peek (Plain.readable (by decide) _)
  obtain ⟨u, hparts, hu⟩ := exec_keyParts t.size (Ready.token [] ht .keyStart)
  refine ⟨u, ?_, hu⟩
  unfold key
  dsimp only
  rw [exec_bind_ok hrun, exec_bind_ok hpeek, if_neg (by decide), if_neg (by decide)]
  exact hparts

/-! ## A text in quotes -/

/-- A character that stands for itself between quotes, if a document may hold it. -/
structure Quotable (c : Char) : Prop where
  quote : c ≠ '"'
  backslash : c ≠ '\\'
  newline : c ≠ '\n'

instance (c : Char) : Decidable (Quotable c) :=
  decidable_of_iff (c ≠ '"' ∧ c ≠ '\\' ∧ c ≠ '\n') ⟨fun h => ⟨h.1, h.2.1, h.2.2⟩, fun h =>
    ⟨h.1, h.2, h.3⟩⟩

/-- A scanner that has ended a token before a quote and read the quote. -/
def Scanner.unquoted (s : Scanner) (rest : List Glyph) : Scanner :=
  { s.reading ['"'] rest with
    tokens := ⟨.string, String.ofList s.current, s.place⟩ :: s.tokens
    start := (s.reading ['"'] rest).position }

theorem Ready.unquoted (h : Ready (spelled cs ++ (spelled ['"'] ++ rest)) words s) :
    Ready rest ((.string, String.ofList cs) :: words)
      ((s.reading cs (spelled ['"'] ++ rest)).unquoted rest) :=
  Ready.drop ['"'] (h.token cs .string)

theorem next_cases (s : Scanner) :
    (∃ e u, exec next s = (.error e, u)) ∨ ∃ c t, exec next s = (.ok c, t) := by
  rcases h : exec next s with ⟨e | c, t⟩
  · exact Or.inl ⟨e, t, rfl⟩
  · exact Or.inr ⟨c, t, rfl⟩

/-- **A text up to a quote** is a token, unless a document may not hold it. -/
theorem exec_lineString (expected : String) {fuel : Nat}
    (hrest : s.rest = spelled cs ++ (spelled ['"'] ++ rest)) (hopen : s.atEnd = false)
    (hcs : ∀ c ∈ cs, Quotable c) (hfuel : cs.length < fuel) :
    (∃ e u, exec (lineString '"' expected .string fuel) s = (.error e, u)) ∨
    exec (lineString '"' expected .string fuel) s
      = (.ok (), (s.reading cs (spelled ['"'] ++ rest)).unquoted rest) := by
  induction cs generalizing s fuel with
  | nil =>
      obtain ⟨fuel, rfl⟩ := Nat.exists_eq_add_one.mpr hfuel
      have hnext := ScanM.exec_next (c := '"') hrest (Plain.readable (by decide) _)
      right
      unfold lineString
      dsimp only
      rw [exec_bind_ok hnext, if_neg (by decide), if_neg (by decide), if_pos (by decide)]
      exact ((Surroundings.Took.nil s).cons hnext).exec_closeString hopen (by decide) .string
  | cons c cs ih =>
      obtain ⟨fuel, rfl⟩ := Nat.exists_eq_add_one.mpr (Nat.zero_lt_of_lt hfuel)
      have hc := hcs c List.mem_cons_self
      unfold lineString
      dsimp only
      rcases next_cases s with ⟨e, u, herror⟩ | ⟨d, t, hnext⟩
      · exact Or.inl ⟨e, u, exec_bind_error herror _⟩
      rw [exec_bind_ok hnext]
      -- the character that was read is the next one of the text
      rcases next_ok hnext with ⟨hnil, -⟩ | ⟨w, rest', hrest', hd, rfl⟩
      · rw [hrest] at hnil
        cases hnil
      rw [hrest] at hrest'
      obtain ⟨hg, rfl⟩ := List.cons.inj hrest'
      obtain ⟨rfl, rfl⟩ := Glyph.char.inj hg
      rw [if_neg (by simpa using hd.ne_endMark)]
      by_cases hline : isLineEnd c = true
      · -- a line end within the quotes is refused
        rw [if_pos hline]
        exact Or.inl ⟨_, _, rfl⟩
      · rw [if_neg hline, if_neg (by simpa using hc.quote), if_neg (by simpa using hc.backslash)]
        exact ih rfl hopen (fun c hmem => hcs c (List.mem_cons_of_mem _ hmem))
          (Nat.lt_of_succ_lt_succ hfuel)

theorem exec_accept {c : Char} {t : Scanner} (h : exec next s = (.ok c, t)) :
    exec (accept c) s = (.ok true, t) := by
  unfold accept
  rw [exec_bind_ok h, if_pos (beq_self_eq_true c)]
  rfl

theorem exec_accept_ne {c d : Char} {t : Scanner} (h : exec next s = (.ok d, t))
    (hopen : s.atEnd = false) (hne : d ≠ c) : exec (accept c) s = (.ok false, s) := by
  unfold accept
  rw [exec_bind_ok h, if_neg (by simpa using hne), exec_bind_ok (exec_back h hopen)]
  rfl

/-- The line ends here, or the document does. -/
inductive LineOver : List Glyph → Prop where
  | stop : LineOver []
  | newline (rest : List Glyph) : LineOver (spelled ['\n'] ++ rest)

theorem LineOver.next (h : LineOver rest) (hrest : s.rest = rest) :
    ∃ c t, exec next s = (.ok c, t) ∧ c ≠ '"' := by
  cases h with
  | stop => exact ⟨_, _, exec_next_end hrest, by decide⟩
  | newline rest => exact ⟨_, _, ScanM.exec_next hrest (Plain.readable (by decide) _), by decide⟩

theorem Ready.string (h : Ready (spelled cs ++ (spelled ['"'] ++ rest)) words s)
    (hcs : ∀ c ∈ cs, Quotable c) : (∃ e u, exec (string '"') s = (.error e, u)) ∨
    ∃ t, exec (string '"') s = (.ok (), t) ∧
    Ready rest ((.string, String.ofList cs) :: words) t := by
  have hroom := h.room
  rw [h.rest, List.length_append, spelled, List.length_map] at hroom
  unfold ScanM.string
  rw [exec_bind_ok (exec_bound s), if_pos (by decide)]
  rcases exec_lineString _ h.rest h.open_ hcs (show cs.length < s.size + 1 by omega)
    with herror | hrun
  · exact Or.inl herror
  · exact Or.inr ⟨_, hrun, h.unquoted⟩

/-- **A text in quotes**, the first of which has been read. Quotes are not mistaken for those of a
string over several lines, even if there is nothing between them. -/
theorem Ready.anyString
    (h : Ready (spelled ['"'] ++ (spelled cs ++ (spelled ['"'] ++ rest))) words s)
    (hcs : ∀ c ∈ cs, Quotable c) (hover : LineOver rest) :
    (∃ e u, exec (anyString '"') (s.reading ['"'] (spelled cs ++ (spelled ['"'] ++ rest)))
      = (.error e, u)) ∨
    ∃ t, exec (anyString '"') (s.reading ['"'] (spelled cs ++ (spelled ['"'] ++ rest)))
      = (.ok (), t) ∧
      Ready rest ((.string, String.ofList cs) :: words) t := by
  have hstring := h.drop.string hcs
  set v := s.reading ['"'] (spelled cs ++ (spelled ['"'] ++ rest)) with hv
  have hrest : v.rest = spelled cs ++ (spelled ['"'] ++ rest) := rfl
  have hopen : v.atEnd = false := h.open_
  unfold ScanM.anyString
  dsimp only
  cases cs with
  | nil =>
      -- the second quote is followed by no third one, so it is given back and closes an empty text
      have hnext : exec next v = (.ok '"', v.advance '"' 1 rest) :=
        ScanM.exec_next hrest (Plain.readable (by decide) _)
      obtain ⟨c, t, hnext', hc⟩ := hover.next (s := v.advance '"' 1 rest) rfl
      rw [exec_bind_ok (exec_accept hnext), if_pos rfl,
        exec_bind_ok (exec_accept_ne hnext' hopen hc), if_neg (by decide),
        exec_bind_ok (exec_back hnext hopen)]
      exact hstring
  | cons c cs =>
      rcases next_cases v with ⟨e, u, herror⟩ | ⟨d, t, hnext⟩
      · left
        refine ⟨e, u, exec_bind_error ?_ _⟩
        exact exec_bind_error herror _
      · -- a text without quotes does not start with one
        have hd : d ≠ '"' := by
          rcases next_ok hnext with ⟨hnil, -⟩ | ⟨w, rest', hrest', -, -⟩
          · rw [hrest] at hnil
            cases hnil
          · rw [hrest] at hrest'
            obtain ⟨rfl, -⟩ := Glyph.char.inj (List.cons.inj hrest').1
            exact (hcs c List.mem_cons_self).quote
        rw [exec_bind_ok (exec_accept_ne hnext hopen hd), if_neg (by decide)]
        exact hstring

theorem LineOver.lineRest (hover : LineOver rest) (h : Ready rest words s) (fuel : Nat) :
    (rest = [] ∧ exec (lineRest (fuel + 1)) s = (.ok false, { s with atEnd := true })) ∨
    ∃ rest' t, rest = spelled ['\n'] ++ rest' ∧ exec (lineRest (fuel + 1)) s = (.ok true, t) ∧
      Ready rest' words t := by
  unfold ScanM.lineRest
  cases hover with
  | stop =>
      left
      rw [exec_bind_ok (exec_next_end h.rest)]
      exact ⟨rfl, rfl⟩
  | newline rest =>
      right
      have hnext := h.exec_next (c := '\n') (by decide)
      refine ⟨rest, _, rfl, ?_, Ready.drop ['\n'] h⟩
      rw [exec_bind_ok hnext]
      rfl

/-- A blank and a text in quotes are read as the value of a field. -/
theorem Ready.value
    (h : Ready (spelled [' ', '"'] ++ (spelled cs ++ (spelled ['"'] ++ rest))) words s)
    (hcs : ∀ c ∈ cs, Quotable c) (hover : LineOver rest) (fuel : Nat) :
    (∃ e u, exec (value (fuel + 2)) s = (.error e, u)) ∨
    ∃ t, exec (value (fuel + 2)) s = (.ok (), t) ∧
    Ready rest ((.string, String.ofList cs) :: words) t := by
  have hblank := Ready.exec_next (c := ' ') h (by decide)
  have hopened := Ready.drop [' '] h
  have hquote := Ready.exec_next (c := '"') hopened (by decide)
  have hstring := Ready.anyString hopened hcs hover
  unfold ScanM.value
  rw [exec_bind_ok hblank, if_pos (by decide), exec_bind_ok (exec_ignore _)]
  unfold ScanM.value
  rw [exec_bind_ok hquote]
  exact hstring

/-- The glyphs of the line of a key, after the name of the field. -/
def quotedKey (cs : List Char) : List Glyph :=
  spelled [' ', '"'] ++ (spelled cs ++ spelled ['"'])

/-- What the tokens of the line of a key say. -/
def keyWords (key : String) : List Word :=
  [(.keyStart, ""), (.bare, "key"), (.keyEnd, "="), (.string, key)]

/-- **The line of a key** is passed over, and the key is a token. -/
theorem passes_keyLine {post ending : List Glyph} (hcs : ∀ c ∈ cs, Quotable c)
    (hending : ending = spelled ['\n'] ∨ (ending = [] ∧ post = [])) :
    Passes post (keyName ++ (quotedKey cs ++ ending)) (keyWords (String.ofList cs)) := by
  intro k older s hs
  have hover : LineOver (ending ++ post) := by
    rcases hending with rfl | ⟨rfl, rfl⟩
    · exact .newline post
    · exact .stop
  obtain ⟨k, rfl⟩ := Nat.exists_eq_add_one.mpr (Nat.zero_lt_of_lt hs.bound)
  have hready :
      Ready (keyName ++ (spelled [' ', '"'] ++ (spelled cs ++ (spelled ['"'] ++ (ending ++ post)))))
      older s := by
    have h := hs.toReady
    simpa only [quotedKey, List.append_assoc] using h
  have hnext := Ready.exec_next (c := 'k') hready (by decide)
  obtain ⟨t₁, hkey, h₁⟩ := exec_key hready
  have hfuel : 4 * (t₁.size + 1) = 4 * t₁.size + 2 + 2 := by omega
  -- the round reads the key and is left with the value and the end of the line
  have hitem : exec (document (k + 1)) s
      = exec (do value (4 * t₁.size + 2 + 2); afterItem k) t₁ := by
    rw [← hfuel, document_succ, exec_bind_ok hnext, if_neg (by decide), if_neg (by decide),
      if_neg (by decide), if_neg (by decide), exec_bind_ok (exec_back hnext hready.open_),
      exec_bind_ok hkey,
      exec_bind_ok (exec_bound t₁)]
  -- the value may be refused, and then the document is
  rcases h₁.value hcs hover (4 * t₁.size + 2) with ⟨e, u, herror⟩ | ⟨t₂, hvalue, h₂⟩
  · left
    refine ⟨e, ?_⟩
    unfold outcome
    rw [hitem, exec_bind_error herror]
  right
  rw [exec_bind_ok hvalue] at hitem
  unfold afterItem at hitem
  rw [exec_bind_ok (exec_bound t₂)] at hitem
  rcases hover.lineRest h₂ t₂.size with ⟨hnil, hrun⟩ | ⟨rest', t₃, hrest', hrun, h₃⟩
  · -- the document is over
    rw [exec_bind_ok hrun] at hitem
    rw [hnil] at h₂
    obtain ⟨-, rfl⟩ := List.append_eq_nil_iff.mp hnil
    have htop : Top 1 [] _ t₂ := ⟨h₂, by rw [h₂.rest]; exact Nat.one_pos⟩
    refine ⟨1, t₂, htop, ?_⟩
    unfold outcome
    rw [hitem, htop.end]
    rfl
  · rw [exec_bind_ok hrun] at hitem
    have hpost : rest' = post := by
      rcases hending with rfl | ⟨rfl, rfl⟩
      · exact (List.append_cancel_left hrest').symm
      · cases hrest'
    subst hpost
    have hlen := hs.bound
    rw [hready.rest, hrest'] at hlen
    simp only [keyName, List.length_append, spelled, List.length_map, List.length_cons,
      List.length_nil] at hlen
    exact ⟨k, t₃, ⟨h₃, by rw [h₃.rest]; omega⟩, outcome_congr hitem⟩

/-! ## The lines of an entry -/

def headerLine : List Glyph :=
  spelled ['[', '[', 's', 'y', 'm', 'b', 'o', 'l', ']', ']', '\n']

/-- What the tokens of a header say. -/
def headerWords : List Word :=
  [(.tableItemStart, "[["), (.bare, "symbol"), (.tableItemEnd, "]]")]

theorem scan_headerLine :
    (scan headerLine).1.map Token.word = headerWords ∧ (scan headerLine).2 = none := by
  decide +kernel

/-- **A header** is passed over wherever it stands. -/
theorem passes_headerLine (post : List Glyph) : Passes post headerLine headerWords := by
  obtain ⟨hwords, hnone⟩ := scan_headerLine
  rcases h : scan headerLine with ⟨tokens, failure⟩
  rw [h] at hwords hnone
  dsimp only at hwords hnone
  subst hnone
  exact hwords ▸ passes_of_scan h (Or.inr (Or.inl ⟨1, by decide⟩))

end Toml

end SymbolAtlas
