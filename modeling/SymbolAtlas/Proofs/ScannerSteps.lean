import SymbolAtlas.Proofs.Execution
import SymbolAtlas.Toml.Scanner

set_option autoImplicit false

/-! # Steps of a scanner

What reading a character, taking it back and the small readers made of the two do to a scanner.
`next_ok` says all that reading a character can do: at the end it leaves a mark, and otherwise it
moves one glyph from the rest to the past. Every later statement about a reader rests on it. -/

namespace SymbolAtlas

theorem exec_bind_eq_ok {ε σ α β : Type} {x : ExceptT ε (StateM σ) α}
    {f : α → ExceptT ε (StateM σ) β} {s u : σ} {b : β} :
    exec (x >>= f) s = (.ok b, u) ↔ ∃ a t, exec x s = (.ok a, t) ∧ exec (f a) t = (.ok b, u) := by
  rw [exec_bind]
  rcases exec x s with ⟨_ | a, t⟩
  · simp
  · simp

namespace Toml

open Text

namespace Scanner

def advance (s : Scanner) (c : Char) (w : Nat) (rest : List Glyph) : Scanner :=
  { s with
    rest
    past := .char c w :: s.past
    position := s.position + w
    line := if c == '\n' then s.line + 1 else s.line }

end Scanner

namespace ScanM

/-- A character that a document may hold before the given rest. -/
structure Readable (c : Char) (rest : List Glyph) : Prop where
  proper : c ≠ Char.ofNat 0xFFFD
  plain : isControl c = false
  paired : c = '\r' → newlineFollows rest = true

theorem Readable.ne_endMark {c : Char} {rest : List Glyph} (h : Readable c rest) : c ≠ endMark := by
  rintro rfl
  exact absurd h.plain (by decide)

theorem exec_next_end {s : Scanner} (h : s.rest = []) :
    exec next s = (.ok endMark, { s with atEnd := true }) := by
  unfold next
  rw [exec_bind_ok (exec_get s), h]
  rfl

theorem exec_next {s : Scanner} {c : Char} {w : Nat} {rest : List Glyph}
    (h : s.rest = .char c w :: rest) (hc : Readable c rest) :
    exec next s = (.ok c, s.advance c w rest) := by
  have hproper : (c == Char.ofNat 0xFFFD) = false := by simpa using hc.proper
  have hplain : (isControl c || (c == '\r' && !newlineFollows rest)) = false := by
    rw [hc.plain, Bool.false_or, Bool.and_eq_false_iff]
    by_cases hr : c = '\r'
    · exact Or.inr (by rw [hc.paired hr]; rfl)
    · exact Or.inl (by simpa using hr)
  unfold next
  rw [exec_bind_ok (exec_get s), h]
  dsimp only
  rw [hproper, hplain]
  rfl

/-- **What reading a character can do.** -/
theorem next_ok {s t : Scanner} {c : Char} (h : exec next s = (.ok c, t)) :
    (s.rest = [] ∧ c = endMark ∧ t = { s with atEnd := true }) ∨
    ∃ w rest, s.rest = .char c w :: rest ∧ Readable c rest ∧ t = s.advance c w rest := by
  cases hrest : s.rest with
  | nil =>
      rw [exec_next_end hrest] at h
      obtain ⟨hc, ht⟩ := Prod.mk.inj h
      exact Or.inl ⟨rfl, (Except.ok.inj hc).symm, by rw [← ht, hrest]⟩
  | cons g rest =>
      right
      -- a stray byte, a replacement character and a control are refused; what is left is read
      unfold next at h
      rw [exec_bind_ok (exec_get s), hrest] at h
      cases g with
      | stray b => cases congrArg Prod.fst h
      | char d w =>
          dsimp only at h
          by_cases hproper : (d == Char.ofNat 0xFFFD) = true
          · rw [if_pos hproper] at h
            cases congrArg Prod.fst h
          · rw [if_neg hproper] at h
            by_cases hplain : (isControl d || (d == '\r' && !newlineFollows rest)) = true
            · rw [if_pos hplain] at h
              cases congrArg Prod.fst h
            · rw [if_neg hplain] at h
              obtain ⟨hc, ht⟩ := Prod.mk.inj h
              obtain rfl := Except.ok.inj hc
              rw [Bool.or_eq_true, not_or, Bool.and_eq_true, not_and] at hplain
              refine ⟨w, rest, rfl, ⟨by simpa using hproper, by simpa using hplain.1, ?_⟩, ht.symm⟩
              intro hr
              simpa using hplain.2 (by simpa using hr)

theorem exec_next_marked {s t : Scanner} {c : Char} (h : exec next s = (.ok c, t))
    (tokens : List Token) (start : Nat) :
    exec next { s with tokens, start } = (.ok c, { t with tokens, start }) := by
  rcases next_ok h with ⟨hrest, rfl, rfl⟩ | ⟨w, rest, hrest, hc, rfl⟩
  · exact exec_next_end hrest
  · exact exec_next hrest hc

/-- A character that was read can be taken back. -/
theorem exec_back {s t : Scanner} {c : Char} (h : exec next s = (.ok c, t)) (hs : s.atEnd = false) :
    exec back t = (.ok (), s) := by
  rcases next_ok h with ⟨-, -, rfl⟩ | ⟨w, rest, hrest, -, rfl⟩
  · obtain ⟨size, rest, past, position, start, line, atEnd, tokens⟩ := s
    obtain rfl : atEnd = false := hs
    rfl
  · obtain ⟨size, rest', past, position, start, line, atEnd, tokens⟩ := s
    obtain rfl : atEnd = false := hs
    obtain rfl : rest' = .char c w :: rest := hrest
    unfold back
    rw [exec_bind_ok (exec_get _)]
    dsimp only [Scanner.advance]
    have hposition : position + w - (Glyph.char c w).width = position :=
      Nat.add_sub_cancel _ _
    have hline : (if (Glyph.char c w).toChar == '\n' then (if c == '\n' then line + 1 else line) - 1
        else if c == '\n' then line + 1 else line) = line := by
      show (if c == '\n' then _ else _) = line
      split <;> simp
    rw [hposition, hline]
    rfl

/-! ## Failing readers -/

def Fails {α : Type} (m : ScanM α) : Prop :=
  ∀ s a t, exec m s ≠ (.ok a, t)

theorem fails_failBefore {α : Type} (message : String) : Fails (failBefore message : ScanM α) := by
  intro s a t h
  cases congrArg Prod.fst h

theorem fails_fail {α : Type} (message : String) : Fails (fail message : ScanM α) := by
  intro s a t h
  unfold fail at h
  rw [exec_bind_ok (exec_get s)] at h
  split at h
  · exact fails_failBefore message s a t h
  · cases congrArg Prod.fst h

theorem Fails.bind {α β : Type} {m : ScanM α} (h : Fails m) (f : α → ScanM β) :
    Fails (m >>= f) := by
  intro s b t hrun
  obtain ⟨a, u, hm, -⟩ := exec_bind_eq_ok.mp hrun
  exact h s a u hm

/-! ## Small readers -/

theorem exec_ignore (s : Scanner) : exec ignore s = (.ok (), { s with start := s.position }) := rfl

theorem exec_emit (kind : TokenKind) (s : Scanner) : exec (emit kind) s
    = (.ok (), { s with
        tokens := ⟨kind, String.ofList s.current, s.place⟩ :: s.tokens
        start := s.position }) := rfl

theorem exec_bound (s : Scanner) : exec bound s = (.ok (s.size + 1), s) := rfl

end ScanM

end Toml

end SymbolAtlas
