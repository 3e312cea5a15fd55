import SymbolAtlas.Manifest.Entry
import SymbolAtlas.Proofs.EntryDocuments

set_option autoImplicit false

/-! # Manifests made of blocks

A block is a header, the line of a key and further lines (`Block`). In a text made of blocks every
piece is scanned as if it stood alone, so the words of the text are those of entries with the keys
of the blocks (`passes_textOf`), and so are the tables of the document that is built from it
(`texts_read`). -/

namespace SymbolAtlas.Manifest

open Text Toml

/-- A block of a manifest: the key of an entry, and what follows on the line of the key. -/
structure Block where
  key : String
  rest : String

namespace Block

def keyLine (b : Block) : String :=
  "key = \"" ++ b.key ++ "\""

def text (b : Block) : String :=
  "[[symbol]]\n" ++ (b.keyLine ++ b.rest)

end Block

/-- Lines that may stand after the line of a key: their tokens are those of further fields. -/
def FieldLines (lines : String) : Prop :=
  ∃ tokens, scan (Utf8.decode (Utf8.encode lines)) = (tokens, none) ∧
    FieldWords true (tokens.map Token.word)

/-- The key of a block is written without escapes, and only further lines follow. -/
structure Block.Sound (b : Block) : Prop where
  key : ∀ c ∈ b.key.toList, Quotable c
  rest : b.rest = "" ∨ ∃ lines, b.rest = "\n" ++ lines ∧ FieldLines lines

def textOf : List Block → String
  | [] => ""
  | b :: blocks => b.text ++ textOf blocks

/-- **A manifest made of blocks.** Every block but the last ends its last line. -/
structure Laid (blocks : List Block) : Prop where
  sound : ∀ b ∈ blocks, b.Sound
  ended : ∀ b ∈ blocks.dropLast, ∃ rest, b.rest = rest ++ "\n"

theorem Laid.tail {b : Block} {blocks : List Block} (h : Laid (b :: blocks)) : Laid blocks := by
  refine ⟨fun b' hb' => h.sound b' (List.mem_cons_of_mem b hb'), fun b' hb' => h.ended b' ?_⟩
  cases blocks with
  | nil => cases hb'
  | cons _ _ => exact List.mem_cons_of_mem b hb'

/-- A block before the last one ends its last line. -/
theorem Laid.ended_at {blocks : List Block} (h : Laid blocks) {i : Nat} {b : Block}
    (hb : blocks[i]? = some b) (hi : i + 1 < blocks.length) : ∃ rest, b.rest = rest ++ "\n" := by
  refine h.ended b (List.mem_of_getElem? (i := i) ?_)
  rwa [List.dropLast_eq_take, List.getElem?_take_of_lt (by omega)]

theorem append_newline_ne_empty (s : String) : s ++ "\n" ≠ "" := by
  intro h
  have hchars := congrArg String.toList h
  rw [String.toList_append] at hchars
  exact List.append_ne_nil_of_right_ne_nil _ (List.cons_ne_nil '\n' []) hchars

/-! ## Scanning blocks -/

theorem string_of_quotable {s : String} (h : ∀ c ∈ s.toList, Quotable c) :
    Literal.string .string s = .ok s := by
  have hsame : ∀ (cs : List Char) (fuel : Nat), (∀ c ∈ cs, Quotable c) → cs.length < fuel →
      Literal.unescape fuel cs = .ok cs := by
    intro cs
    induction cs with
    | nil =>
        intro fuel _ hfuel
        cases fuel with
        | zero => rfl
        | succ fuel => rfl
    | cons c cs ih =>
        intro fuel hcs hfuel
        obtain ⟨fuel, rfl⟩ := Nat.exists_eq_add_one.mpr (Nat.zero_lt_of_lt hfuel)
        have hrest :=
          ih fuel (fun d hd => hcs d (List.mem_cons_of_mem c hd)) (Nat.lt_of_succ_lt_succ hfuel)
        have hne : c ≠ '\\' := (hcs c List.mem_cons_self).backslash
        rw [Literal.unescape, hrest]
        · rfl
        · exact fun _ _ heq => absurd heq hne
  unfold Literal.string
  dsimp only
  rw [hsame _ _ h (Nat.lt_succ_self _)]
  exact congrArg Except.ok (String.ofList_toList)

/-- If lines after a newline end in a newline, so do the lines, if there are any. -/
theorem endsLine_of_append {lines rest : String} (h : "\n" ++ lines = rest ++ "\n") :
    EndsLine (Utf8.spelled lines.toList) ∨ Utf8.spelled lines.toList = [] := by
  have hchars : '\n' :: lines.toList = rest.toList ++ ['\n'] := by
    have := congrArg String.toList h
    rwa [String.toList_append, String.toList_append] at this
  rcases List.eq_nil_or_concat' lines.toList with hnil | ⟨before, c, hlast⟩
  · exact Or.inr (by rw [hnil]; rfl)
  · rw [hlast, ← List.cons_append] at hchars
    obtain rfl := List.singleton_inj.mp (List.append_inj' hchars rfl).2
    refine Or.inl ⟨'\n'.utf8Size, ?_⟩
    rw [hlast, Utf8.spelled_append]
    exact List.getLast?_concat

theorem Block.spelled_text (b : Block) : Utf8.spelled b.text.toList
    = headerLine ++ (keyName ++ (quotedKey b.key.toList ++ Utf8.spelled b.rest.toList)) := by
  unfold text keyLine headerLine keyName quotedKey
  simp only [String.toList_append, Utf8.spelled_append, List.append_assoc]
  rfl

/-- **A block** is passed over wherever it stands. -/
theorem Block.Sound.passes {b : Block} (h : b.Sound) {post : List Glyph}
    (hend : post = [] ∨ ∃ rest, b.rest = rest ++ "\n") : ∃ fields, FieldWords true fields ∧
      Passes post (Utf8.spelled b.text.toList) (headerWords ++ (keyWords b.key ++ fields)) := by
  rw [b.spelled_text]
  rcases h.rest with hempty | ⟨lines, hlines, tokens, hscan, hfields⟩
  · have hpost : post = [] :=
      hend.resolve_right fun ⟨rest, hrest⟩ => append_newline_ne_empty rest (hrest.symm.trans hempty)
    have hkey : Passes post (keyName ++ (quotedKey b.key.toList ++ []))
        (keyWords (String.ofList b.key.toList)) :=
      passes_keyLine h.key (Or.inr ⟨rfl, hpost⟩)
    rw [String.ofList_toList] at hkey
    rw [hempty]
    exact ⟨[], .nil true, (passes_headerLine _).trans hkey⟩
  · have hend' : post = [] ∨ EndsLine (Utf8.spelled lines.toList) ∨
        Utf8.spelled lines.toList = [] :=
      hend.imp_right fun ⟨_, hrest⟩ => endsLine_of_append (hlines.symm.trans hrest)
    rw [Utf8.decode_encode] at hscan
    have hpasses := (passes_keyLine h.key (Or.inl rfl)).trans (passes_of_scan hscan hend')
    rw [String.ofList_toList] at hpasses
    refine ⟨_, hfields, (passes_headerLine _).trans ?_⟩
    have hrest : Utf8.spelled b.rest.toList = Utf8.spelled ['\n'] ++ Utf8.spelled lines.toList := by
      rw [hlines, String.toList_append, Utf8.spelled_append]
      rfl
    rw [hrest]
    simpa only [List.append_assoc] using hpasses

/-- **The text of blocks** has the words of entries with their keys. -/
theorem Laid.passes {blocks : List Block} (h : Laid blocks) : ∃ words,
    EntryWords (blocks.map Block.key) words ∧
    Passes [] (Utf8.decode (Utf8.encode (textOf blocks))) words := by
  rw [Utf8.decode_encode]
  induction blocks with
  | nil => exact ⟨[], .nil, .nil []⟩
  | cons b blocks ih =>
      obtain ⟨words, hwords, hpasses⟩ := ih h.tail
      have hsound := h.sound b List.mem_cons_self
      have hend : Utf8.spelled (textOf blocks).toList ++
          [] = [] ∨ ∃ rest, b.rest = rest ++ "\n" := by
        cases blocks with
        | nil => exact Or.inl rfl
        | cons _ _ => exact Or.inr (h.ended b List.mem_cons_self)
      obtain ⟨fields, hfields, hblock⟩ := hsound.passes hend
      refine ⟨_, .entry (string_of_quotable hsound.key) hfields hwords, ?_⟩
      rw [textOf, String.toList_append, Utf8.spelled_append]
      simpa only [List.append_assoc] using hblock.trans hpasses

/-! ## Reading blocks -/

theorem dropMark_textOf (blocks : List Block) :
    Document.dropMark (Utf8.encode (textOf blocks)) = Utf8.encode (textOf blocks) := by
  cases blocks with
  | nil => rw [textOf, Utf8.encode_empty]; rfl
  | cons b blocks =>
      -- a header starts with a bracket, and no mark does
      have hheader : Utf8.encode "[[symbol]]\n" = 0x5B :: Utf8.encode "[symbol]]\n" := by
        rw [Utf8.encode_eq_flatMap, Utf8.encode_eq_flatMap]
        rfl
      rw [textOf, Block.text, Utf8.encode_append, Utf8.encode_append, hheader]
      rfl

/-- **The entries of a manifest made of blocks** have the keys of the blocks. -/
theorem Laid.texts {blocks : List Block} (h : Laid blocks) {shape : List (String × Shape)}
    {fields : Fields} {unknown : List Key}
    (hread : Document.read shape (Utf8.encode (textOf blocks)) = .ok (fields, unknown)) :
    (fields.tables "symbol").map (·.text "key") = blocks.map Block.key := by
  obtain ⟨words, hwords, hpasses⟩ := h.passes
  unfold Document.read at hread
  split at hread
  · cases hread
  · rename_i d hparse
    split at hread
    · cases hread
    · obtain ⟨rfl, -⟩ := Prod.mk.inj (Except.ok.inj hread)
      exact (parse_entryWords (dropMark_textOf blocks) hwords hpasses hparse).texts

end SymbolAtlas.Manifest
