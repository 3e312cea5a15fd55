import SymbolAtlas.Proofs.Admission
import SymbolAtlas.Proofs.EntryBlocks
import SymbolAtlas.Proofs.LineSearch

set_option autoImplicit false

/-! # The lines of keys

In a manifest made of blocks every entry is found by its header, and then by the first line that
holds its key in quotes. The search for a header starts after the header before it (`Past`), so it
never loses or skips a block, whatever becomes of the entries. The key that is looked for is the one
in normal form: if this is how it is written, the line found is that of its assignment
(`decodeFile_keyLine`). If it is not, the line may be that of the header, or one of another entry
(`decodeFile_keyLine_blank`). -/

namespace SymbolAtlas.Manifest

open Text Bytes

/-! ## Where blocks stand -/

theorem textOf_append (blocks blocks' : List Block) :
    textOf (blocks ++ blocks') = textOf blocks ++ textOf blocks' := by
  induction blocks with
  | nil => exact (String.empty_append).symm
  | cons b blocks ih => rw [List.cons_append, textOf, textOf, ih, String.append_assoc]

def startOf (blocks : List Block) (i : Nat) : Nat :=
  (Utf8.encode (textOf (blocks.take i))).length

def header : List UInt8 :=
  Utf8.encode "[[symbol]]"

theorem header_eq : header = [0x5B, 0x5B, 0x73, 0x79, 0x6D, 0x62, 0x6F, 0x6C, 0x5D, 0x5D] := by
  rw [header, Utf8.encode_eq_flatMap]
  rfl

theorem length_header : header.length = 10 := by
  rw [header_eq]
  rfl

theorem encode_newline : Utf8.encode "\n" = [newline] := by
  rw [Utf8.encode_eq_flatMap]
  rfl

theorem encode_header : Utf8.encode "[[symbol]]\n" = header ++ [newline] := by
  rw [header_eq, Utf8.encode_eq_flatMap]
  rfl

variable {blocks : List Block} {i : Nat} {b : Block}

theorem Block.encode_text (b : Block) :
    Utf8.encode b.text = header ++ (newline :: (Utf8.encode b.keyLine ++ Utf8.encode b.rest)) := by
  rw [text, Utf8.encode_append, Utf8.encode_append, encode_header, List.append_assoc]
  rfl

theorem take_succ_blocks (hb : blocks[i]? = some b) :
    blocks.take (i + 1) = blocks.take i ++ [b] := by
  rw [List.take_add_one, hb]
  rfl

/-- A block starts where the one before it stops. -/
theorem startOf_succ (hb : blocks[i]? = some b) :
    startOf blocks (i + 1) = startOf blocks i + (Utf8.encode b.text).length := by
  have hone : textOf [b] = b.text := String.append_empty
  unfold startOf
  rw [take_succ_blocks hb, textOf_append, hone, Utf8.encode_append, List.length_append]

theorem startOf_mono (blocks : List Block) : Monotone (startOf blocks) := by
  refine monotone_nat_of_le_succ fun i => ?_
  cases hb : blocks[i]? with
  | none =>
      have hlen := List.getElem?_eq_none_iff.mp hb
      unfold startOf
      rw [List.take_of_length_le hlen, List.take_of_length_le (hlen.trans (Nat.le_succ i))]
  | some b => exact (startOf_succ hb) ▸ Nat.le_add_right _ _

/-- The bytes of a manifest around one of its blocks. -/
theorem encode_textOf (hb : blocks[i]? = some b) : Utf8.encode (textOf blocks)
    = Utf8.encode (textOf (blocks.take i)) ++ (header ++ (newline :: (Utf8.encode b.keyLine ++
        (Utf8.encode b.rest ++ Utf8.encode (textOf (blocks.drop (i + 1))))))) := by
  obtain ⟨hlt, rfl⟩ := List.getElem?_eq_some_iff.mp hb
  conv_lhs => rw [← List.take_append_drop i blocks, List.drop_eq_getElem_cons hlt]
  rw [textOf_append, textOf, Utf8.encode_append, Utf8.encode_append, Block.encode_text]
  simp only [List.append_assoc, List.cons_append]

theorem Block.Sound.newline_not_mem (h : b.Sound) : newline ∉ Utf8.encode b.keyLine := by
  refine Utf8.newline_not_mem_encode fun hmem => ?_
  unfold keyLine at hmem
  rw [String.toList_append, String.toList_append, List.mem_append, List.mem_append] at hmem
  rcases hmem with (hname | hkey) | hquote
  · exact absurd hname (by decide)
  · exact (h.key _ hkey).newline rfl
  · exact absurd hquote (by decide)

/-- What stands before a block ends its last line. -/
theorem Laid.before (h : Laid blocks) (hi : i < blocks.length) :
    Utf8.encode (textOf (blocks.take i)) = [] ∨
    (Utf8.encode (textOf (blocks.take i))).getLast? = some newline := by
  cases i with
  | zero => exact Or.inl Utf8.encode_empty
  | succ i =>
      right
      have hlt : i < blocks.length := Nat.lt_of_succ_lt hi
      obtain ⟨rest, hrest⟩ := h.ended_at (List.getElem?_eq_getElem hlt) hi
      rw [take_succ_blocks (List.getElem?_eq_getElem hlt), textOf_append, textOf, textOf,
        Block.text, hrest]
      simp only [Utf8.encode_append, encode_newline, Utf8.encode_empty, List.append_nil,
        ← List.append_assoc]
      exact List.getLast?_concat

/-- What stands after the assignment of a key is on further lines. -/
theorem Laid.after (h : Laid blocks) (hb : blocks[i]? = some b) :
    Utf8.encode b.rest ++ Utf8.encode (textOf (blocks.drop (i + 1))) = [] ∨
    (Utf8.encode b.rest ++ Utf8.encode (textOf (blocks.drop (i + 1)))).head? = some newline := by
  rcases (h.sound b (List.mem_of_getElem? hb)).rest with hempty | ⟨lines, hlines, -⟩
  · -- only the last block ends on the line of its key
    have hlast : blocks.length ≤ i + 1 := by
      by_contra hlt
      obtain ⟨rest, hrest⟩ := h.ended_at hb (Nat.lt_of_not_le hlt)
      exact append_newline_ne_empty rest (hrest.symm.trans hempty)
    left
    rw [hempty, List.drop_of_length_le hlast, textOf, Utf8.encode_empty]
    rfl
  · right
    rw [hlines, Utf8.encode_append, encode_newline]
    rfl

theorem Laid.headerLine (h : Laid blocks) (hb : blocks[i]? = some b) :
    WholeLine (Utf8.encode (textOf blocks)) (startOf blocks i) (startOf blocks i + 10) := by
  obtain ⟨hlt, -⟩ := List.getElem?_eq_some_iff.mp hb
  rw [encode_textOf hb, ← length_header]
  exact wholeLine_between (h.before hlt) (by rw [header_eq]; decide) (Or.inr rfl)

/-- The bytes of a manifest through the line of a header. -/
def throughHeader (blocks : List Block) (i : Nat) : List UInt8 :=
  Utf8.encode (textOf (blocks.take i)) ++ (header ++ [newline])

theorem length_throughHeader (blocks : List Block) (i : Nat) :
    (throughHeader blocks i).length = startOf blocks i + 11 := by
  rw [throughHeader, List.length_append, List.length_append, length_header]
  rfl

theorem encode_textOf_throughHeader (hb : blocks[i]? = some b) : Utf8.encode (textOf blocks)
    = throughHeader blocks i ++ (Utf8.encode b.keyLine ++
        (Utf8.encode b.rest ++ Utf8.encode (textOf (blocks.drop (i + 1))))) := by
  rw [encode_textOf hb, throughHeader]
  simp only [List.append_assoc, List.cons_append, List.nil_append]

theorem Laid.keyLine (h : Laid blocks) (hb : blocks[i]? = some b) :
    WholeLine (Utf8.encode (textOf blocks)) (startOf blocks i + 11)
      (startOf blocks i + 11 + (Utf8.encode b.keyLine).length) := by
  rw [encode_textOf_throughHeader hb, ← length_throughHeader]
  refine wholeLine_between (Or.inr ?_) (h.sound b (List.mem_of_getElem? hb)).newline_not_mem
    (h.after hb)
  rw [throughHeader, ← List.append_assoc]
  exact List.getLast?_concat

/-! ## Finding entries -/

/-- **A manifest made of blocks** in which no other header is written. -/
structure Written (blocks : List Block) (content : List UInt8) : Prop extends Laid blocks where
  content_eq : content = Utf8.encode (textOf blocks)
  header : ∀ o, Manifest.header <+: content.drop o → ∃ i < blocks.length, o = startOf blocks i

/-- The search is past the headers of the first blocks, but not past the next one. -/
structure Past (blocks : List Block) (n cursor : Nat) : Prop where
  le : cursor ≤ startOf blocks n
  lt : ∀ i < n, startOf blocks i < cursor

theorem Past.next (hb : blocks[i]? = some b) : Past blocks (i + 1) (startOf blocks i + 10) := by
  constructor
  · rw [startOf_succ hb, b.encode_text, List.length_append, length_header]
    omega
  · intro j hj
    have hle := startOf_mono blocks (Nat.le_of_lt_succ hj)
    omega

variable {f : File}

/-- **The next header** is found. -/
theorem Written.findLine?_header (h : Written blocks f.content) (hb : blocks[i]? = some b)
    {cursor : UInt32} (hcursor : Past blocks i cursor.toNat) : f.findLine? Manifest.header cursor
      = some ⟨f.id, UInt32.ofNat (startOf blocks i), UInt32.ofNat (startOf blocks i + 10)⟩ := by
  have hline := h.headerLine hb
  rw [← h.content_eq] at hline
  refine f.findLine?_first (by rw [header_eq]; exact List.cons_ne_nil _ _) ?_ hcursor.le ?_
    hline le_rfl
    (Nat.le_add_right _ _)
  · rw [h.content_eq, encode_textOf hb, startOf, List.drop_left]
    exact List.prefix_append _ _
  · intro j hle hlt hprefix
    obtain ⟨k, -, rfl⟩ := h.header j hprefix
    rcases Nat.lt_or_ge k i with hk | hk
    · exact absurd (hcursor.lt k hk) (Nat.not_lt.mpr hle)
    · exact absurd (startOf_mono blocks hk) (Nat.not_le.mpr hlt)

def quoted (key : String) : List UInt8 :=
  Utf8.encode ("\"" ++ key ++ "\"")

theorem head?_quoted (key : String) : (quoted key).head? = some 0x22 := by
  have hquote : Utf8.encode "\"" = [0x22] := by
    rw [Utf8.encode_eq_flatMap]
    rfl
  rw [quoted, Utf8.encode_append, Utf8.encode_append, hquote]
  rfl

def fieldName : List UInt8 :=
  Utf8.encode "key = "

theorem fieldName_eq : fieldName = [0x6B, 0x65, 0x79, 0x20, 0x3D, 0x20] := by
  rw [fieldName, Utf8.encode_eq_flatMap]
  rfl

theorem Block.encode_keyLine (b : Block) : Utf8.encode b.keyLine = fieldName ++ quoted b.key := by
  have hsplit : b.keyLine = "key = " ++ ("\"" ++ b.key ++ "\"") := by
    rw [← String.toList_inj]
    simp [keyLine]
  rw [hsplit, Utf8.encode_append]
  rfl

/-- **The key of a block** is found on the line of its assignment. -/
theorem Written.findLine?_key (h : Written blocks f.content) (hlen : f.content.length < 2 ^ 32)
    (hb : blocks[i]? = some b) : f.findLine? (quoted b.key) (UInt32.ofNat (startOf blocks i + 10))
      = some ⟨f.id, UInt32.ofNat (startOf blocks i + 11),
          UInt32.ofNat (startOf blocks i + 11 + (Utf8.encode b.keyLine).length)⟩ := by
  have hline := h.keyLine hb
  have hstop := hline.stop_le
  rw [← h.content_eq] at hline hstop
  have hcursor : (UInt32.ofNat (startOf blocks i + 10)).toNat = startOf blocks i + 10 := by
    rw [UInt32.toNat_ofNat', Nat.mod_eq_of_lt (by omega)]
  -- the header stands before the cursor, and seven bytes without a quote stand between it and the
  -- key
  have hsplit : f.content = (Utf8.encode (textOf (blocks.take i)) ++ Manifest.header) ++
      ((newline :: fieldName) ++ (quoted b.key ++
        (Utf8.encode b.rest ++ Utf8.encode (textOf (blocks.drop (i + 1)))))) := by
    rw [h.content_eq, encode_textOf hb, b.encode_keyLine]
    simp only [List.append_assoc, List.cons_append]
  have hbefore : (Utf8.encode (textOf (blocks.take i)) ++ Manifest.header).length
      = startOf blocks i + 10 := by
    rw [List.length_append, length_header]
    rfl
  have hgap : (newline :: fieldName).length = 7 := by
    rw [fieldName_eq]
    rfl
  have hkeyLine : (Utf8.encode b.keyLine).length = 6 + (quoted b.key).length := by
    rw [b.encode_keyLine, List.length_append, fieldName_eq]
    rfl
  have hne : quoted b.key ≠ [] := fun hnil => by
    have := head?_quoted b.key
    rw [hnil] at this
    cases this
  refine f.findLine?_first (i := startOf blocks i + 10 + 7) hne ?_ (by omega) ?_ hline (by omega)
    (by omega)
  · rw [hsplit, ← hbefore, ← hgap, ← List.length_append, ← List.append_assoc, List.drop_left]
    exact List.prefix_append _ _
  · intro j hle hlt
    rw [hcursor] at hle
    rw [hsplit]
    exact not_prefix_in_gap (head?_quoted b.key) (by rw [fieldName_eq]; decide) (by omega)
      (by omega)

def headerSpan (id : UInt32) (blocks : List Block) (i : Nat) : Span :=
  ⟨id, UInt32.ofNat (startOf blocks i), UInt32.ofNat (startOf blocks i + 10)⟩

/-- **Locating the entry of a block**: its key is looked for behind its header, where the search for
the next header goes on as well. -/
theorem Written.locate (h : Written blocks f.content) (hb : blocks[i]? = some b) {cursor : UInt32}
    (hcursor : Past blocks i cursor.toNat) (key : String) : Manifest.locate f key cursor =
      ((if key = "" then
        none else f.findLine? (quoted key) (UInt32.ofNat (startOf blocks i + 10))).getD
        (headerSpan f.id blocks i), UInt32.ofNat (startOf blocks i + 10)) := by
  have hheader := h.findLine?_header hb hcursor
  unfold Manifest.header at hheader
  unfold Manifest.locate
  rw [hheader]
  simp only [beq_iff_eq]
  rfl

/-- **The search keeps up with the blocks**, whatever becomes of the entries. -/
theorem Written.past (h : Written blocks f.content) (hlen : f.content.length < 2 ^ 32)
    (drafts : List Draft) (hdrafts : drafts.length ≤ blocks.length) :
    Past blocks drafts.length (drafts.foldl (Admission.consider f) {}).cursor.toNat := by
  induction drafts using List.reverseRecOn with
  | nil => exact ⟨Nat.zero_le _, fun i hi => absurd hi (Nat.not_lt_zero i)⟩
  | append_singleton drafts d ih =>
      rw [List.length_append, List.length_singleton] at hdrafts ⊢
      have hb := List.getElem?_eq_getElem (Nat.lt_of_succ_le hdrafts)
      have hstop := (h.headerLine hb).stop_le
      rw [← h.content_eq] at hstop
      rw [List.foldl_concat, Admission.cursor_consider,
        h.locate hb (ih (Nat.le_of_succ_le hdrafts)), UInt32.toNat_ofNat',
        Nat.mod_eq_of_lt (by omega)]
      exact .next hb

/-! ## The lines of the entries -/

/-- **The line of the assignment of a block's key**: the whole line behind that of its header. -/
structure OnKeyLine (f : File) (blocks : List Block) (i : Nat) (b : Block) (span : Span) :
    Prop where
  file : span.file = f.id
  start : span.start.toNat = startOf blocks i + 11
  text : (f.content.drop span.start.toNat).take (span.stop.toNat - span.start.toNat)
    = Utf8.encode b.keyLine
  line : WholeLine f.content span.start.toNat span.stop.toNat

theorem Written.onKeyLine (h : Written blocks f.content) (hlen : f.content.length < 2 ^ 32)
    (hb : blocks[i]? = some b) : OnKeyLine f blocks i b ⟨f.id, UInt32.ofNat (startOf blocks i + 11),
      UInt32.ofNat (startOf blocks i + 11 + (Utf8.encode b.keyLine).length)⟩ := by
  have hline := h.keyLine hb
  have hstop := hline.stop_le
  rw [← h.content_eq] at hline hstop
  have hstartNat : (UInt32.ofNat (startOf blocks i + 11)).toNat = startOf blocks i + 11 := by
    rw [UInt32.toNat_ofNat', Nat.mod_eq_of_lt (by omega)]
  have hstopNat : (UInt32.ofNat (startOf blocks i + 11 + (Utf8.encode b.keyLine).length)).toNat
      = startOf blocks i + 11 + (Utf8.encode b.keyLine).length := by
    rw [UInt32.toNat_ofNat', Nat.mod_eq_of_lt (by omega)]
  refine ⟨rfl, hstartNat, ?_, by rwa [hstartNat, hstopNat]⟩
  rw [hstartNat, hstopNat, Nat.add_sub_cancel_left, h.content_eq, encode_textOf_throughHeader hb,
    ← length_throughHeader, List.drop_left, List.take_left]

/-- The drafts of a manifest made of blocks have the keys of the blocks in normal form. -/
theorem Written.keys {content : List UInt8} (h : Written blocks content) {fields : Toml.Fields}
    {unknown : List Toml.Key}
    (hread : Toml.Document.read Draft.manifestFields content = .ok (fields, unknown)) :
    ((fields.tables "symbol").map Draft.ofFields).map Draft.key = blocks.map fun b =>
      normalizeKey b.key := by
  rw [h.content_eq] at hread
  have hkey : ∀ t, (Draft.ofFields t).key = normalizeKey (t.text "key") := fun t => by
    rw [Draft.ofFields]
  have hkeys := congrArg (List.map normalizeKey) (h.texts hread)
  simp only [List.map_map, Function.comp_def] at hkeys
  simp only [List.map_map, Function.comp_def, hkey, hkeys]

/-- **The line of one entry**, which was kept among the others. -/
theorem Written.entry (h : Written blocks f.content) (hlen : f.content.length < 2 ^ 32)
    {drafts : List Draft} (hkeys : drafts.map Draft.key = blocks.map fun b => normalizeKey b.key)
    {verdicts : List Verdict}
    (hjudged : Judgement drafts verdicts)
    (hspans : ∀ i d e, drafts[i]? = some d → verdicts[i]? = some (.kept e) →
      e.span = (Manifest.locate f d.key ((drafts.take i).foldl (Admission.consider f) {}).cursor).1)
    {e : Entry} (hb : blocks[i]? = some b) (he : verdicts[i]? = some (.kept e)) :
    e.key = normalizeKey b.key ∧
      e.span = (f.findLine? (quoted e.key) (UInt32.ofNat (startOf blocks i + 10))).getD
        (headerSpan f.id blocks i) ∧
      (normalizeKey b.key = b.key → OnKeyLine f blocks i b e.span) := by
  have hlength : drafts.length = blocks.length := by
    have := congrArg List.length hkeys
    rwa [List.length_map, List.length_map] at this
  have hlt : i < blocks.length := (List.getElem?_eq_some_iff.mp hb).1
  obtain ⟨d, hd⟩ : ∃ d, drafts[i]? = some d := ⟨_, List.getElem?_eq_getElem (hlength ▸ hlt)⟩
  have hkey : d.key = normalizeKey b.key := by
    have := congrArg (·[i]?) hkeys
    simp only [List.getElem?_map, hd, hb, Option.map_some, Option.some.injEq] at this
    exact this
  have hv := hjudged.judged i d _ hd he
  obtain rfl : e.draft = d := (hv.entry e rfl).1
  -- an entry without a key would have been dropped
  have hne : e.draft.key ≠ "" := fun hempty => by
    obtain ⟨report, hreport⟩ := hv.dropped_iff.mpr (Or.inl hempty)
    cases hreport
  have hpast := h.past hlen (drafts.take i) (by rw [List.length_take]; omega)
  rw [List.length_take, Nat.min_eq_left (by omega)] at hpast
  have hspan := hspans i e.draft e hd he
  rw [h.locate hb hpast, if_neg hne] at hspan
  refine ⟨hkey, hspan, fun hnormal => ?_⟩
  rw [hspan, show e.draft.key = b.key from hkey.trans hnormal, h.findLine?_key hlen hb]
  exact h.onKeyLine hlen hb

/-- **The lines of the entries.** In a manifest made of blocks there is one verdict for each block,
in order. An entry that is kept stands on the line that holds its key in quotes first after the
header of its block, or on the line of the header if there is none. If the key is written in normal
form, this is the line of its assignment. -/
theorem decodeFile_keyLine {fs : FileSet} (hfs : fs.Filled) {id : UInt32} (hf : fs.get? id = some f)
    (h : Written blocks f.content) {p : Program} {reports : List Diagnostic}
    (hdecode : decodeFile fs id = (.ok p, reports)) :
    ∃ fields unknown verdicts, Toml.Document.read Draft.manifestFields f.content
      = .ok (fields, unknown) ∧
      Judgement ((fields.tables "symbol").map Draft.ofFields) verdicts ∧
      verdicts.length = blocks.length ∧
      p.entries.toList.map Entry.unlinked = verdicts.filterMap Verdict.entry? ∧
      ∀ e ∈ p.entries.toList, ∃ i b, blocks[i]? = some b ∧ verdicts[i]? = some (.kept e.unlinked) ∧
        e.key = normalizeKey b.key ∧
        e.span = (f.findLine? (quoted e.key) (UInt32.ofNat (startOf blocks i + 10))).getD
          (headerSpan f.id blocks i) ∧
        (normalizeKey b.key = b.key → OnKeyLine f blocks i b e.span) := by
  obtain ⟨hlen, -⟩ := hfs.file hf
  unfold decodeFile decode at hdecode
  rw [hf] at hdecode
  dsimp only at hdecode
  -- a document that cannot be read has no program
  rcases hread : Toml.Document.read Draft.manifestFields f.content with e | ⟨fields, unknown⟩
  · rw [hread] at hdecode
    cases congrArg Prod.fst hdecode
  rw [hread] at hdecode
  dsimp only [ofDrafts] at hdecode
  obtain ⟨hp, -⟩ := Prod.mk.inj hdecode
  obtain rfl := Except.ok.inj hp
  have hkeys := h.keys hread
  obtain ⟨verdicts, hjudged, hkept, -, hspans⟩ :=
    exists_judgement_located f ((fields.tables "symbol").map Draft.ofFields)
  -- there is one draft for each block
  have hcount : verdicts.length = blocks.length := by
    have := congrArg List.length hkeys
    rw [List.length_map, ← hjudged.length_eq, List.length_map] at this
    exact this
  rw [hkept]
  have hentries :=
    (unlinked_linkEntries (verdicts.filterMap Verdict.entry?)).trans hjudged.map_unlinked
  refine ⟨fields, unknown, verdicts, rfl, hjudged, hcount, hentries, ?_⟩
  intro e he
  have hmem : e.unlinked ∈ verdicts.filterMap Verdict.entry? := hentries ▸ List.mem_map_of_mem he
  obtain ⟨v, hv, hentry⟩ := List.mem_filterMap.mp hmem
  obtain rfl : v = .kept e.unlinked := by
    cases v with
    | kept e' => exact congrArg Verdict.kept (Option.some.inj hentry)
    | dropped report => cases hentry
  obtain ⟨i, hi⟩ := List.mem_iff_getElem?.mp hv
  have hlt : i < blocks.length := hcount ▸ (List.getElem?_eq_some_iff.mp hi).1
  have hb := List.getElem?_eq_getElem hlt
  have hentry := h.entry hlen hkeys hjudged hspans hb hi
  exact ⟨i, _, hb, hi, hentry⟩

/-- A block whose key is written with a blank, and one that refers to it. -/
def strayBlocks : List Block :=
  [⟨" A", "\nkind = \"type\"\n"⟩, ⟨"B", "\nkind = \"type\"\nreferences = [\"A\"]\n"⟩]

/-- The manifest of these blocks as the one file of a file set. -/
def strayFiles : FileSet :=
  (FileSet.addVirtual {} "stray.toml" (Utf8.encode (textOf strayBlocks))).2

theorem fieldWords_kind {words : List Toml.Word} (h : Toml.FieldWords true words) :
    Toml.FieldWords true
    ([(.keyStart, ""), (.bare, "kind"), (.keyEnd, "="), (.string, "type")] ++ words) := by
  have hname : Toml.KeyWords .keyEnd ["kind"] [(.bare, "kind"), (.keyEnd, "=")] :=
    .part (by decide) rfl (.stop _)
  exact .pair "" hname (fun _ => by decide) (.literal "type" rfl) h

theorem fieldLines_of_words {lines : String} {words : List Toml.Word}
    (hwords : (Toml.scan (Utf8.spelled lines.toList)).1.map Toml.Token.word = words)
    (hnone : (Toml.scan (Utf8.spelled lines.toList)).2 = none) (h : Toml.FieldWords true words) :
    FieldLines lines := by
  unfold FieldLines
  rw [Utf8.decode_encode]
  rcases hscan : Toml.scan (Utf8.spelled lines.toList) with ⟨tokens, failure⟩
  rw [hscan] at hwords hnone
  obtain rfl : failure = none := hnone
  exact ⟨tokens, rfl, hwords ▸ h⟩

theorem fieldLines_kind : FieldLines "kind = \"type\"\n" :=
  fieldLines_of_words (by decide +kernel) (by decide +kernel) (fieldWords_kind (.nil true))

theorem fieldLines_references : FieldLines "kind = \"type\"\nreferences = [\"A\"]\n" := by
  have hname : Toml.KeyWords .keyEnd ["references"] [(.bare, "references"), (.keyEnd, "=")] :=
    .part (by decide) rfl (.stop _)
  have hitems : Toml.ItemWords [(.string, "A"), (.arrayEnd, "")] :=
    .item (.literal "A" rfl) (.stop "")
  have hreferences : Toml.FieldWords true [(.keyStart, ""), (.bare, "references"), (.keyEnd, "="),
      (.arrayStart, ""), (.string, "A"), (.arrayEnd, "")] :=
    .pair "" hname (fun _ => by decide) (.array "" hitems) (.nil true)
  exact fieldLines_of_words (by decide +kernel) (by decide +kernel) (fieldWords_kind hreferences)

theorem laid_strayBlocks : Laid strayBlocks := by
  refine ⟨?_, ?_⟩
  · intro b hb
    have hletters : ∀ c ∈ [' ', 'A', 'B'], Toml.Quotable c := by
      intro c hc
      simp only [List.mem_cons, List.not_mem_nil, or_false] at hc
      rcases hc with rfl | rfl | rfl
      all_goals decide
    rcases List.mem_pair.mp hb with rfl | rfl
    · exact ⟨fun c hc => hletters c (List.mem_append_left ['B'] hc),
        Or.inr ⟨_, rfl, fieldLines_kind⟩⟩
    · exact ⟨fun c hc => hletters c (List.mem_append_right [' ', 'A'] hc),
        Or.inr ⟨_, rfl, fieldLines_references⟩⟩
  · intro b hb
    obtain rfl := List.mem_singleton.mp hb
    exact ⟨"\nkind = \"type\"", rfl⟩

theorem filled_strayFiles : strayFiles.Filled :=
  .add "stray.toml" _ .inMemory .empty (by decide +kernel) (by decide)

theorem file_strayFiles :
    ∃ f, strayFiles.get? 1 = some f ∧ f.content = Utf8.encode (textOf strayBlocks) :=
  ⟨_, rfl, rfl⟩

theorem written_strayBlocks : Written strayBlocks (Utf8.encode (textOf strayBlocks)) := by
  refine ⟨laid_strayBlocks, rfl, fun o ho => ?_⟩
  have hlen : (Utf8.encode (textOf strayBlocks)).length = 90 := by decide +kernel
  have hall : ∀ o < 90, header <+: (Utf8.encode (textOf strayBlocks)).drop o →
      ∃ i < strayBlocks.length, o = startOf strayBlocks i := by decide +kernel
  refine hall o ?_ ho
  by_contra hout
  rw [List.drop_eq_nil_of_le (by omega), List.prefix_nil, header_eq] at ho
  cases ho

/-- The first entry is found on the line of the reference. -/
theorem decodeFile_strayFiles : ∃ p reports, decodeFile strayFiles 1 = (.ok p, reports) ∧
    p.entries.toList.map (fun e => (e.key, e.span)) = [("A", ⟨1, 71, 89⟩), ("B", ⟨1, 47, 56⟩)] := by
  have hspans : (decodeFile strayFiles 1).1.toOption.map (fun p => p.entries.toList.map fun e =>
      (e.key, e.span))
      = some [("A", ⟨1, 71, 89⟩), ("B", ⟨1, 47, 56⟩)] := by decide +kernel
  rcases hdecode : decodeFile strayFiles 1 with ⟨result, reports⟩
  rw [hdecode] at hspans
  cases result with
  | error e => cases hspans
  | ok p => exact ⟨p, reports, rfl, Option.some.inj hspans⟩

/-- The entry whose key is written in normal form stands on its line. -/
theorem decodeFile_keyLine_stray : strayFiles.Filled ∧ ∃ f, strayFiles.get? 1 = some f ∧
    Written strayBlocks f.content ∧ ∃ p reports, decodeFile strayFiles 1 = (.ok p, reports) ∧
      ∃ e ∈ p.entries.toList, e.key = "B" ∧ e.span = ⟨1, 47, 56⟩ ∧
        ∃ b, strayBlocks[1]? = some b ∧ OnKeyLine f strayBlocks 1 b e.span := by
  obtain ⟨f, hf, hcontent⟩ := file_strayFiles
  have hwritten : Written strayBlocks f.content := hcontent ▸ written_strayBlocks
  obtain ⟨p, reports, hdecode, hspans⟩ := decodeFile_strayFiles
  obtain ⟨_, _, _, -, -, -, -, hentries⟩ := decodeFile_keyLine filled_strayFiles hf hwritten hdecode
  have hmem : ("B", (⟨1, 47, 56⟩ : Span)) ∈ p.entries.toList.map fun e => (e.key, e.span) := by
    rw [hspans]
    decide
  obtain ⟨e, he, hpair⟩ := List.mem_map.mp hmem
  obtain ⟨hkey, hspan⟩ := Prod.mk.inj hpair
  refine ⟨filled_strayFiles, f, hf, hwritten, p, reports, hdecode, e, he, hkey, hspan, ?_⟩
  obtain ⟨i, b, hb, -, hkey', -, hline⟩ := hentries e he
  rw [hkey] at hkey'
  match i, hb with
  | 0, hb =>
      obtain rfl := Option.some.inj hb
      exact absurd hkey' (by decide +kernel)
  | 1, hb =>
      obtain rfl := Option.some.inj hb
      exact ⟨_, hb, hline (by decide +kernel)⟩

/-- The entry whose key is written with a blank stands on the line of no assignment of its key. -/
theorem decodeFile_keyLine_blank : ∃ f, strayFiles.get? 1 = some f ∧ Written strayBlocks f.content ∧
    ∃ p reports, decodeFile strayFiles 1 = (.ok p, reports) ∧ ∃ e ∈ p.entries.toList,
      e.span = ⟨1, 71, 89⟩ ∧
      ∀ i b, strayBlocks[i]? = some b → e.key = normalizeKey b.key →
      ¬ OnKeyLine f strayBlocks i b e.span := by
  obtain ⟨f, hf, hcontent⟩ := file_strayFiles
  obtain ⟨p, reports, hdecode, hspans⟩ := decodeFile_strayFiles
  have hmem : ("A", (⟨1, 71, 89⟩ : Span)) ∈ p.entries.toList.map fun e => (e.key, e.span) := by
    rw [hspans]
    decide
  obtain ⟨e, he, hpair⟩ := List.mem_map.mp hmem
  obtain ⟨hkey, hspan⟩ := Prod.mk.inj hpair
  refine ⟨f, hf, hcontent ▸ written_strayBlocks, p, reports, hdecode, e, he, hspan,
    fun i b hb _ hline => ?_⟩
  have hlt : i < 2 := (List.getElem?_eq_some_iff.mp hb).1
  have hstart := hline.start
  rw [hspan] at hstart
  have hnone : ∀ i < 2, (⟨1, 71, 89⟩ : Span).start.toNat ≠ startOf strayBlocks i + 11 := by
    decide +kernel
  exact hnone i hlt hstart

end SymbolAtlas.Manifest
