import SymbolAtlas.Diagnostic.Pretty
import SymbolAtlas.Proofs.Execution
import SymbolAtlas.Proofs.LineSearch

set_option autoImplicit false

/-! # Snippets

A snippet takes its line number from the newline offsets and its text from cutting the file at
newlines. `lines_at` says that both are about the same line. So no snippet of a file of a run fails,
and `snippet_rows` says what it shows: the lines of context, the line itself, and a mark under the
part of the span that lies on that line. -/

namespace SymbolAtlas

namespace Text.Bytes

theorem lines_cons (b : UInt8) (bytes : List UInt8) :
    lines (b :: bytes) = if b = newline then
      [] :: lines bytes else (lines bytes).modifyHead (b :: ·) := by
  unfold lines List.splitOn
  rw [List.splitOnP_cons_eq_if_modifyHead]
  simp only [beq_iff_eq]

theorem length_lines (bytes : List UInt8) : (lines bytes).length = bytes.count newline + 1 := by
  induction bytes with
  | nil => rfl
  | cons b bytes ih =>
      rw [lines_cons, List.count_cons]
      by_cases hb : b = newline
      · simp [hb, ih]
      · simp [hb, ih]

theorem lineStart_cons (b : UInt8) (bytes : List UInt8) : lineStart (b :: bytes)
    = if bytes.count newline = 0 then (if b = newline then 1 else 0) else lineStart bytes + 1 := by
  induction bytes using List.reverseRecOn with
  | nil =>
      rw [← List.nil_append [b], lineStart_concat]
      simp [lineStart]
  | append_singleton bytes c ih =>
      rw [← List.cons_append, lineStart_concat, lineStart_concat, ih]
      by_cases hc : c = newline
      · simp [hc]
      · simp [hc, List.count_append]

/-- **The line that two parts of a text share** is the piece with the number of newlines in the
first one. -/
theorem lines_append (xs ys : List UInt8) : (lines (xs ++ ys))[xs.count newline]?
    = some (xs.drop (lineStart xs) ++ ys.take (lineEnd ys)) := by
  induction xs with
  | nil =>
      show (lines ys)[0]? = some (ys.take (lineEnd ys))
      induction ys with
      | nil => rfl
      | cons b ys ih =>
          rw [lines_cons]
          unfold lineEnd at ih ⊢
          rw [List.takeWhile_cons]
          by_cases hb : b = newline
          · simp [hb]
          · simp [hb, ih]
  | cons b xs ih =>
      rw [List.cons_append, lines_cons, lineStart_cons, List.count_cons]
      by_cases hb : b = newline
      · -- without a newline behind it the byte is part of the first line
        by_cases hcount : xs.count newline = 0
        · have hstart := (count_eq_zero_iff xs).mp hcount
          rw [hcount, hstart] at ih
          simpa [hb, hcount] using ih
        · simpa [hb, hcount] using ih
      · by_cases hcount : xs.count newline = 0
        · have hstart := (count_eq_zero_iff xs).mp hcount
          rw [hcount, hstart] at ih
          simp [hb, hcount, ih]
        · obtain ⟨n, hn⟩ := Nat.exists_eq_succ_of_ne_zero hcount
          rw [hn] at ih
          simpa [hb, hn] using ih

/-- The piece that an offset lies on has the bytes between the start and the stop of its line. -/
theorem lines_at {bytes : List UInt8} {offset start stop : Nat} (h : offset ≤ bytes.length)
    (hstart : LineStart bytes offset start) (hstop : LineStop bytes offset stop) :
    (lines bytes)[(bytes.take offset).count newline]? = some ((bytes.take stop).drop start) := by
  have hs := hstart.unique (lineStart_take bytes offset)
  have he := hstop.unique (lineEnd_drop h)
  have hle := hstart.le
  have hlen : (bytes.take offset).length = offset := List.length_take_of_le h
  have hpieces := lines_append (bytes.take offset) (bytes.drop offset)
  rw [List.take_append_drop] at hpieces
  rw [hpieces, he, hs, List.take_add, List.drop_append_of_le_length]
  rw [hlen]
  exact (lineStart_take bytes offset).le

end Text.Bytes

namespace Pretty

open Text Bytes

/-! ## The rows of a snippet -/

def lineText (content : List UInt8) (number : Nat) : List UInt8 :=
  (Bytes.lines content)[number - 1]?.getD []

/-- A row of a snippet that shows a line, byte by byte. -/
def lineRow (o : Options) (content : List UInt8) (width number : Nat) : List UInt8 :=
  Utf8.encode (gutter o width (toString number)) ++ lineText content number

/-- The row under the lines: a mark of a given width, behind blanks. -/
def markRow (o : Options) (width indent mark : Nat) : List UInt8 :=
  Utf8.encode (gutter o width "" ++ (String.ofList (List.replicate indent ' ') ++
    paint o.color [.green, .bold] ("^" ++ String.ofList (List.replicate (mark - 1) '~'))))

/-- A part of a text that lies within it can be cut out. -/
theorem cut_ok (bytes : List UInt8) {start stop : Nat} (h : start ≤ stop)
    (h' : stop ≤ bytes.length) :
    cut bytes start stop = .ok ((bytes.take stop).drop start) := by
  unfold cut
  rw [if_pos ⟨by omega, by omega, by omega⟩]
  rfl

/-- The mark under a line, for a column within the line. -/
theorem underline_ok (measure : List UInt8 → Nat) (o : Options) (line : List UInt8)
    (column length : UInt32) (h : column.toNat ≠ 0) (h' : column.toNat - 1 ≤ line.length) :
    underline measure o line column length = .ok (String.ofList (List.replicate
        (measure (line.take (column.toNat - 1))) ' ') ++
      paint o.color [.green, .bold] ("^" ++ String.ofList (List.replicate
        (max 1 (measure ((line.take (min (column.toNat - 1 + length.toNat) line.length)).drop
          (column.toNat - 1))) - 1) '~'))) := by
  have hstart : min ((column.toNat : Int) - 1) line.length = ((column.toNat - 1 : Nat) : Int) := by
    omega
  have hstop : ((column.toNat - 1 : Nat) : Int) +
      max 0 (min (length.toNat : Int) (line.length - ((column.toNat - 1 : Nat) : Int)))
      = ((min (column.toNat - 1 + length.toNat) line.length : Nat) : Int) := by omega
  have hindent := cut_ok line (Nat.zero_le (column.toNat - 1)) h'
  have hmark : cut line ((column.toNat - 1 : Nat) : Int)
      ((min (column.toNat - 1 + length.toNat) line.length : Nat) : Int) = .ok _ :=
    cut_ok line (by omega) (by omega)
  unfold underline
  dsimp only
  rw [hstart, hstop, hmark]
  rw [Int.natCast_zero] at hindent
  rw [hindent]
  rfl

/-- A line that the text has is found under its number. -/
theorem itemAt_lines {content : List UInt8} {number : Nat} (h : 1 ≤ number)
    (h' : number ≤ (Bytes.lines content).length) :
    itemAt (Bytes.lines content) (number - 1) = .ok (lineText content number) := by
  have hlt : number - 1 < (Bytes.lines content).length := by omega
  unfold itemAt lineText
  rw [List.getElem?_eq_getElem hlt, Option.getD_some]

theorem mapM_lineRow (o : Options) {content : List UInt8} (width : Nat) {first last : Nat}
    (h : 1 ≤ first) (h' : last ≤ (Bytes.lines content).length) :
    (List.range (last + 1 - first)).mapM (fun i => do
      let text ← itemAt (Bytes.lines content) (first + i - 1)
      return Utf8.encode (gutter o width (toString (first + i))) ++ text)
    = (.ok ((List.range' first (last + 1 - first)).map (lineRow o content width)) :
        Except Fault (List (List UInt8))) := by
  rw [List.range'_eq_map_range, List.map_map]
  refine mapM_ok fun i hi => ?_
  have hi' := List.mem_range.mp hi
  rw [itemAt_lines (by omega) (by omega)]
  rfl

/-- The text of the line that an offset lies on. -/
theorem lineText_at {content : List UInt8} {offset start stop : Nat} (h : offset ≤ content.length)
    (hstart : LineStart content offset start) (hstop : LineStop content offset stop) :
    lineText content (1 + (content.take offset).count newline)
      = (content.take stop).drop start := by
  unfold lineText
  rw [Nat.add_sub_cancel_left, lines_at h hstart hstop, Option.getD_some]

/-- **The mark under the line of an offset**, in terms of places in the text: a place on the line is
one in the text, counted from the start of the line. -/
theorem underline_at (measure : List UInt8 → Nat) (o : Options) {content : List UInt8}
    {offset start stop : Nat} (hstart : LineStart content offset start)
    (hstop : LineStop content offset stop) {column : UInt32} (h : column.toNat = offset - start + 1)
    (length : UInt32) :
    underline measure o ((content.take stop).drop start) column length = .ok (String.ofList
        (List.replicate (measure ((content.take offset).drop start)) ' ') ++
      paint o.color [.green, .bold] ("^" ++ String.ofList (List.replicate
        (max 1 (measure ((content.take (min (offset + length.toNat) stop)).drop offset)) - 1)
          '~'))) := by
  have hle := hstart.le
  have hle' := hstop.le
  have hlength : ((content.take stop).drop start).length = stop - start := by
    rw [List.length_drop, List.length_take_of_le hstop.le_length]
  have hindent : ((content.take stop).drop start).take (offset - start)
      = (content.take offset).drop start := by
    rw [List.take_drop, Nat.add_sub_cancel' hle, List.take_take, Nat.min_eq_left hle']
  have hend : min (start + min (offset - start + length.toNat) (stop - start)) stop
      = min (offset + length.toNat) stop := by omega
  have hpart : (((content.take stop).drop start).take
      (min (offset - start + length.toNat) (stop - start))).drop (offset - start)
      = (content.take (min (offset + length.toNat) stop)).drop offset := by
    rw [List.take_drop, List.take_take, hend, List.drop_drop, Nat.add_sub_cancel' hle]
  rw [underline_ok measure o _ column length (by omega) (by omega), h, Nat.add_sub_cancel, hlength,
    hindent, hpart]

/-- **What a snippet shows.** In a file of a run that holds a byte and leaves offsets to spare,
every span that starts within the file has a snippet, whatever its end, the context and the measure
of width. It shows the lines from the one so many lines before, or the first one, up to the line of
the start. Under it stands a mark, as far in as the text before the start is wide, and as wide as
the part of the span on that line, but never empty. -/
theorem snippet_rows (measure : List UInt8 → Nat) (o : Options) {fs : FileSet} (h : fs.Filled)
    {span : Span} {f : File} (hf : fs.get? span.file = some f) (hne : f.content ≠ [])
    (hlen : f.content.length < 2 ^ 32 - 1) (hspan : span.start.toNat ≤ f.content.length) :
    ∃ last first start stop : Nat,
      last = 1 + (f.content.take span.start.toNat).count newline ∧
      (fs.resolve span).1.line.toNat = last ∧ last ≤ (Bytes.lines f.content).length ∧
      (first : Int) = max 1 (last - max 0 o.context) ∧
      LineStart f.content span.start.toNat start ∧ LineStop f.content span.start.toNat stop ∧
      lineText f.content last = (f.content.take stop).drop start ∧
      snippet measure fs o span = .ok
        ((List.range' first (last + 1 - first)).map (lineRow o f.content (toString last).length) ++
          [markRow o (toString last).length
            (measure ((f.content.take span.start.toNat).drop start))
            (max 1 (measure
              ((f.content.take (min (span.start.toNat + (span.stop - span.start).toNat)
              stop)).drop span.start.toNat)))]) := by
  obtain ⟨hline, start, hstart, hcolumn⟩ := (h.position hf span.start).small (by omega)
  have hstop := lineEnd_drop hspan
  set stop := span.start.toNat + lineEnd (f.content.drop span.start.toNat)
  set last := 1 + (f.content.take span.start.toNat).count newline with hlast
  -- the line of the start is one of the lines that are cut
  have hlines : last ≤ (Bytes.lines f.content).length := by
    have hcount := (List.take_sublist span.start.toNat f.content).count_le newline
    rw [length_lines]
    omega
  have htext : lineText f.content last = (f.content.take stop).drop start :=
    lineText_at hspan hstart hstop
  refine ⟨last, max 1 (last - o.context.toNat), start, stop, rfl, ?_, hlines, by omega, hstart,
    hstop, htext, ?_⟩
  · rw [FileSet.resolve_of_get? hf, hline]
  · -- so neither the content nor the line is missing
    have hgo : ¬ ((f.content.isEmpty || last < 1 || (Bytes.lines f.content).length < last)
        = true) := by
      simp only [Bool.or_eq_true, List.isEmpty_iff, decide_eq_true_eq, not_or]
      exact ⟨⟨hne, by omega⟩, by omega⟩
    have hshown :=
      mapM_lineRow o (toString last).length (Nat.le_max_left 1 (last - o.context.toNat)) hlines
    have hmark := underline_at measure o hstart hstop hcolumn span.length
    unfold snippet
    rw [hf]
    dsimp only
    rw [hline, if_neg hgo]
    have hmax : Nat.max 1 (last - o.context.toNat) = max 1 (last - o.context.toNat) := rfl
    rw [hmax, hshown, itemAt_lines (by omega) hlines, htext]
    simp only [bind, Except.bind, pure, Except.pure]
    rw [hmark]
    rfl

/-- A span that ends before it starts, on the third line, with one line of context and every byte
two cells wide. -/
theorem snippet_rows_threeLines :
    threeLines.Filled ∧ ∃ f, threeLines.get? 1 = some f ∧ f.content ≠ [] ∧
    f.content.length < 2 ^ 32 - 1 ∧ (5 : UInt32).toNat ≤ f.content.length ∧
    snippet (fun bytes => 2 * bytes.length) threeLines { context := 1 } ⟨1, 5, 2⟩
      = .ok ([" 2 | ", " 3 | cd", "   |   ^~"].map Utf8.encode) := by
  obtain ⟨f, hf, hcontent⟩ := file_threeLines
  have hne : f.content ≠ [] := by rw [hcontent]; decide
  have hlen : f.content.length < 2 ^ 32 - 1 := by rw [hcontent]; decide
  have hstart : (5 : UInt32).toNat ≤ f.content.length := by rw [hcontent]; decide
  obtain ⟨last, first, start, stop, hlast, -, -, hfirst, hs, he, -, hrows⟩ :=
    @snippet_rows (fun bytes => 2 * bytes.length) { context := 1 } _ filled_threeLines
      ⟨1, 5, 2⟩ _ hf hne hlen
      hstart
  rw [hcontent] at hlast hs he hrows
  obtain rfl : last = 3 := by rw [hlast]; decide
  obtain rfl : first = 2 := by
    have hone : (first : Int) = 2 := by rw [hfirst]; decide
    omega
  obtain rfl := hs.unique (lineStart_take _ _)
  obtain rfl := he.unique (lineEnd_drop (by decide))
  exact ⟨filled_threeLines, f, hf, hne, hlen, hstart, by rw [hrows]; decide +kernel⟩

/-- A byte that is no text stands in its row as it is. -/
example : snippet List.length (FileSet.addVirtual {} "stray.toml" [0xFF, 0x0A]).2 {} ⟨1, 0, 1⟩
    = .ok [Utf8.encode " 1 | " ++ [0xFF], Utf8.encode "   | ^"] := by decide +kernel

end Pretty

end SymbolAtlas
