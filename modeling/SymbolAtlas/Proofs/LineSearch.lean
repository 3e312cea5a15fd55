import SymbolAtlas.Proofs.LinePositions

set_option autoImplicit false

/-! # Finding lines

The line of a text is found by going forward to the text, back to the newline before it and forward
to the newline after it. `findLine?_whole` says that this is the whole line (`WholeLine`) of the
first occurrence, that there is a line exactly if there is an occurrence, and that both ends of the
line resolve to one line number, the start to its first column. -/

namespace SymbolAtlas

namespace Text.Bytes

/-! ## Occurrences -/

/-- A search that finds something finds the first occurrence. -/
theorem indexOf?_eq_some {needle bytes : List UInt8} {i : Nat}
    (h : indexOf? needle bytes = some i) :
    needle <+: bytes.drop i ∧ ∀ j < i, ¬ needle <+: bytes.drop j := by
  induction bytes generalizing i with
  | nil =>
      rw [indexOf?] at h
      split at h
      · rename_i hempty
        obtain rfl := Option.some.inj h
        obtain rfl := List.isEmpty_iff.mp hempty
        exact ⟨List.nil_prefix, fun j hj => absurd hj (Nat.not_lt_zero j)⟩
      · cases h
  | cons b bytes ih =>
      rw [indexOf?] at h
      split at h
      · rename_i hprefix
        obtain rfl := Option.some.inj h
        exact ⟨List.isPrefixOf_iff_prefix.mp hprefix, fun j hj => absurd hj (Nat.not_lt_zero j)⟩
      · rename_i hnot
        obtain ⟨i, hi, rfl⟩ := Option.map_eq_some_iff.mp h
        obtain ⟨hthere, hfirst⟩ := ih hi
        refine ⟨hthere, fun j hj => ?_⟩
        cases j with
        | zero => exact fun hprefix => hnot (List.isPrefixOf_iff_prefix.mpr hprefix)
        | succ j => exact hfirst j (by omega)

/-- A search that finds nothing leaves no occurrence out. -/
theorem indexOf?_eq_none {needle bytes : List UInt8} (h : indexOf? needle bytes = none) (i : Nat) :
    ¬ needle <+: bytes.drop i := by
  induction bytes generalizing i with
  | nil =>
      rw [indexOf?] at h
      split at h
      · cases h
      · rename_i hne
        rw [List.drop_nil, List.prefix_nil]
        exact fun hnil => hne (List.isEmpty_iff.mpr hnil)
  | cons b bytes ih =>
      rw [indexOf?] at h
      split at h
      · cases h
      · rename_i hnot
        cases i with
        | zero => exact fun hprefix => hnot (List.isPrefixOf_iff_prefix.mpr hprefix)
        | succ i => exact ih (Option.map_eq_none_iff.mp h) i

theorem indexOf?_of_first {needle bytes : List UInt8} {i : Nat} (h : needle <+: bytes.drop i)
    (hfirst : ∀ j < i, ¬ needle <+: bytes.drop j) : indexOf? needle bytes = some i := by
  cases hfound : indexOf? needle bytes with
  | none => exact absurd h (indexOf?_eq_none hfound i)
  | some k =>
      obtain ⟨hk, hkfirst⟩ := indexOf?_eq_some hfound
      rcases Nat.lt_trichotomy k i with hlt | rfl | hgt
      · exact absurd hk (hfirst k hlt)
      · rfl
      · exact absurd h (hkfirst i hgt)

/-- A search from a place on finds the first occurrence from there on. -/
theorem indexOf?_drop_eq_some {needle bytes : List UInt8} {start i : Nat}
    (h : indexOf? needle (bytes.drop start) = some i) : needle <+: bytes.drop (start + i) ∧
      ∀ j, start ≤ j → j < start + i → ¬ needle <+: bytes.drop j := by
  obtain ⟨hthere, hfirst⟩ := indexOf?_eq_some h
  rw [List.drop_drop] at hthere
  refine ⟨hthere, fun j hj hlt hprefix => hfirst (j - start) (by omega) ?_⟩
  rwa [List.drop_drop, Nat.add_sub_cancel' hj]

theorem indexOf?_drop_eq_none {needle bytes : List UInt8} {start j : Nat}
    (h : indexOf? needle (bytes.drop start) = none) (hj : start ≤ j) :
    ¬ needle <+: bytes.drop j := by
  have hnot := indexOf?_eq_none h (j - start)
  rwa [List.drop_drop, Nat.add_sub_cancel' hj] at hnot

theorem le_length_of_prefix_drop {needle bytes : List UInt8} {i : Nat} (hne : needle ≠ [])
    (h : needle <+: bytes.drop i) : i ≤ bytes.length := by
  by_contra hout
  rw [List.drop_eq_nil_of_le (by omega), List.prefix_nil] at h
  exact hne h

/-- A text that stands after a gap does not occur before, if the gap lacks its first byte. -/
theorem not_prefix_in_gap {before gap after needle : List UInt8} {a : UInt8}
    (hhead : needle.head? = some a) (hgap : a ∉ gap) {j : Nat} (hle : before.length ≤ j)
    (hlt : j < before.length + gap.length) :
    ¬ needle <+: (before ++ (gap ++ after)).drop j := by
  rintro ⟨rest, hrest⟩
  have hfirst : (before ++ (gap ++ after))[j]? = some a := by
    rw [← List.head?_drop, ← hrest, List.head?_append, hhead]
    rfl
  rw [List.getElem?_append_right hle, List.getElem?_append_left (by omega)] at hfirst
  exact hgap (List.mem_of_getElem? hfirst)

/-! ## Where a line stops -/

/-- **The stop of the line that an offset lies on**: the end, or the next newline. -/
structure LineStop (bytes : List UInt8) (offset stop : Nat) : Prop where
  le : offset ≤ stop
  le_length : stop ≤ bytes.length
  before : stop = bytes.length ∨ bytes[stop]? = some newline
  clear : ∀ i, offset ≤ i → i < stop → bytes[i]? ≠ some newline

theorem LineStop.unique {bytes : List UInt8} {offset s t : Nat} (hs : LineStop bytes offset s)
    (ht : LineStop bytes offset t) : s = t := by
  have hle : ∀ {s t : Nat}, LineStop bytes offset s → LineStop bytes offset t → s ≤ t := by
    intro s t hs ht
    by_contra hlt
    have hslen := hs.le_length
    rcases ht.before with hend | hnl
    · omega
    · exact hs.clear t ht.le (by omega) hnl
  exact Nat.le_antisymm (hle hs ht) (hle ht hs)

theorem lineEnd_spec (bytes : List UInt8) : LineStop bytes 0 (lineEnd bytes) := by
  unfold lineEnd
  induction bytes with
  | nil => exact ⟨le_rfl, le_rfl, Or.inl rfl, fun i _ hi => absurd hi (Nat.not_lt_zero i)⟩
  | cons b bytes ih =>
      rw [List.takeWhile_cons]
      split
      · rename_i hb
        have hb' : b ≠ newline := by simpa using hb
        rw [List.length_cons]
        refine ⟨Nat.zero_le _, Nat.succ_le_succ ih.le_length, ?_, ?_⟩
        · rcases ih.before with hend | hnl
          · exact Or.inl (congrArg (· + 1) hend)
          · exact Or.inr hnl
        · intro i _ hi
          cases i with
          | zero => simpa using hb'
          | succ i => exact ih.clear i (Nat.zero_le i) (by omega)
      · rename_i hb
        have hb' : b = newline := by simpa using hb
        exact ⟨le_rfl, Nat.zero_le _, Or.inr (by simp [hb']), fun i _ hi =>
          absurd hi (Nat.not_lt_zero i)⟩

/-- The stop of an offset's line is told by the bytes from the offset on. -/
theorem lineEnd_drop {bytes : List UInt8} {offset : Nat} (h : offset ≤ bytes.length) :
    LineStop bytes offset (offset + lineEnd (bytes.drop offset)) := by
  have hspec := lineEnd_spec (bytes.drop offset)
  have hle := hspec.le_length
  rw [List.length_drop] at hle
  refine ⟨Nat.le_add_right _ _, by omega, ?_, ?_⟩
  · rcases hspec.before with hend | hnl
    · left
      rw [hend, List.length_drop]
      omega
    · right
      rwa [List.getElem?_drop] at hnl
  · intro i hi hlt
    have := hspec.clear (i - offset) (Nat.zero_le _) (by omega)
    rwa [List.getElem?_drop, Nat.add_sub_cancel' hi] at this

/-- A text without a newline lies within the line on which it starts. -/
theorem length_le_lineEnd {needle bytes : List UInt8} (h : needle <+: bytes)
    (hline : newline ∉ needle) :
    needle.length ≤ lineEnd bytes := by
  obtain ⟨rest, rfl⟩ := h
  have hall : ∀ b ∈ needle, (b != newline) = true := fun b hb => by
    simpa using fun heq : b = newline => hline (heq ▸ hb)
  unfold lineEnd
  rw [List.takeWhile_append_of_pos hall, List.length_append]
  exact Nat.le_add_right _ _

/-- **A whole line**: no newline within, and one at each end unless the text ends there. -/
structure WholeLine (bytes : List UInt8) (start stop : Nat) : Prop where
  le : start ≤ stop
  stop_le : stop ≤ bytes.length
  after : start = 0 ∨ bytes[start - 1]? = some newline
  before : stop = bytes.length ∨ bytes[stop]? = some newline
  clear : ∀ i, start ≤ i → i < stop → bytes[i]? ≠ some newline

theorem wholeLine {bytes : List UInt8} {offset start stop : Nat}
    (hstart : LineStart bytes offset start) (hstop : LineStop bytes offset stop) :
    WholeLine bytes start stop := by
  refine ⟨hstart.le.trans hstop.le, hstop.le_length, hstart.after, hstop.before, ?_⟩
  intro i hi hlt
  rcases Nat.lt_or_ge i offset with hbefore | hafter
  · exact hstart.clear i hi hbefore
  · exact hstop.clear i hafter hlt

/-- From the start of a line to any place on it the start stays the same. -/
theorem WholeLine.lineStart {bytes : List UInt8} {start stop offset : Nat}
    (h : WholeLine bytes start stop) (hle : start ≤ offset) (hlt : offset ≤ stop) :
    LineStart bytes offset start :=
  ⟨hle, h.after, fun i hi hi' => h.clear i hi (by omega)⟩

theorem WholeLine.lineStop {bytes : List UInt8} {start stop offset : Nat}
    (h : WholeLine bytes start stop) (hle : start ≤ offset) (hlt : offset ≤ stop) :
    LineStop bytes offset stop :=
  ⟨hlt, h.stop_le, h.before, fun i hi hi' => h.clear i (hle.trans hi) hi'⟩

theorem wholeLine_between {before line after : List UInt8}
    (hbefore : before = [] ∨ before.getLast? = some newline) (hline : newline ∉ line)
    (hafter : after = [] ∨ after.head? = some newline) :
    WholeLine (before ++ (line ++ after)) before.length (before.length + line.length) := by
  refine ⟨Nat.le_add_right _ _, by simp [← Nat.add_assoc], ?_, ?_, ?_⟩
  · rcases hbefore with rfl | hlast
    · exact Or.inl rfl
    · right
      have hpos : before.length - 1 < before.length := by
        cases before with
        | nil => cases hlast
        | cons _ _ => simp
      rw [List.getElem?_append_left hpos, ← List.getLast?_eq_getElem?, hlast]
  · rcases hafter with rfl | hhead
    · left
      simp
    · right
      rw [List.getElem?_append_right (Nat.le_add_right _ _), Nat.add_sub_cancel_left,
        List.getElem?_append_right le_rfl, Nat.sub_self, ← List.head?_eq_getElem?, hhead]
  · intro i hi hlt hnewline
    rw [List.getElem?_append_right hi, List.getElem?_append_left (by omega)] at hnewline
    exact hline (List.mem_of_getElem? hnewline)

theorem WholeLine.count_take {bytes : List UInt8} {start stop : Nat}
    (h : WholeLine bytes start stop) :
    (bytes.take start).count newline = (bytes.take stop).count newline :=
  (count_take_eq_iff bytes h.le).mpr h.clear

end Text.Bytes

open Text.Bytes

/-! ## Lines of a file -/

/-- The line of the first occurrence, read off the bytes. -/
theorem File.findLine?_eq (f : File) {needle : List UInt8} (hne : needle ≠ []) {start : UInt32}
    (hstart : start.toNat ≤ f.content.length) : f.findLine? needle start
      = (indexOf? needle (f.content.drop start.toNat)).map fun offset =>
          { file := f.id
            start := UInt32.ofNat (lineStart (f.content.take (start.toNat + offset)))
            stop := UInt32.ofNat (start.toNat + offset +
              lineEnd (f.content.drop (start.toNat + offset))) } := by
  have hgo : ¬ ((needle.isEmpty || f.content.length < start.toNat) = true) := by
    simp [hne, hstart]
  unfold findLine?
  rw [if_neg hgo]
  cases indexOf? needle (f.content.drop start.toNat) <;> rfl

/-- **The line of the first occurrence** is found. -/
theorem File.findLine?_first (f : File) {needle : List UInt8} {cursor : UInt32} {i start stop : Nat}
    (hne : needle ≠ []) (hthere : needle <+: f.content.drop i) (hcursor : cursor.toNat ≤ i)
    (hfirst : ∀ j, cursor.toNat ≤ j → j < i → ¬ needle <+: f.content.drop j)
    (hline : WholeLine f.content start stop) (hstart : start ≤ i) (hstop : i ≤ stop) :
    f.findLine? needle cursor = some ⟨f.id, UInt32.ofNat start, UInt32.ofNat stop⟩ := by
  have hin : i ≤ f.content.length := hstop.trans hline.stop_le
  have hindex : indexOf? needle (f.content.drop cursor.toNat) = some (i - cursor.toNat) := by
    refine indexOf?_of_first ?_ fun j hj => ?_
    · rwa [List.drop_drop, Nat.add_sub_cancel' hcursor]
    · rw [List.drop_drop]
      exact hfirst _ (Nat.le_add_right _ _) (by omega)
  rw [f.findLine?_eq hne (hcursor.trans hin), hindex, Option.map_some, Nat.add_sub_cancel' hcursor,
    (lineStart_take f.content i).unique (hline.lineStart hstart hstop),
    (lineEnd_drop hin).unique (hline.lineStop hstart hstop)]

/-- **The ends of a whole line** resolve to its number, the start to its first column. -/
theorem FileSet.Filled.resolve_wholeLine {fs : FileSet} (h : fs.Filled) {span : Span} {f : File}
    (hf : fs.get? span.file = some f)
    (hline : WholeLine f.content span.start.toNat span.stop.toNat) :
    (fs.resolve span).1.column = 1 ∧ (fs.resolve span).1.line = (fs.resolve span).2.line := by
  rw [resolve_of_get? hf]
  have hp := h.position hf span.start
  have hq := h.position hf span.stop
  refine ⟨UInt32.toNat_inj.mp ?_, UInt32.toNat_inj.mp ?_⟩
  · obtain ⟨s, hs, hcolumn⟩ := hp.column
    obtain rfl := hs.unique (hline.lineStart le_rfl hline.le)
    rw [hcolumn, Nat.sub_self]
    rfl
  · rw [hp.line, hq.line, hline.count_take]

/-- **Finding the line of a text.** A file of a run has such a line exactly if the text occurs at or
after the given place. The line found is the whole line of the first occurrence, which lies within
it. Its start resolves to the first column, and its stop to the same line number. -/
theorem FileSet.findLine?_whole {fs : FileSet} (h : fs.Filled) {id : UInt32} {f : File}
    (hf : fs.get? id = some f) {needle : List UInt8} (hne : needle ≠ []) (hline : newline ∉ needle)
    {start : UInt32} (hstart : start.toNat ≤ f.content.length) :
    ((fs.findLine? id needle start).isSome = true ↔
      ∃ i, start.toNat ≤ i ∧ needle <+: f.content.drop i) ∧
    ∀ span, fs.findLine? id needle start = some span →
      span.file = id ∧ WholeLine f.content span.start.toNat span.stop.toNat ∧
      (∃ i, (start.toNat ≤ i ∧ needle <+: f.content.drop i) ∧
        (∀ j, start.toNat ≤ j → j < i → ¬ needle <+: f.content.drop j) ∧
        span.start.toNat ≤ i ∧ i + needle.length ≤ span.stop.toNat) ∧
      (fs.resolve span).1.column = 1 ∧ (fs.resolve span).1.line = (fs.resolve span).2.line := by
  obtain ⟨hlen, hself⟩ := h.file hf
  have hid : f.id = id := by rw [hself]; rfl
  have hfind : fs.findLine? id needle start = f.findLine? needle start := by
    unfold findLine?
    rw [hf, Option.bind_some]
  rw [hfind, f.findLine?_eq hne hstart]
  cases hindex : indexOf? needle (f.content.drop start.toNat) with
  | none =>
      refine ⟨iff_of_false (by simp) ?_, fun span hspan => by cases hspan⟩
      rintro ⟨i, hi, hthere⟩
      exact indexOf?_drop_eq_none hindex hi hthere
  | some offset =>
      obtain ⟨hthere, hfirst⟩ := indexOf?_drop_eq_some hindex
      set i := start.toNat + offset with hi
      have hle : start.toNat ≤ i := Nat.le_add_right _ _
      have hin : i ≤ f.content.length := le_length_of_prefix_drop hne hthere
      have hs := lineStart_take f.content i
      have he := lineEnd_drop hin
      have hsle := hs.le
      have hele := he.le_length
      -- places in the content are below 2^32, so none of them wraps
      have hstartNat : (UInt32.ofNat (lineStart (f.content.take i))).toNat
          = lineStart (f.content.take i) := by
        rw [UInt32.toNat_ofNat', Nat.mod_eq_of_lt (by omega)]
      have hstopNat : (UInt32.ofNat (i + lineEnd (f.content.drop i))).toNat
          = i + lineEnd (f.content.drop i) := by
        rw [UInt32.toNat_ofNat', Nat.mod_eq_of_lt (by omega)]
      have hwhole : WholeLine f.content (UInt32.ofNat (lineStart (f.content.take i))).toNat
          (UInt32.ofNat (i + lineEnd (f.content.drop i))).toNat := by
        rw [hstartNat, hstopNat]
        exact wholeLine hs he
      refine ⟨iff_of_true rfl ⟨i, hle, hthere⟩, ?_⟩
      intro span hspan
      obtain rfl := Option.some.inj hspan
      refine ⟨hid, hwhole, ⟨i, ⟨hle, hthere⟩, hfirst, ?_, ?_⟩,
        h.resolve_wholeLine (hid ▸ hf) hwhole⟩
      · rwa [hstartNat]
      · rw [hstopNat]
        exact Nat.add_le_add_left (length_le_lineEnd hthere hline) i

/-- The last letters stand on the third line, which starts after both newlines. -/
theorem FileSet.findLine?_whole_threeLines : threeLines.Filled ∧ ∃ f, threeLines.get? 1 = some f ∧
    ([0x64] : List UInt8) ≠ [] ∧ newline ∉ [0x64] ∧ (2 : UInt32).toNat ≤ f.content.length ∧
    threeLines.findLine? 1 [0x64] 2 = some ⟨1, 4, 6⟩ ∧ WholeLine f.content 4 6 ∧
    ¬ ∃ i, 2 ≤ i ∧ [0x61] <+: f.content.drop i := by
  obtain ⟨f, hf, hcontent⟩ := file_threeLines
  have hstart : (2 : UInt32).toNat ≤ f.content.length := by rw [hcontent]; decide
  have hfound : threeLines.findLine? 1 [0x64] 2 = some ⟨1, 4, 6⟩ := by decide
  have hlost : (threeLines.findLine? 1 [0x61] 2).isSome = false := by decide
  have hlast : ([0x64] : List UInt8) ≠ [] ∧ newline ∉ ([0x64] : List UInt8) := by decide
  have hother : ([0x61] : List UInt8) ≠ [] ∧ newline ∉ ([0x61] : List UInt8) := by decide
  have hline := (FileSet.findLine?_whole filled_threeLines hf hlast.1 hlast.2 hstart).2 _ hfound
  have hnone := (FileSet.findLine?_whole filled_threeLines hf hother.1 hother.2 hstart).1
  refine ⟨filled_threeLines, f, hf, hlast.1, hlast.2, hstart, hfound, hline.2.1, ?_⟩
  intro hthere
  rw [hnone.mpr hthere] at hlost
  cases hlost

end SymbolAtlas
