import SymbolAtlas.Source.FileSet
import Mathlib.Data.List.DropRight
import Mathlib.Tactic

set_option autoImplicit false

/-! # Lines and columns

A position is found by halving the list of newline offsets again and again. Reading the bytes before
the offset one by one gives the same (`Scanned`): the line counts the newlines, and the column
counts bytes from `LineStart`, where the line starts. `resolve_scan` says so for every file that a
run can hold and every offset, past the end of the file too, and that positions keep the order of
offsets. -/

namespace SymbolAtlas

namespace Text.Bytes

/-! ## Where a line starts -/

/-- **The start of the line that an offset lies on**: the front, or the place right after a newline,
with no newline from there on. -/
structure LineStart (bytes : List UInt8) (offset start : Nat) : Prop where
  le : start ≤ offset
  after : start = 0 ∨ bytes[start - 1]? = some newline
  clear : ∀ i, start ≤ i → i < offset → bytes[i]? ≠ some newline

/-- A start that lies further on would have a newline before it. -/
theorem LineStart.le_of_le {bytes : List UInt8} {a b s t : Nat} (hs : LineStart bytes a s)
    (ht : LineStart bytes b t) (hab : a ≤ b) : s ≤ t := by
  by_contra hlt
  rcases hs.after with h0 | hnl
  · omega
  · have hsa := hs.le
    exact ht.clear (s - 1) (by omega) (by omega) hnl

theorem LineStart.unique {bytes : List UInt8} {offset s t : Nat} (hs : LineStart bytes offset s)
    (ht : LineStart bytes offset t) : s = t :=
  Nat.le_antisymm (hs.le_of_le ht le_rfl) (ht.le_of_le hs le_rfl)

theorem lineStart_concat (bytes : List UInt8) (b : UInt8) :
    lineStart (bytes ++ [b]) = if b = newline then bytes.length + 1 else lineStart bytes := by
  unfold lineStart
  rw [List.reverse_append, List.reverse_singleton, List.singleton_append, List.dropWhile_cons]
  by_cases hb : b = newline
  · simp [hb]
  · simp [hb]

theorem lineStart_le (bytes : List UInt8) : lineStart bytes ≤ bytes.length := by
  unfold lineStart
  simpa using (List.dropWhile_sublist (fun b => b != newline) (l := bytes.reverse)).length_le

theorem lineStart_spec (bytes : List UInt8) : LineStart bytes bytes.length (lineStart bytes) := by
  induction bytes using List.reverseRecOn with
  | nil => exact ⟨le_rfl, Or.inl rfl, fun i _ hi => absurd hi (Nat.not_lt_zero i)⟩
  | append_singleton bytes b ih =>
      rw [lineStart_concat]
      split
      · -- a newline at the end starts a line behind it
        rename_i hb
        refine ⟨by simp, Or.inr ?_, ?_⟩
        · rw [Nat.add_sub_cancel, List.getElem?_concat_length, hb]
        · intro i hi hlt
          rw [List.length_append, List.length_singleton] at hlt
          omega
      · rename_i hb
        have hle := lineStart_le bytes
        refine ⟨by simp; omega, ?_, ?_⟩
        · rcases ih.after with h0 | hnl
          · exact Or.inl h0
          · exact Or.inr
              ((List.getElem?_append_left (List.getElem?_eq_some_iff.mp hnl).1).trans hnl)
        · intro i hi hlt
          rw [List.length_append, List.length_singleton] at hlt
          rcases Nat.lt_or_ge i bytes.length with hlt' | hge
          · rw [List.getElem?_append_left hlt']
            exact ih.clear i hi hlt'
          · obtain rfl : i = bytes.length := by omega
            rw [List.getElem?_concat_length]
            exact fun h => hb (Option.some.inj h)

/-- The start of an offset's line is told by the bytes before the offset. -/
theorem lineStart_take (bytes : List UInt8) (offset : Nat) :
    LineStart bytes offset (lineStart (bytes.take offset)) := by
  have h := lineStart_spec (bytes.take offset)
  have hle := lineStart_le (bytes.take offset)
  rw [List.length_take] at hle
  refine ⟨by omega, ?_, ?_⟩
  · rcases h.after with h0 | hnl
    · exact Or.inl h0
    · by_cases h0 : lineStart (bytes.take offset) = 0
      · exact Or.inl h0
      · rw [List.getElem?_take_of_lt (by omega)] at hnl
        exact Or.inr hnl
  · intro i hi hlt hnl
    have hlen := (List.getElem?_eq_some_iff.mp hnl).1
    refine h.clear i hi (by rw [List.length_take]; omega) ?_
    rwa [List.getElem?_take_of_lt hlt]

/-! ## The offsets of the newlines -/

theorem newlineOffsets_append (offset : Nat) (xs ys : List UInt8) :
    newlineOffsets offset (xs ++ ys)
      = newlineOffsets offset xs ++ newlineOffsets (offset + xs.length) ys := by
  induction xs generalizing offset with
  | nil => rfl
  | cons b xs ih =>
      have hlen : offset + (b :: xs).length = offset + 1 + xs.length := by
        rw [List.length_cons]
        omega
      rw [hlen, List.cons_append, newlineOffsets, newlineOffsets, ih]
      split <;> rfl

theorem bounds_of_mem_newlineOffsets {offset n : Nat} {bytes : List UInt8}
    (h : n ∈ newlineOffsets offset bytes) : offset ≤ n ∧ n < offset + bytes.length := by
  induction bytes generalizing offset with
  | nil => cases h
  | cons b bytes ih =>
      rw [newlineOffsets] at h
      rw [List.length_cons]
      have hrest : n ∈ newlineOffsets (offset + 1) bytes → offset ≤ n ∧
          n < offset + (bytes.length + 1) := by
        intro h
        have := ih h
        omega
      split at h
      · rcases List.mem_cons.mp h with rfl | h
        · omega
        · exact hrest h
      · exact hrest h

theorem length_newlineOffsets (offset : Nat) (bytes : List UInt8) :
    (newlineOffsets offset bytes).length = bytes.count newline := by
  induction bytes generalizing offset with
  | nil => rfl
  | cons b bytes ih =>
      rw [newlineOffsets, List.count_cons]
      split
      · rw [List.length_cons, ih]
      · rw [ih, Nat.add_zero]

/-- The last newline stands right before the start of the last line. -/
theorem getLast?_newlineOffsets (bytes : List UInt8) : (newlineOffsets 0 bytes).getLast?
    = if lineStart bytes = 0 then none else some (lineStart bytes - 1) := by
  induction bytes using List.reverseRecOn with
  | nil => rfl
  | append_singleton bytes b ih =>
      rw [newlineOffsets_append, lineStart_concat, newlineOffsets, newlineOffsets, Nat.zero_add]
      by_cases hb : b = newline
      · simp [hb]
      · simp [hb, ih]

theorem count_eq_zero_iff (bytes : List UInt8) :
    bytes.count newline = 0 ↔ lineStart bytes = 0 := by
  rw [← length_newlineOffsets 0, List.length_eq_zero_iff, ← List.getLast?_eq_none_iff,
    getLast?_newlineOffsets]
  split <;> simp_all

/-- **Two offsets have the same number of newlines before them** exactly if there is none between
them. -/
theorem count_take_eq_iff (bytes : List UInt8) {a b : Nat} (hab : a ≤ b) :
    (bytes.take a).count newline = (bytes.take b).count newline ↔
      ∀ i, a ≤ i → i < b → bytes[i]? ≠ some newline := by
  have htake : bytes.take b = bytes.take a ++ (bytes.drop a).take (b - a) := by
    conv_lhs => rw [← Nat.add_sub_cancel' hab, List.take_add]
  have hnone : (bytes.take a).count newline = (bytes.take b).count newline ↔
      newline ∉ (bytes.drop a).take (b - a) := by
    rw [htake, List.count_append, ← List.count_eq_zero]
    omega
  rw [hnone]
  constructor
  · intro hnot i hi hlt hnewline
    refine hnot (List.mem_of_getElem? (i := i - a) ?_)
    rw [List.getElem?_take_of_lt (by omega), List.getElem?_drop, Nat.add_sub_cancel' hi, hnewline]
  · intro hclear hmem
    obtain ⟨i, hi⟩ := List.mem_iff_getElem?.mp hmem
    have hlt : i < b - a := by
      have := (List.getElem?_eq_some_iff.mp hi).1
      rw [List.length_take] at this
      omega
    rw [List.getElem?_take_of_lt hlt, List.getElem?_drop] at hi
    exact hclear (a + i) (Nat.le_add_right _ _) (by omega) hi

end Text.Bytes

/-! ## Halving -/

/-- **Halving finds the place that parts the small entries from the others.** The place stays in the
window, which gets smaller with every step. -/
theorem lowerBound_eq {a : Array UInt32} {x : UInt32} {n : Nat}
    (hbelow : ∀ i v, i < n → a[i]? = some v → v < x)
    (habove : ∀ i v, n ≤ i → a[i]? = some v → ¬ v < x)
    {fuel lo hi : Nat} (hlo : lo ≤ n) (hhi : n ≤ hi) (hsize : hi ≤ a.size)
    (hfuel : hi - lo < fuel) :
    lowerBound a x fuel lo hi = n := by
  induction fuel generalizing lo hi with
  | zero => omega
  | succ fuel ih =>
      rw [lowerBound]
      by_cases hlt : lo < hi
      · rw [if_pos hlt]
        have hmid : (lo + hi) / 2 < a.size := by omega
        have hv : a[(lo + hi) / 2]? = some a[(lo + hi) / 2] := Array.getElem?_eq_getElem hmid
        simp only [hv]
        split
        · rename_i hless
          -- the entry in the middle lies below, so the window moves up
          have hmidn : (lo + hi) / 2 < n := by
            by_contra hge
            exact habove _ _ (by omega) hv hless
          exact ih (by omega) hhi hsize (by omega)
        · rename_i hnless
          -- the entry in the middle is not below, so the window ends there
          have hnmid : n ≤ (lo + hi) / 2 := by
            by_contra hge
            exact hnless (hbelow _ _ (by omega) hv)
          exact ih hlo hnmid (by omega) (by omega)
      · rw [if_neg hlt]
        omega

namespace File

open Text.Bytes

theorem newlines_ofContent (id : UInt32) (path : String) (content : List UInt8) (flags : FileFlags)
    (offset : Nat) : (ofContent id path content flags).newlines.toList
      = (newlineOffsets 0 (content.take offset)).map UInt32.ofNat ++
        (newlineOffsets (content.take offset).length (content.drop offset)).map UInt32.ofNat := by
  show (newlineOffsets 0 content).map UInt32.ofNat = _
  conv_lhs => rw [← List.take_append_drop offset content]
  rw [newlineOffsets_append, List.map_append, Nat.zero_add]

/-- Halving finds the number of newlines before an offset. -/
theorem lowerBound_newlines (id : UInt32) (path : String) {content : List UInt8} (flags : FileFlags)
    (h : content.length < 2 ^ 32) (offset : UInt32) :
    lowerBound (ofContent id path content flags).newlines offset
      ((ofContent id path content flags).newlines.size + 1) 0
      (ofContent id path content flags).newlines.size
      = (content.take offset.toNat).count newline := by
  have hoffsets := newlines_ofContent id path content flags offset.toNat
  set a := (ofContent id path content flags).newlines
  set xs := content.take offset.toNat with hxs
  set ys := content.drop offset.toNat with hys
  have hlen : content.length = xs.length + ys.length := by
    rw [← List.length_append, hxs, hys, List.take_append_drop]
  have hxlen : xs.length ≤ offset.toNat := List.length_take_le _ _
  have hcount : ((newlineOffsets 0 xs).map UInt32.ofNat).length = xs.count newline := by
    rw [List.length_map, length_newlineOffsets]
  have hle : xs.count newline ≤ a.size := by
    rw [← Array.length_toList, hoffsets, List.length_append, hcount]
    exact Nat.le_add_right _ _
  have hbelow : ∀ i v, i < xs.count newline → a[i]? = some v → v < offset := by
    intro i v hi hv
    rw [← Array.getElem?_toList, hoffsets, List.getElem?_append_left (by omega)] at hv
    obtain ⟨m, hm, rfl⟩ := List.mem_map.mp (List.mem_of_getElem? hv)
    have hbounds := bounds_of_mem_newlineOffsets hm
    rw [UInt32.lt_iff_toNat_lt, UInt32.toNat_ofNat', Nat.mod_eq_of_lt (by omega)]
    omega
  have habove : ∀ i v, xs.count newline ≤ i → a[i]? = some v → ¬ v < offset := by
    intro i v hi hv
    rw [← Array.getElem?_toList, hoffsets, List.getElem?_append_right (by omega)] at hv
    obtain ⟨m, hm, rfl⟩ := List.mem_map.mp (List.mem_of_getElem? hv)
    have hbounds := bounds_of_mem_newlineOffsets hm
    -- there are bytes from the offset on, so it lies within the text
    have hoff : xs.length = offset.toNat := by
      rw [hxs, List.length_take] at hbounds ⊢
      rw [hys, List.length_drop] at hbounds
      omega
    rw [UInt32.lt_iff_toNat_lt, UInt32.toNat_ofNat', Nat.mod_eq_of_lt (by omega)]
    omega
  exact lowerBound_eq hbelow habove (Nat.zero_le _) hle le_rfl (by omega)

/-- The entry before the place that is found is the last newline before the offset. -/
theorem newline_before (id : UInt32) (path : String) {content : List UInt8} (flags : FileFlags)
    {offset : Nat} (h : lineStart (content.take offset) ≠ 0) :
    (ofContent id path content flags).newlines[(content.take offset).count newline - 1]?
      = some (UInt32.ofNat (lineStart (content.take offset) - 1)) := by
  have hcount : ((newlineOffsets 0 (content.take offset)).map UInt32.ofNat).length
      = (content.take offset).count newline := by
    rw [List.length_map, length_newlineOffsets]
  have hpos : (content.take offset).count newline ≠ 0 := fun h0 => h ((count_eq_zero_iff _).mp h0)
  rw [← Array.getElem?_toList, newlines_ofContent id path content flags offset,
    List.getElem?_append_left (by omega), ← hcount, ← List.getLast?_eq_getElem?, List.getLast?_map,
    getLast?_newlineOffsets, if_neg h]
  rfl

/-- **The position of an offset is that of a plain scan.** -/
theorem position_ofContent (id : UInt32) (path : String) {content : List UInt8} (flags : FileFlags)
    (h : content.length < 2 ^ 32) (offset : UInt32) :
    (ofContent id path content flags).position offset
      = ⟨UInt32.ofNat (1 + (content.take offset.toNat).count newline),
          offset - UInt32.ofNat (lineStart (content.take offset.toNat)) + 1⟩ := by
  unfold position
  dsimp only
  rw [lowerBound_newlines id path flags h offset]
  split
  · rename_i h0
    rw [h0, (count_eq_zero_iff _).mp h0]
    simp
  · rename_i hpos
    have hstart : lineStart (content.take offset.toNat) ≠ 0 :=
      fun h0 => hpos ((count_eq_zero_iff _).mpr h0)
    have hnext : UInt32.ofNat (lineStart (content.take offset.toNat) - 1) + 1
        = UInt32.ofNat (lineStart (content.take offset.toNat)) := by
      conv_rhs => rw [← Nat.sub_add_cancel (Nat.one_le_iff_ne_zero.mpr hstart)]
      exact (UInt32.ofNat_add _ _).symm
    rw [newline_before id path flags hstart, Option.getD_some, hnext, Nat.add_comm]

end File

/-! ## Files of a run -/

/-- **The file sets of a run.** Files are added one by one; each is shorter than 2^32 bytes, and
there are fewer than 2^32 of them. -/
inductive FileSet.Filled : FileSet → Prop where
  | empty : Filled {}
  | add {fs : FileSet} (path : String) (content : List UInt8) (flags : FileFlags) :
      Filled fs → content.length < 2 ^ 32 → fs.files.size + 1 < 2 ^ 32 →
      Filled (fs.add path content flags).2

theorem FileSet.Filled.file {fs : FileSet} (h : fs.Filled) {id : UInt32} {f : File}
    (hf : fs.get? id = some f) :
    f.content.length < 2 ^ 32 ∧ f = File.ofContent id f.path f.content f.flags := by
  induction h with
  | empty =>
      unfold get? at hf
      split at hf <;> simp at hf
  | @add fs path content flags hfs hlen hsize ih =>
      unfold get? at hf ih
      by_cases hid : id = 0
      · rw [if_pos hid] at hf
        cases hf
      · rw [if_neg hid] at hf ih
        dsimp only [FileSet.add] at hf
        rw [Array.getElem?_push] at hf
        split at hf
        · rename_i hplace
          obtain rfl := Option.some.inj hf
          have hpos : id.toNat ≠ 0 := fun h0 => hid (UInt32.toNat_inj.mp h0)
          have hself : UInt32.ofNat (fs.files.size + 1) = id := by
            rw [← hplace, Nat.sub_add_cancel (Nat.one_le_iff_ne_zero.mpr hpos), UInt32.ofNat_toNat]
          rw [hself]
          exact ⟨hlen, rfl⟩
        · exact ih hf

theorem FileSet.Filled.length_digest {fs : FileSet} (h : fs.Filled) {id : UInt32} {f : File}
    (hf : fs.get? id = some f) : f.digest.length = 32 := by
  rw [(h.file hf).2]
  exact Digest.Sha256.length_hash f.content

open Text.Bytes

/-- **A position that a plain scan gives.** The line is one more than the number of newlines before
the offset, and the column counts from the start of the line; both are 32-bit. -/
structure Scanned (content : List UInt8) (offset : UInt32) (p : Position) : Prop where
  line : p.line.toNat = (1 + (content.take offset.toNat).count newline) % 2 ^ 32
  column : ∃ start, LineStart content offset.toNat start ∧
    p.column.toNat = (offset.toNat - start + 1) % 2 ^ 32

theorem FileSet.Filled.position {fs : FileSet} (h : fs.Filled) {id : UInt32} {f : File}
    (hf : fs.get? id = some f) (offset : UInt32) :
    Scanned f.content offset (f.position offset) := by
  obtain ⟨hlen, hself⟩ := h.file hf
  rw [hself, File.position_ofContent id f.path f.flags hlen offset]
  have hstart := lineStart_take f.content offset.toNat
  have hle := hstart.le
  have hlt := offset.toNat_lt
  refine ⟨UInt32.toNat_ofNat', _, hstart, ?_⟩
  have hsmall : (UInt32.ofNat (lineStart (f.content.take offset.toNat))).toNat
      = lineStart (f.content.take offset.toNat) := by
    rw [UInt32.toNat_ofNat', Nat.mod_eq_of_lt (by omega)]
  rw [UInt32.toNat_add,
    UInt32.toNat_sub_of_le _ _ (by rw [UInt32.le_iff_toNat_le, hsmall]; exact hle), hsmall]
  rfl

theorem Scanned.small {content : List UInt8} {offset : UInt32} {p : Position}
    (h : Scanned content offset p) (hlt : offset.toNat < 2 ^ 32 - 1) :
    p.line.toNat = 1 + (content.take offset.toNat).count newline ∧
    ∃ start, LineStart content offset.toNat start ∧ p.column.toNat = offset.toNat - start + 1 := by
  have hcount : (content.take offset.toNat).count newline ≤ offset.toNat :=
    List.count_le_length.trans (List.length_take_le _ _)
  obtain ⟨start, hstart, hcolumn⟩ := h.column
  refine ⟨?_, start, hstart, ?_⟩
  · rw [h.line, Nat.mod_eq_of_lt (by omega)]
  · rw [hcolumn, Nat.mod_eq_of_lt (by omega)]

/-- Two offsets with the same number of newlines before them are on one line. -/
theorem Text.Bytes.LineStart.eq_of_count {content : List UInt8} {a b s t : Nat} (hab : a ≤ b)
    (hs : LineStart content a s) (ht : LineStart content b t)
    (hcount : (content.take a).count newline = (content.take b).count newline) : s = t := by
  have hnone := (Text.Bytes.count_take_eq_iff content hab).mp hcount
  have hsb : LineStart content b s := by
    refine ⟨hs.le.trans hab, hs.after, ?_⟩
    intro i hi hib
    rcases Nat.lt_or_ge i a with hia | hai
    · exact hs.clear i hi hia
    · exact hnone i hai hib
  exact hsb.unique ht

theorem FileSet.resolve_of_get? {fs : FileSet} {span : Span} {f : File}
    (h : fs.get? span.file = some f) :
    fs.resolve span = (f.position span.start, f.position span.stop) := by
  unfold resolve
  rw [h]

/-- **Positions are those of a plain scan.** In a file of a run every span resolves to the positions
that counting newlines and bytes gives for its ends. Below the last offset of 32 bits the offset is
had back from the start of its line and its column, and a smaller offset stands on an earlier line
or in an earlier column of the same line. -/
theorem FileSet.resolve_scan {fs : FileSet} (h : fs.Filled) {id : UInt32} {f : File}
    (hf : fs.get? id = some f) :
    (∀ span : Span, span.file = id → Scanned f.content span.start (fs.resolve span).1 ∧
      Scanned f.content span.stop (fs.resolve span).2) ∧
    (∀ offset stop : UInt32, offset.toNat < 2 ^ 32 - 1 →
      (fs.resolve ⟨id, offset, stop⟩).1.line.toNat
        = 1 + (f.content.take offset.toNat).count newline ∧
      ∃ start, LineStart f.content offset.toNat start ∧
        start + (fs.resolve ⟨id, offset, stop⟩).1.column.toNat - 1 = offset.toNat) ∧
    ∀ a b : UInt32, a < b → b.toNat < 2 ^ 32 - 1 →
      (fs.resolve ⟨id, a, b⟩).1.line < (fs.resolve ⟨id, a, b⟩).2.line ∨
      (fs.resolve ⟨id, a, b⟩).1.line = (fs.resolve ⟨id, a, b⟩).2.line ∧
        (fs.resolve ⟨id, a, b⟩).1.column < (fs.resolve ⟨id, a, b⟩).2.column := by
  have hposition := h.position hf
  refine ⟨?_, ?_, ?_⟩
  · rintro span rfl
    rw [resolve_of_get? hf]
    exact ⟨hposition span.start, hposition span.stop⟩
  · intro offset stop hlt
    rw [resolve_of_get? hf]
    obtain ⟨hline, start, hstart, hcolumn⟩ := (hposition offset).small hlt
    have hle := hstart.le
    refine ⟨hline, start, hstart, ?_⟩
    dsimp only
    omega
  · intro a b hab hlt
    rw [resolve_of_get? hf]
    dsimp only
    rw [UInt32.lt_iff_toNat_lt] at hab
    obtain ⟨hlineA, s, hs, hcolumnA⟩ := (hposition a).small (by omega)
    obtain ⟨hlineB, t, ht, hcolumnB⟩ := (hposition b).small hlt
    have hmono : (f.content.take a.toNat).count newline ≤ (f.content.take b.toNat).count newline :=
      (List.take_sublist_take_left hab.le).count_le newline
    rcases Nat.lt_or_eq_of_le hmono with hless | heq
    · left
      rw [UInt32.lt_iff_toNat_lt]
      omega
    · right
      -- on one line the columns count from one start
      obtain rfl := hs.eq_of_count hab.le ht heq
      have hsa := hs.le
      refine ⟨UInt32.toNat_inj.mp (by omega), ?_⟩
      rw [UInt32.lt_iff_toNat_lt]
      omega

/-- Two letters, an empty line and two letters, as the one file of a file set. -/
def threeLines : FileSet :=
  (FileSet.addVirtual {} "lines" [0x61, 0x62, 0x0A, 0x0A, 0x63, 0x64]).2

theorem filled_threeLines : threeLines.Filled :=
  .add "lines" _ .inMemory .empty (by decide) (by decide)

theorem file_threeLines : ∃ f, threeLines.get? 1 = some f ∧
    f.content = [0x61, 0x62, 0x0A, 0x0A, 0x63, 0x64] :=
  ⟨_, rfl, rfl⟩

/-- On the empty line, in the last line and past the end. -/
theorem FileSet.resolve_scan_threeLines : threeLines.Filled ∧ ∃ f, threeLines.get? 1 = some f ∧
    (Scanned f.content 3 ⟨2, 1⟩ ∧ Scanned f.content 9 ⟨3, 6⟩) ∧
    (∃ start, LineStart f.content 5 start ∧ start + 2 - 1 = 5) ∧
    ((⟨2, 1⟩ : Position).line < (⟨3, 2⟩ : Position).line) := by
  obtain ⟨f, hf, -⟩ := file_threeLines
  obtain ⟨hscan, hback, horder⟩ := FileSet.resolve_scan filled_threeLines hf
  have hspan : threeLines.resolve ⟨1, 3, 9⟩ = (⟨2, 1⟩, ⟨3, 6⟩) := by decide
  have hletter : (threeLines.resolve ⟨1, 5, 6⟩).1 = ⟨3, 2⟩ := by decide
  have hpair : threeLines.resolve ⟨1, 3, 5⟩ = (⟨2, 1⟩, ⟨3, 2⟩) := by decide
  refine ⟨filled_threeLines, f, hf, ?_, ?_, ?_⟩
  · have h := hscan ⟨1, 3, 9⟩ rfl
    rwa [hspan] at h
  · have h := (hback 5 6 (by decide)).2
    rwa [hletter] at h
  · have h := horder 3 5 (by decide) (by decide)
    rw [hpair] at h
    rcases h with h | h
    · exact h
    · exact absurd h.1 (by decide)

end SymbolAtlas
