import SymbolAtlas.Files.Load
import SymbolAtlas.Proofs.Snippets
import SymbolAtlas.Proofs.StoredFiles

set_option autoImplicit false

/-! # Carriage returns

Some editors end a line with a carriage return and a newline. Such a return is dropped when a file
is read, and nothing else is: each line but the last loses one return at its end
(`lines_dropReturns`), and lone returns stay. Writing a return before every newline is undone by
this (`dropReturns_withReturns`), also if the text had such returns before. So it does not matter
with which line ends a file was saved (`load_withReturns`).

Proofs about a text go line by line (`lineInduction`): a text is one unended line, or a line, a
newline and a text. -/

namespace SymbolAtlas

namespace Text.Bytes

/-- The byte that may stand before a newline. -/
def carriageReturn : UInt8 := 0x0D

/-- The text with a carriage return put before every newline. -/
def withReturns (bytes : List UInt8) : List UInt8 :=
  bytes.flatMap fun b => if b = newline then [carriageReturn, newline] else [b]

/-- A line without one carriage return at its end, if there is one. -/
def trimReturn (line : List UInt8) : List UInt8 :=
  if line.getLast? = some carriageReturn then line.dropLast else line

theorem trimReturn_concat (line : List UInt8) : trimReturn (line ++ [carriageReturn]) = line := by
  simp [trimReturn]

/-! ## Line by line -/

/-- **Induction over the lines of a text.** -/
@[elab_as_elim]
theorem lineInduction {motive : List UInt8 → Prop}
    (last : ∀ line, newline ∉ line → motive line)
    (line : ∀ line rest, newline ∉ line → motive rest → motive (line ++ newline :: rest)) :
    ∀ bytes, motive bytes := by
  intro bytes
  by_cases h : newline ∈ bytes
  · obtain ⟨front, rest, heq, hfront⟩ := List.eq_append_cons_of_mem h
    have hlt : rest.length < bytes.length := by
      rw [heq, List.length_append, List.length_cons]
      omega
    rw [heq]
    exact line front rest hfront (lineInduction last line rest)
  · exact last bytes h
termination_by bytes => bytes.length

theorem lines_last {line : List UInt8} (h : newline ∉ line) : lines line = [line] :=
  List.splitOn_eq_singleton h

theorem lines_line {line : List UInt8} (h : newline ∉ line) (rest : List UInt8) :
    lines (line ++ newline :: rest) = line :: lines rest := by
  refine List.splitOnP_append_cons_of_forall_mem (fun b hb => ?_) newline (by simp) rest
  simpa using fun heq : b = newline => h (heq ▸ hb)

theorem dropReturns_last {line : List UInt8} (h : newline ∉ line) : dropReturns line = line := by
  induction line with
  | nil => rfl
  | cons b line ih =>
      have hline : newline ∉ line := fun hmem => h (List.mem_cons_of_mem b hmem)
      have hhead : line.head? ≠ some newline := fun hhead => hline (List.mem_of_head? hhead)
      simp [dropReturns, hhead, ih hline]

/-- **A line loses the return before its newline**, and no other one. -/
theorem dropReturns_line {line : List UInt8} (h : newline ∉ line) (rest : List UInt8) :
    dropReturns (line ++ newline :: rest) = trimReturn line ++ newline :: dropReturns rest := by
  induction line with
  | nil => simp [dropReturns, trimReturn, newline]
  | cons b line ih =>
      have hline : newline ∉ line := fun hmem => h (List.mem_cons_of_mem b hmem)
      rw [List.cons_append, dropReturns, ih hline]
      cases line with
      | nil =>
          -- here the next byte is the newline
          by_cases hb : b = carriageReturn
          · simp [hb, trimReturn, carriageReturn]
          · have hb' : ¬ b = 0x0D := hb
            simp [hb, hb', trimReturn]
      | cons c line =>
          have hc : c ≠ newline := fun heq => hline (heq ▸ List.mem_cons_self)
          have htrim : trimReturn (b :: c :: line) = b :: trimReturn (c :: line) := by
            unfold trimReturn
            rw [List.getLast?_cons_cons]
            split <;> rfl
          rw [htrim]
          simp [hc]

/-- **Dropping the returns keeps the lines**, but for one return at the end of each line that a
newline ends. -/
theorem lines_dropReturns (bytes : List UInt8) : ∃ ended last, lines bytes = ended ++ [last] ∧
    lines (dropReturns bytes) = ended.map trimReturn ++ [last] := by
  induction bytes using lineInduction with
  | last line h =>
      refine ⟨[], line, lines_last h, ?_⟩
      rw [dropReturns_last h, lines_last h]
      rfl
  | line line rest h ih =>
      obtain ⟨ended, last, hlines, hdropped⟩ := ih
      have htrim : newline ∉ trimReturn line := by
        unfold trimReturn
        split
        · exact fun hmem => h (List.mem_of_mem_dropLast hmem)
        · exact h
      refine ⟨line :: ended, last, ?_, ?_⟩
      · rw [lines_line h, hlines]
        rfl
      · rw [dropReturns_line h, lines_line htrim, hdropped]
        rfl

/-! ## When something is dropped -/

theorem return_prefix_iff {b : UInt8} {bytes : List UInt8} :
    [carriageReturn, newline] <+: b :: bytes ↔ b = carriageReturn ∧ bytes.head? = some newline := by
  cases bytes with
  | nil => simp
  | cons c bytes => simp [List.cons_prefix_cons, eq_comm]

/-- Returns are reported iff a return stands right before a newline. -/
theorem hasReturns_iff (bytes : List UInt8) :
    hasReturns bytes = true ↔ [carriageReturn, newline] <:+: bytes := by
  induction bytes with
  | nil => simp [hasReturns]
  | cons b bytes ih =>
      rw [List.infix_cons_iff, return_prefix_iff, ← ih]
      simp [hasReturns, carriageReturn]

theorem dropReturns_sublist (bytes : List UInt8) : (dropReturns bytes).Sublist bytes := by
  induction bytes with
  | nil => exact .slnil
  | cons b bytes ih =>
      rw [dropReturns]
      split
      · exact ih.cons b
      · exact ih.cons_cons b

theorem dropReturns_ne_iff (bytes : List UInt8) :
    dropReturns bytes ≠ bytes ↔ hasReturns bytes = true := by
  induction bytes with
  | nil => simp [dropReturns, hasReturns]
  | cons b bytes ih =>
      rw [dropReturns, hasReturns]
      split
      · rename_i h
        have hlen := (dropReturns_sublist bytes).length_le
        have hne : dropReturns bytes ≠ b :: bytes := by
          intro heq
          rw [heq, List.length_cons] at hlen
          omega
        simp [h, hne]
      · rename_i h
        rw [Bool.not_eq_true] at h
        rw [h, Bool.false_or, ← ih]
        simp

/-! ## Writing the returns -/

theorem withReturns_last {line : List UInt8} (h : newline ∉ line) : withReturns line = line := by
  unfold withReturns
  calc line.flatMap (fun b => if b = newline then [carriageReturn, newline] else [b])
      = line.flatMap (fun b => [b]) :=
        List.flatMap_congr fun b hb => if_neg fun heq : b = newline => h (heq ▸ hb)
    _ = line := List.flatMap_singleton' line

theorem withReturns_line {line : List UInt8} (h : newline ∉ line) (rest : List UInt8) :
    withReturns (line ++ newline :: rest)
      = (line ++ [carriageReturn]) ++ newline :: withReturns rest := by
  have hsplit : withReturns (line ++ newline :: rest)
      = withReturns line ++ carriageReturn :: newline :: withReturns rest := by
    simp [withReturns]
  rw [hsplit, withReturns_last h]
  simp

/-- **Returns that were written before the newlines are dropped again**, and only they. -/
theorem dropReturns_withReturns (bytes : List UInt8) : dropReturns (withReturns bytes) = bytes := by
  induction bytes using lineInduction with
  | last line h => rw [withReturns_last h, dropReturns_last h]
  | line line rest h ih =>
      have hreturn : newline ∉ line ++ [carriageReturn] := by
        rw [List.mem_append, List.mem_singleton]
        rintro (hmem | heq)
        · exact h hmem
        · exact absurd heq (by decide)
      calc dropReturns (withReturns (line ++ newline :: rest))
          = dropReturns ((line ++ [carriageReturn]) ++ newline :: withReturns rest) := by
            rw [withReturns_line h]
        _ = trimReturn (line ++ [carriageReturn]) ++ newline :: dropReturns (withReturns rest) :=
            dropReturns_line hreturn _
        _ = line ++ newline :: rest := by rw [trimReturn_concat, ih]

/-- A text in front of which a newline cannot stand is also in front of the text with returns. -/
theorem prefix_withReturns_iff {front : List UInt8} (hnewline : newline ∉ front)
    (hreturn : carriageReturn ∉ front) (bytes : List UInt8) :
    front <+: withReturns bytes ↔ front <+: bytes := by
  induction front generalizing bytes with
  | nil => simp
  | cons a front ih =>
      have ha : a ≠ newline := fun heq => hnewline (heq ▸ List.mem_cons_self)
      have ha' : a ≠ carriageReturn := fun heq => hreturn (heq ▸ List.mem_cons_self)
      have ih := ih (fun hmem => hnewline (List.mem_cons_of_mem a hmem))
        fun hmem => hreturn (List.mem_cons_of_mem a hmem)
      cases bytes with
      | nil => exact Iff.rfl
      | cons b bytes =>
          by_cases hb : b = newline
          · have hcons : withReturns (b :: bytes)
                = carriageReturn :: newline :: withReturns bytes := by
              simp [withReturns, hb]
            rw [hcons, hb, List.cons_prefix_cons, List.cons_prefix_cons]
            simp [ha, ha']
          · have hcons : withReturns (b :: bytes) = b :: withReturns bytes := by
              simp [withReturns, hb]
            rw [hcons, List.cons_prefix_cons, List.cons_prefix_cons, ih]

/-- The text behind the mark of an editor, if there is one. -/
def unmarked (bytes : List UInt8) : List UInt8 :=
  if byteOrderMark.isPrefixOf bytes then bytes.drop 3 else bytes

/-- Returns before newlines do not hide the mark. -/
theorem unmarked_withReturns (bytes : List UInt8) :
    unmarked (withReturns bytes) = withReturns (unmarked bytes) := by
  have hmark : byteOrderMark.isPrefixOf (withReturns bytes) = byteOrderMark.isPrefixOf bytes := by
    rw [Bool.eq_iff_iff, List.isPrefixOf_iff_prefix, List.isPrefixOf_iff_prefix]
    exact prefix_withReturns_iff (by decide) (by decide) bytes
  unfold unmarked
  rw [hmark]
  split
  · rename_i h
    obtain ⟨rest, rfl⟩ := List.isPrefixOf_iff_prefix.mp h
    rfl
  · rfl

end Text.Bytes

/-! ## Files -/

open Text.Bytes

namespace FileSet

/-- A file that was read holds its text without the mark and without the returns. -/
theorem addRead_eq (fs : FileSet) (path : String) (bytes : List UInt8) : fs.addRead path bytes
    = fs.add path (dropReturns (unmarked bytes))
        (.ofReading (byteOrderMark.isPrefixOf bytes) (hasReturns (unmarked bytes))) := rfl

/-- The file that was added last is found under the number it got. -/
theorem get?_add {fs : FileSet} (h : fs.files.size + 1 < 2 ^ 32) (path : String)
    (content : List UInt8) (flags : FileFlags) :
    (fs.add path content flags).2.get? (fs.add path content flags).1
      = some (.ofContent (fs.add path content flags).1 (Path.clean path) content flags) := by
  have hnumber : (UInt32.ofNat (fs.files.size + 1)).toNat = fs.files.size + 1 := by
    rw [UInt32.toNat_ofNat', Nat.mod_eq_of_lt h]
  have hne : UInt32.ofNat (fs.files.size + 1) ≠ 0 := by
    intro heq
    rw [heq] at hnumber
    exact absurd hnumber (by simp)
  show (if UInt32.ofNat (fs.files.size + 1) = 0 then none
    else (fs.add path content flags).2.files[(UInt32.ofNat (fs.files.size + 1)).toNat - 1]?) = _
  rw [if_neg hne, hnumber, Nat.add_sub_cancel]
  exact Array.getElem?_push_size

/-- Positions do not depend on how a file came to be. -/
theorem resolve_add (fs : FileSet) (path : String) (content : List UInt8) (flags flags' : FileFlags)
    (span : Span) :
    (fs.add path content flags).2.resolve span = (fs.add path content flags').2.resolve span := by
  unfold resolve get?
  dsimp only [add]
  rw [Array.getElem?_push, Array.getElem?_push]
  by_cases h0 : span.file = 0
  · simp [h0]
  by_cases hlast : span.file.toNat - 1 = fs.files.size
  · -- the file that was added last; its position is read from the newlines alone
    simp only [h0, hlast, if_false, if_true]
    rfl
  · simp [h0, hlast]

/-- **A file is kept the same whichever line ends it was saved with.** Dropping returns takes one
return from the end of each line but the last; this is reported, and changes the text, exactly if a
return stands right before a newline; and it takes back what writing a return before every newline
did. So a file that was saved with such returns has the content, the digest and the positions of one
that was made of the text without them, as long as the set has room for it: neither its files nor
the bytes of one of them may be 2^32 or more. -/
theorem load_withReturns (fs : FileSet) (path : String) (w : World) :
    (∀ x, (∃ ended last, lines x = ended ++ [last] ∧
        lines (dropReturns x) = ended.map trimReturn ++ [last]) ∧
      (hasReturns x = true ↔ [carriageReturn, newline] <:+: x) ∧
      (dropReturns x ≠ x ↔ [carriageReturn, newline] <:+: x)) ∧
    (∀ y, dropReturns (withReturns y) = y) ∧
    ∀ y, w.readFile path = .ok (withReturns y) → fs.files.size + 1 < 2 ^ 32 →
      (unmarked y).length < 2 ^ 32 →
      ∃ id fs' f, (load (m := StateM World) fs path).run w = ((.ok id, fs'), w) ∧
        (fs.Filled → fs'.Filled) ∧ fs'.get? id = some f ∧ f.content = unmarked y ∧
        f.digest = Digest.Sha256.hash (unmarked y) ∧
        (fs.addVirtual path (unmarked y)).1 = id ∧
        ∀ span, fs'.resolve span = (fs.addVirtual path (unmarked y)).2.resolve span := by
  refine ⟨fun x => ⟨lines_dropReturns x, hasReturns_iff x, ?_⟩, dropReturns_withReturns, ?_⟩
  · rw [dropReturns_ne_iff, hasReturns_iff]
  intro y hread hroom hshort
  set flags : FileFlags := .ofReading (byteOrderMark.isPrefixOf (withReturns y))
    (hasReturns (unmarked (withReturns y))) with hflags
  have hadd : fs.addRead path (withReturns y) = fs.add path (unmarked y) flags := by
    rw [addRead_eq, ← hflags, unmarked_withReturns, dropReturns_withReturns]
  have hload : (load (m := StateM World) fs path).run w
      = ((.ok (fs.add path (unmarked y) flags).1, (fs.add path (unmarked y) flags).2), w) := by
    show StateT.run (Host.readFile (m := StateM World) path >>= _) w = _
    rw [StateT.run_bind, Cache.Store.run_readFile, hread, ← hadd]
    rfl
  exact ⟨_, _, _, hload, fun hfs => .add path _ flags hfs hshort hroom, get?_add hroom path _ flags,
    rfl, rfl, rfl, resolve_add fs path (unmarked y) flags .inMemory⟩

/-- A text of two lines, of which the first has a return at its end. -/
def mixedLines : List UInt8 := [0x61, 0x0D, 0x0A, 0x62, 0x0A]

/-- A system with one file, in which every newline got a return. -/
def savedWorld : World := { tree := ⟨[(["saved"], .file (withReturns mixedLines))]⟩ }

theorem readFile_savedWorld : savedWorld.readFile "/saved" = .ok (withReturns mixedLines) := by
  have hpath : FileTree.pathFault? "/saved" = none :=
    FileTree.pathFault?_eq_none (by decide) (by decide) (by decide)
  have hname : FileTree.nameFault? "saved" = none :=
    FileTree.nameFault?_eq_none (by decide) (by decide)
  have hsplit : Path.split (savedWorld.rooted "/saved") = ["", "saved"] := by decide
  have hfind : savedWorld.find "/saved" = .ok (.file (withReturns mixedLines)) := by
    unfold World.find World.lookedUp FileTree.find FileTree.place
    rw [hpath]
    show (savedWorld.tree.walk [] (Path.split (savedWorld.rooted "/saved")) >>= _) = _
    rw [hsplit]
    simp [FileTree.walk, FileTree.node?, hname, savedWorld]
    rfl
  unfold World.readFile
  rw [hfind]

/-- The first line ends with two returns in the file, and with one as it is kept. -/
theorem load_withReturns_mixed : savedWorld.readFile "/saved" = .ok (withReturns mixedLines) ∧
    ({} : FileSet).files.size + 1 < 2 ^ 32 ∧ (unmarked mixedLines).length < 2 ^ 32 ∧
    (∃ ended last, lines (withReturns mixedLines) = ended ++ [last] ∧
      lines mixedLines = ended.map trimReturn ++ [last]) ∧
    ∃ id fs' f, (load (m := StateM World) {} "/saved").run savedWorld
      = ((.ok id, fs'), savedWorld) ∧
      fs'.Filled ∧ fs'.get? id = some f ∧ f.content = mixedLines ∧
      f.digest = Digest.Sha256.hash mixedLines ∧
      fs'.resolve ⟨id, 3, 4⟩ = (⟨2, 1⟩, ⟨2, 2⟩) := by
  have hroom : ({} : FileSet).files.size + 1 < 2 ^ 32 := by decide
  have hshort : (unmarked mixedLines).length < 2 ^ 32 := by decide
  obtain ⟨hlines, hback, hfile⟩ := load_withReturns {} "/saved" savedWorld
  obtain ⟨id, fs', f, hrun, hfilled, hget, hcontent, hdigest, hid, hresolve⟩ :=
    hfile mixedLines readFile_savedWorld hroom
    hshort
  have hsplit := (hlines (withReturns mixedLines)).1
  rw [hback mixedLines] at hsplit
  refine ⟨readFile_savedWorld, hroom, hshort, hsplit, id, fs', f, hrun, hfilled .empty, hget,
    hcontent, hdigest, ?_⟩
  rw [hresolve, ← hid]
  decide +kernel

end FileSet

end SymbolAtlas
