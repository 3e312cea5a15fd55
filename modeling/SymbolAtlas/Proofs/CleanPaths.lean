import SymbolAtlas.Proofs.StoredFiles

set_option autoImplicit false

/-! # Clean paths

The clean form of a path leads where the path leads: its parts, taken one after the other from any
place, end at the same place (`foldl_split_clean`). So it does not matter whether a path is cleaned
before or after it is looked up, nor how often. -/

namespace SymbolAtlas.Path

theorem ne_empty_of_isAbsolute {path : String} (h : isAbsolute path) : path ≠ "" := by
  rintro rfl
  exact absurd h (by decide)

/-! ## Parts -/

theorem slash_not_mem_of_mem_splitOn {glyphs piece : List Char} (h : piece ∈ glyphs.splitOn '/') :
    '/' ∉ piece := by
  induction glyphs generalizing piece with
  | nil =>
      obtain rfl : piece = [] := by simpa using h
      exact List.not_mem_nil
  | cons c glyphs ih =>
      rw [List.splitOn_cons_eq_if_modifyHead] at h
      split at h
      · rcases List.mem_cons.mp h with rfl | h
        · exact List.not_mem_nil
        · exact ih h
      · rename_i hc
        have hne : c ≠ '/' := by simpa using hc
        cases hsplit : glyphs.splitOn '/' with
        | nil => exact absurd hsplit (List.splitOn_ne_nil '/' glyphs)
        | cons first rest =>
            rw [hsplit, List.modifyHead_cons] at h
            rcases List.mem_cons.mp h with rfl | h
            · have hfirst : '/' ∉ first := ih (hsplit ▸ List.mem_cons_self)
              rw [List.mem_cons, not_or]
              exact ⟨hne.symm, hfirst⟩
            · exact ih (hsplit ▸ List.mem_cons_of_mem first h)

theorem slash_not_mem_of_mem_split {path part : String} (h : part ∈ split path) :
    '/' ∉ part.toList := by
  unfold split at h
  obtain ⟨piece, hpiece, rfl⟩ := List.mem_map.mp h
  rw [String.toList_ofList]
  exact slash_not_mem_of_mem_splitOn hpiece

/-- Parts that hold no slash are the parts of the path they are put together to. -/
theorem split_intercalate {parts : List String} (hparts : parts ≠ [])
    (hslash : ∀ part ∈ parts, '/' ∉ part.toList) : split ("/".intercalate parts) = parts := by
  unfold split
  rw [String.toList_intercalate]
  show List.map String.ofList (List.splitOn '/' (['/'].intercalate (parts.map String.toList)))
    = parts
  rw [List.splitOn_intercalate]
  · have hback : String.ofList ∘ String.toList = id := funext fun _ => String.ofList_toList
    rw [List.map_map, hback, List.map_id]
  · intro piece hpiece
    obtain ⟨part, hpart, rfl⟩ := List.mem_map.mp hpiece
    exact hslash part hpart
  · simpa using hparts

namespace Clean

variable {c : Clean} {part : String}

/-! ## Steps -/

theorem step_stay (h : part = "" ∨ part = ".") : step c part = c := by
  unfold step
  rw [if_pos (by simpa using h)]

theorem step_name (hproper : part ≠ "" ∧ part ≠ "." ∧ part ≠ "..") :
    step c part = ⟨c.rooted, c.parts ++ [part]⟩ := by
  unfold step
  rw [if_neg (by simp [hproper]), if_neg (by simp [hproper])]

theorem step_up_none (h : c.parts = []) :
    step c ".." = if c.rooted then c else ⟨c.rooted, [".."]⟩ := by
  unfold step
  rw [if_neg (by decide), if_pos (by decide), h]
  rfl

theorem step_up_up {before : List String} (h : c.parts = before ++ [".."]) :
    step c ".." = ⟨c.rooted, c.parts ++ [".."]⟩ := by
  unfold step
  rw [if_neg (by decide), if_pos (by decide), h, List.getLast?_concat]
  rfl

theorem step_up_name {before : List String} {name : String} (hname : name ≠ "..")
    (h : c.parts = before ++ [name]) : step c ".." = ⟨c.rooted, before⟩ := by
  unfold step
  rw [if_neg (by decide), if_pos (by decide), h, List.getLast?_concat, List.dropLast_concat]
  split
  · rename_i heq
    cases heq
  · rename_i heq
    exact absurd (Option.some.inj heq) hname
  · rfl

/-- **A step, by what it does to the last part.** -/
theorem step_cases (c : Clean) (part : String) :
    ((part = "" ∨ part = ".") ∧ step c part = c) ∨
    (part = ".." ∧ c.parts = [] ∧ step c part = if c.rooted then c else ⟨c.rooted, [".."]⟩) ∨
    (part = ".." ∧ step c part = ⟨c.rooted, c.parts ++ [".."]⟩ ∧
      ∃ before, c.parts = before ++ [".."]) ∨
    (part = ".." ∧ ∃ before name, name ≠ ".." ∧ c.parts = before ++ [name] ∧
      step c part = ⟨c.rooted, before⟩) ∨
    ((part ≠ "" ∧ part ≠ "." ∧ part ≠ "..") ∧ step c part = ⟨c.rooted, c.parts ++ [part]⟩) := by
  by_cases hstay : part = "" ∨ part = "."
  · exact .inl ⟨hstay, step_stay hstay⟩
  by_cases hup : part = ".."
  · subst hup
    rcases List.eq_nil_or_concat' c.parts with hnil | ⟨before, name, hparts⟩
    · exact .inr (.inl ⟨rfl, hnil, step_up_none hnil⟩)
    by_cases hname : name = ".."
    · subst hname
      exact .inr (.inr (.inl ⟨rfl, step_up_up hparts, before, hparts⟩))
    · exact .inr (.inr (.inr (.inl ⟨rfl, before, name, hname, hparts, step_up_name hname hparts⟩)))
  · have hproper : part ≠ "" ∧ part ≠ "." ∧ part ≠ ".." :=
      ⟨fun h => hstay (.inl h), fun h => hstay (.inr h), hup⟩
    exact .inr (.inr (.inr (.inr ⟨hproper, step_name hproper⟩)))

theorem rooted_step : (step c part).rooted = c.rooted := by
  rcases step_cases c part with ⟨-, h⟩ | ⟨-, -, h⟩ | ⟨-, h, -⟩ | ⟨-, _, _, -, -, h⟩ | ⟨-, h⟩
    <;> rw [h]
  split <;> rfl

theorem rooted_foldl_step (parts : List String) : (parts.foldl step c).rooted = c.rooted := by
  induction parts generalizing c with
  | nil => rfl
  | cons part parts ih => rw [List.foldl_cons, ih, rooted_step]

/-- A part after a step was there before or is the one that was taken. -/
theorem mem_parts_step {q : String} (h : q ∈ (step c part).parts) :
    q ∈ c.parts ∨ q = part ∧ q ≠ "" ∧ q ≠ "." := by
  rcases step_cases c part with ⟨-, heq⟩ | ⟨rfl, -, heq⟩ | ⟨rfl, heq, -⟩ |
    ⟨-, before, name, -, hparts, heq⟩ | ⟨hproper, heq⟩ <;> rw [heq] at h
  · exact .inl h
  · split at h
    · exact .inl h
    · obtain rfl := List.mem_singleton.mp h
      exact .inr ⟨rfl, by decide, by decide⟩
  · rcases List.mem_append.mp h with h | h
    · exact .inl h
    · obtain rfl := List.mem_singleton.mp h
      exact .inr ⟨rfl, by decide, by decide⟩
  · exact .inl (hparts ▸ List.mem_append_left [name] h)
  · rcases List.mem_append.mp h with h | h
    · exact .inl h
    · obtain rfl := List.mem_singleton.mp h
      exact .inr ⟨rfl, hproper.1, hproper.2.1⟩

theorem mem_parts_foldl_step {parts : List String} {q : String}
    (h : q ∈ (parts.foldl step c).parts) : q ∈ c.parts ∨ q ∈ parts ∧ q ≠ "" ∧ q ≠ "." := by
  induction parts generalizing c with
  | nil => exact .inl h
  | cons part parts ih =>
      rw [List.foldl_cons] at h
      rcases ih h with h | ⟨hmem, hproper⟩
      · rcases mem_parts_step h with h | ⟨rfl, hproper⟩
        · exact .inl h
        · exact .inr ⟨List.mem_cons_self, hproper⟩
      · exact .inr ⟨List.mem_cons_of_mem part hmem, hproper⟩

/-- **The clean parts lead where the parts lead**, from every place; those of a rooted path from the
root. -/
theorem foldl_parts {rooted : Bool} {place : Clean} (hroot : rooted = true → place = ⟨true, []⟩)
    (parts : List String) :
    (parts.foldl step ⟨rooted, []⟩).parts.foldl step place = parts.foldl step place := by
  -- the induction takes the last part off, as it is the one that a step may take back
  induction parts using List.reverseRecOn with
  | nil => rfl
  | append_singleton parts part ih =>
      have hrooted : (parts.foldl step ⟨rooted, []⟩).rooted = rooted := rooted_foldl_step parts
      have hproper : ∀ q ∈ (parts.foldl step ⟨rooted, []⟩).parts, q ≠ "" ∧ q ≠ "." := by
        intro q hq
        rcases mem_parts_foldl_step hq with h | h
        · cases h
        · exact h.2
      rw [List.foldl_concat, List.foldl_concat, ← ih]
      generalize parts.foldl step ⟨rooted, []⟩ = c at hrooted hproper
      rcases step_cases c part with ⟨hstay, heq⟩ | ⟨rfl, hnil, heq⟩ | ⟨rfl, heq, -⟩ |
        ⟨rfl, before, name, hname, hparts, heq⟩ | ⟨-, heq⟩ <;> rw [heq]
      · rw [step_stay hstay]
      · rw [hnil, hrooted]
        cases rooted with
        | false => rfl
        | true =>
            rw [hroot rfl, if_pos rfl, hnil]
            rfl
      · rw [List.foldl_concat]
      · have hlast := hproper name (hparts ▸ List.mem_append_right before List.mem_cons_self)
        have hback := step_up_name (c := step (before.foldl step place) name) hname
          (by rw [step_name ⟨hlast.1, hlast.2, hname⟩])
        rw [hparts, List.foldl_concat, hback, rooted_step]
      · rw [List.foldl_concat]

end Clean

/-! ## Clean texts -/

theorem split_slash (path : String) : split ("/" ++ path) = "" :: split path := by
  have hsplit := split_append "" path
  rw [String.empty_append] at hsplit
  exact hsplit

namespace Clean

/-- A path's clean parts, each of them a name or `..`. -/
def Named (c : Clean) : Prop :=
  ∀ part ∈ c.parts, part ≠ "" ∧ '/' ∉ part.toList

variable {c : Clean}

theorem named_ofText (path : String) : (ofText path).Named := by
  intro part hpart
  rcases mem_parts_foldl_step hpart with h | ⟨hmem, hproper⟩
  · cases h
  · exact ⟨hproper.1, slash_not_mem_of_mem_split hmem⟩

/-- The text of a path leads where its parts lead. -/
theorem foldl_split_toText (hnamed : c.Named) (place : Clean) :
    (split c.toText).foldl step place = c.parts.foldl step place := by
  have hbody : (split ("/".intercalate c.parts)).foldl step place = c.parts.foldl step place := by
    by_cases hempty : c.parts = []
    · rw [hempty]
      exact step_stay (.inl rfl)
    · rw [split_intercalate hempty fun part hpart => (hnamed part hpart).2]
  unfold toText
  dsimp only
  split
  · rw [split_slash, List.foldl_cons, step_stay (.inl rfl), hbody]
  · split
    · rename_i hempty
      rw [List.isEmpty_iff.mp hempty]
      exact step_stay (.inr rfl)
    · exact hbody

theorem isAbsolute_toText (hnamed : c.Named) : isAbsolute c.toText = c.rooted := by
  unfold toText
  dsimp only
  split
  · rename_i hrooted
    rw [hrooted]
    unfold isAbsolute
    rw [String.toList_append]
    rfl
  · rename_i hrooted
    rw [Bool.eq_false_iff.mpr hrooted]
    -- the first part is a name, so the text does not start with a slash
    cases hparts : c.parts with
    | nil => rfl
    | cons first rest =>
        obtain ⟨hfull, hslash⟩ := hnamed first (hparts ▸ List.mem_cons_self)
        unfold isAbsolute
        rw [List.isEmpty_cons, if_neg (by decide), String.toList_intercalate]
        cases hglyphs : first.toList with
        | nil => exact absurd (String.toList_eq_nil_iff.mp hglyphs) hfull
        | cons glyph glyphs =>
            have hglyph : glyph ≠ '/' := by
              rintro rfl
              exact hslash (hglyphs ▸ List.mem_cons_self)
            cases rest <;> simp [List.intercalate, hglyphs, hglyph]

end Clean

theorem isAbsolute_clean (path : String) : isAbsolute (clean path) = isAbsolute path := by
  unfold clean
  rw [Clean.isAbsolute_toText (Clean.named_ofText path)]
  exact Clean.rooted_foldl_step (split path)

/-- **A clean path leads where the path leads**, from every place; a rooted one from the root. -/
theorem foldl_split_clean {path : String} {place : Clean}
    (hroot : isAbsolute path = true → place = ⟨true, []⟩) :
    (split (clean path)).foldl Clean.step place = (split path).foldl Clean.step place := by
  unfold clean
  rw [Clean.foldl_split_toText (Clean.named_ofText path)]
  exact Clean.foldl_parts hroot (split path)

theorem ofText_clean (path : String) : Clean.ofText (clean path) = Clean.ofText path := by
  unfold Clean.ofText
  rw [isAbsolute_clean]
  exact foldl_split_clean fun h => by rw [h]

theorem clean_clean (path : String) : clean (clean path) = clean path := by
  show (Clean.ofText (clean path)).toText = (Clean.ofText path).toText
  rw [ofText_clean]

/-- A name is added to a clean path with a slash before it. -/
theorem Clean.toText_concat {c : Clean} (hparts : c.parts ≠ []) (name : String) :
    Clean.toText ⟨c.rooted, c.parts ++ [name]⟩ = c.toText ++ "/" ++ name := by
  have hbody : "/".intercalate (c.parts ++ [name]) = "/".intercalate c.parts ++ "/" ++ name := by
    rw [String.intercalate_append_of_ne_nil hparts (List.cons_ne_nil name []),
      String.intercalate_singleton]
  unfold toText
  dsimp only
  rw [hbody]
  split
  · simp only [String.append_assoc]
  · rw [if_neg (by simp), if_neg (by simpa using hparts)]

end SymbolAtlas.Path

/-! ## Paths in a world -/

namespace SymbolAtlas

open SymbolAtlas.Path

namespace World

variable {w : World} {path : String}

/-- The place that a path names by text alone. -/
def named (w : World) (path : String) : List String :=
  (Clean.ofText (w.rooted path)).parts

theorem ofText_rooted (hcwd : w.workingDir ≠ "") (path : String) : Clean.ofText (w.rooted path)
    = (split path).foldl Clean.step
        (if isAbsolute path then ⟨true, []⟩ else Clean.ofText w.workingDir) := by
  unfold rooted
  split
  · rename_i habsolute
    unfold Clean.ofText
    rw [habsolute]
  · exact Clean.ofText_append hcwd path

theorem isAbsolute_rooted (hcwd : isAbsolute w.workingDir) (path : String) :
    isAbsolute (w.rooted path) := by
  unfold rooted
  split
  · assumption
  · rw [isAbsolute_append (ne_empty_of_isAbsolute hcwd), hcwd]

theorem named_clean (hcwd : w.workingDir ≠ "") (path : String) :
    w.named (clean path) = w.named path := by
  unfold named
  rw [ofText_rooted hcwd, ofText_rooted hcwd, isAbsolute_clean]
  rw [foldl_split_clean fun habsolute => by rw [habsolute, if_pos rfl]]

theorem rooted_append (hpath : path ≠ "") (name : String) :
    w.rooted (path ++ "/" ++ name) = w.rooted path ++ "/" ++ name := by
  unfold rooted
  rw [isAbsolute_append hpath]
  split
  · rfl
  · simp only [String.append_assoc]

/-- A name that is added to a path names the place below. -/
theorem named_name {name : String} (hpath : path ≠ "") (hslash : '/' ∉ name.toList)
    (hproper : name ≠ "" ∧ name ≠ "." ∧ name ≠ "..") :
    w.named (path ++ "/" ++ name) = w.named path ++ [name] := by
  have hrooted : w.rooted path ≠ "" := by
    unfold rooted
    split
    · exact hpath
    · simp [String.append_eq_empty_iff]
  unfold named
  rw [rooted_append hpath, Clean.ofText_append hrooted, split_of_not_mem hslash]
  show (Clean.step _ name).parts = _
  rw [Clean.step_name hproper]

end World

end SymbolAtlas
