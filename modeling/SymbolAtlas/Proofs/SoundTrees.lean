import SymbolAtlas.Proofs.CleanPaths

set_option autoImplicit false

/-! # Sound file trees

In a sound tree everything stands in a directory, so nothing stands below a place where nothing
stands. The operations on a tree are known here by what stands where after them, and all of them
keep trees sound. A walk is told by the directories on its way: it leads where its parts lead by
text alone, and a tree with more or fewer directories can only lead it there or not at all. -/

namespace SymbolAtlas

namespace FileTree

variable {t t' : FileTree} {p q top place : List String} {node : FileNode}

/-- Everything stands in a directory. -/
def Sound (t : FileTree) : Prop :=
  ∀ p, t.node? p ≠ none → t.node? p.dropLast = some .directory

theorem node?_root : t.node? [] = some .directory := rfl

namespace Sound

theorem node?_above (ht : t.Sound) (hq : t.node? q ≠ none) (hle : p <+: q) (hne : p ≠ q) :
    t.node? p = some .directory := by
  -- up from the deeper place, one directory at a time
  induction q using List.reverseRecOn with
  | nil => exact absurd (List.prefix_nil.mp hle) hne
  | append_singleton q name ih =>
      have hparent : t.node? q = some .directory := by simpa using ht _ hq
      rcases List.prefix_concat_iff.mp hle with heq | hbelow
      · exact absurd heq hne
      · by_cases heq : p = q
        · rw [heq, hparent]
        · exact ih (by simp [hparent]) hbelow heq

/-- **Nothing stands below a place where nothing stands.** -/
theorem none_below (ht : t.Sound) (hp : t.node? p = none) (hle : p <+: q) :
    t.node? q = none := by
  by_contra hq
  have hne : p ≠ q := by
    rintro rfl
    exact hq hp
  rw [ht.node?_above hq hle hne] at hp
  cases hp

theorem put (ht : t.Sound) (hparent : t.node? place.dropLast = some .directory)
    (hplace : t.node? place ≠ some .directory) : (t.put place node).Sound := by
  intro p hp
  apply node?_put_of_directory hplace
  by_cases heq : p = place
  · rw [heq, hparent]
  · rw [node?_put_of_ne heq] at hp
    exact ht p hp

end Sound

/-! ## Removal -/

/-- What is removed is gone with all below it; the root stays. -/
theorem node?_remove : (t.remove place).node? p
    = if place <+: p ∧ p ≠ [] then none else t.node? p := by
  unfold node? remove
  rw [lookup_filter_key fun q => !place.isPrefixOf q]
  by_cases hroot : p = []
  · simp [hroot]
  · by_cases hle : place <+: p <;> simp [hroot, hle]

theorem Sound.remove (ht : t.Sound) : (t.remove place).Sound := by
  intro p hp
  rw [node?_remove] at hp ⊢
  split at hp
  · exact absurd rfl hp
  · rename_i hkept
    rw [if_neg, ht p hp]
    rintro ⟨hle, hne⟩
    have hbelow : p ≠ [] := by
      rintro rfl
      exact hne rfl
    exact hkept ⟨hle.trans p.dropLast_prefix, hbelow⟩

/-! ## New directories -/

/-- **Making directories only adds directories where nothing stood**, on the way. -/
theorem node?_makeDirs {rest : List String} (h : t.makeDirs place rest = .ok t') (p : List String) :
    t'.node? p = t.node? p ∨
      t.node? p = none ∧ t'.node? p = some .directory ∧ p <+: place ++ rest := by
  fun_induction t.makeDirs place rest with
  | case1 t place =>
      obtain rfl := Except.ok.inj h
      exact .inl rfl
  | case2 t place part rest next hnode ih => simpa [next] using ih h
  | case3 t place part rest next bytes hnode => cases h
  | case4 t place part rest next cause hnode hfault => cases h
  | case5 t place part rest next hfault hnode ih =>
      have hbelow : next ≠ [] := by simp [next]
      rcases ih h with heq | ⟨hnone, hdir, hle⟩
      · -- the directory of this step is new, every other place is as the step left it
        by_cases hp : p = next
        · subst hp
          refine .inr ⟨hnode, heq.trans (node?_put_self hbelow), ?_⟩
          simp [next]
        · exact .inl (heq.trans (node?_put_of_ne hp))
      · -- what a later step has made was missing before, so it is not the directory of this step
        have hp : p ≠ next := by
          rintro rfl
          rw [node?_put_self hbelow] at hnone
          cases hnone
        rw [node?_put_of_ne hp] at hnone
        exact .inr ⟨hnone, hdir, by simpa [next] using hle⟩

theorem Sound.makeDirs {rest : List String} (ht : t.Sound)
    (hplace : t.node? place = some .directory) (h : t.makeDirs place rest = .ok t') : t'.Sound := by
  fun_induction t.makeDirs place rest with
  | case1 t place =>
      obtain rfl := Except.ok.inj h
      exact ht
  | case2 t place part rest next hnode ih => exact ih ht hnode h
  | case3 t place part rest next bytes hnode => cases h
  | case4 t place part rest next cause hnode hfault => cases h
  | case5 t place part rest next hfault hnode ih =>
      have hbelow : next ≠ [] := by simp [next]
      have hparent : t.node? next.dropLast = some .directory := by simpa [next] using hplace
      exact ih (ht.put hparent (by simp [hnode])) (node?_put_self hbelow) h

theorem node?_makeDirs_self {rest : List String} (hplace : t.node? place = some .directory)
    (h : t.makeDirs place rest = .ok t') : t'.node? (place ++ rest) = some .directory := by
  fun_induction t.makeDirs place rest with
  | case1 t place =>
      obtain rfl := Except.ok.inj h
      rw [List.append_nil, hplace]
  | case2 t place part rest next hnode ih => simpa [next] using ih hnode h
  | case3 t place part rest next bytes hnode => cases h
  | case4 t place part rest next cause hnode hfault => cases h
  | case5 t place part rest next hfault hnode ih =>
      have hbelow : next ≠ [] := by simp [next]
      simpa [next] using ih (node?_put_self hbelow) h

/-- Directories can be made where no file is in their way. -/
theorem exists_makeDirs {rest : List String} (hnames : ∀ part ∈ rest, nameFault? part = none)
    (hfree : ∀ p, p <+: place ++ rest → ∀ bytes, t.node? p ≠ some (.file bytes)) :
    ∃ t', t.makeDirs place rest = .ok t' := by
  induction rest generalizing t place with
  | nil => exact ⟨t, rfl⟩
  | cons part rest ih =>
      have hnames' : ∀ q ∈ rest, nameFault? q = none :=
        fun q hq => hnames q (List.mem_cons_of_mem part hq)
      have hrest : place ++ [part] ++ rest = place ++ part :: rest := by simp
      rw [makeDirs]
      cases hnode : t.node? (place ++ [part]) with
      | none =>
          simp only [hnames part List.mem_cons_self]
          refine ih hnames' fun p hp bytes => ?_
          -- the new directory is no file, and every other place is as before
          by_cases heq : p = place ++ [part]
          · rw [heq, node?_put_self (by simp)]
            simp
          · rw [node?_put_of_ne heq]
            exact hfree p (hrest ▸ hp) bytes
      | some node =>
          cases node with
          | directory =>
              simp only
              exact ih hnames' fun p hp => hfree p (hrest ▸ hp)
          | file bytes => exact absurd hnode (hfree _ (hrest ▸ List.prefix_append _ _) bytes)

/-- **A directory that is removed and made again is empty, and nothing else changes**; only that it
is made again is left open. -/
theorem Sound.node?_remake (ht : t.Sound) (hplace : t.node? place = some .directory)
    (h : (t.remove place).makeDirs [] place = .ok t') (p : List String) :
    t'.node? p = (if place <+: p ∧ p ≠ place then none else t.node? p) ∨ t'.node? p = none := by
  rcases node?_makeDirs h p with heq | ⟨hnone, hdir, hle⟩
  · rw [heq, node?_remove]
    by_cases hbelow : place <+: p
    · by_cases hroot : p = []
      · subst hroot
        obtain rfl := List.prefix_nil.mp hbelow
        simp
      · simp [hbelow, hroot]
    · simp [hbelow]
  · -- above the place nothing was missing
    have hstood : t.node? p ≠ none := by
      rw [List.nil_append] at hle
      intro hmissing
      rw [ht.none_below hmissing hle] at hplace
      cases hplace
    rw [node?_remove] at hnone
    split at hnone
    · rename_i hbelow
      -- the directory itself is the only place that was taken away and lies on the way
      obtain rfl : place = p := hbelow.1.eq_of_length_le hle.length_le
      left
      rw [if_neg (by simp), hdir, hplace]
    · exact absurd hnone hstood

theorem Sound.fewer_remake (ht : t.Sound) (hplace : t.node? place = some .directory)
    (h : (t.remove place).makeDirs [] place = .ok t') (p : List String) :
    t'.node? p = t.node? p ∨ t'.node? p = none := by
  rcases ht.node?_remake hplace h p with heq | hnone
  · split at heq
    · exact .inr heq
    · exact .inl heq
  · exact .inr hnone

/-! ## Walks -/

theorem walk_append (front back : List String) :
    t.walk p (front ++ back) = t.walk p front >>= fun q => t.walk q back := by
  induction front generalizing p with
  | nil => rfl
  | cons part front ih =>
      rw [List.cons_append, walk_cons, walk_cons]
      rcases t.node? p with _ | _ | bytes
      · rfl
      · cases nameFault? part with
        | none => exact ih
        | some cause => rfl
      · rfl

/-- A name at the end of a walk is that of the last place. -/
theorem walk_concat_ok {front : List String} {name : String}
    (hproper : name ≠ "" ∧ name ≠ "." ∧ name ≠ "..") : t.walk p (front ++ [name]) = .ok q ↔
      ∃ above, t.walk p front = .ok above ∧ t.node? above = some .directory ∧
        nameFault? name = none ∧ q = above ++ [name] := by
  have honward : ∀ above, onward above name = above ++ [name] := by
    intro above
    simp [onward, hproper]
  rw [walk_append]
  cases t.walk p front with
  | error cause => simp [bind, Except.bind]
  | ok above =>
      show t.walk above [name] = .ok q ↔ _
      rw [walk_cons_ok, honward, walk, Except.ok.injEq]
      constructor
      · rintro ⟨hdir, hfault, rfl⟩
        exact ⟨above, rfl, hdir, hfault, rfl⟩
      · rintro ⟨_, hsame, hdir, hfault, rfl⟩
        cases hsame
        exact ⟨hdir, hfault, rfl⟩

/-- A walk along names leads below, through the directories that stand there. -/
theorem walk_of_directories {parts : List String}
    (hproper : ∀ part ∈ parts, part ≠ "" ∧ part ≠ "." ∧ part ≠ "..")
    (hnames : ∀ part ∈ parts, nameFault? part = none)
    (hdirs : ∀ r, r <+: p ++ parts → r ≠ p ++ parts → t.node? r = some .directory) :
    t.walk p parts = .ok (p ++ parts) := by
  induction parts generalizing p with
  | nil => rw [List.append_nil, walk]
  | cons part parts ih =>
      have hrest : p ++ [part] ++ parts = p ++ part :: parts := by simp
      have honward : onward p part = p ++ [part] := by
        simp [onward, hproper part List.mem_cons_self]
      refine walk_cons_ok.mpr ⟨hdirs p (List.prefix_append _ _) (by simp),
        hnames part List.mem_cons_self, ?_⟩
      rw [honward, ← hrest]
      exact ih (fun q hq => hproper q (List.mem_cons_of_mem part hq))
        (fun q hq => hnames q (List.mem_cons_of_mem part hq)) (hrest ▸ hdirs)

/-- A place that is walked to is the root or stands below a directory. -/
theorem Sound.node?_dropLast_of_walk {parts : List String} (ht : t.Sound)
    (hp : t.node? p.dropLast = some .directory) (h : t.walk p parts = .ok q) :
    t.node? q.dropLast = some .directory := by
  induction parts generalizing p with
  | nil =>
      obtain rfl := Except.ok.inj h
      exact hp
  | cons part parts ih =>
      obtain ⟨hdir, -, hrest⟩ := walk_cons_ok.mp h
      refine ih ?_ hrest
      unfold onward
      split
      · exact hp
      · split
        · exact ht _ (by simp [hp])
        · rw [List.dropLast_concat, hdir]

theorem step_onward (part : String) (hp : ".." ∉ p) :
    Path.Clean.step ⟨true, p⟩ part = ⟨true, onward p part⟩ ∧ ".." ∉ onward p part := by
  rcases Path.Clean.step_cases ⟨true, p⟩ part with ⟨hstay, heq⟩ | ⟨rfl, hnil, heq⟩ |
    ⟨rfl, -, before, hparts⟩ | ⟨rfl, before, name, -, hparts, heq⟩ | ⟨hproper, heq⟩
  · rw [heq]
    simp [onward, hstay, hp]
  · obtain rfl : p = [] := hnil
    exact ⟨heq, List.not_mem_nil⟩
  · obtain rfl : p = before ++ [".."] := hparts
    exact absurd (List.mem_append_right before List.mem_cons_self) hp
  · obtain rfl : p = before ++ [name] := hparts
    refine ⟨by simp [heq, onward], fun hmem => hp ?_⟩
    exact List.mem_append_left [name] (by simpa [onward] using hmem)
  · rw [heq]
    simp [onward, hproper, hp, hproper.2.2.symm]

/-- **A walk leads where its parts lead by text alone.** -/
theorem foldl_step_of_walk {parts : List String} (hp : ".." ∉ p) (h : t.walk p parts = .ok q) :
    parts.foldl Path.Clean.step ⟨true, p⟩ = ⟨true, q⟩ := by
  induction parts generalizing p with
  | nil =>
      obtain rfl := Except.ok.inj h
      rfl
  | cons part parts ih =>
      obtain ⟨-, -, hrest⟩ := walk_cons_ok.mp h
      obtain ⟨hstep, hnext⟩ := step_onward part hp
      rw [List.foldl_cons, hstep]
      exact ih hnext hrest

theorem prefix_foldl_step {parts : List String} (hp : ".." ∉ p) (hdown : ".." ∉ parts) :
    p <+: (parts.foldl Path.Clean.step ⟨true, p⟩).parts := by
  induction parts generalizing p with
  | nil => exact List.prefix_rfl
  | cons part parts ih =>
      rw [List.mem_cons, not_or] at hdown
      obtain ⟨hstep, hnext⟩ := step_onward part hp
      rw [List.foldl_cons, hstep]
      refine List.IsPrefix.trans ?_ (ih hnext hdown.2)
      unfold onward
      split
      · exact List.prefix_rfl
      · rw [if_neg (Ne.symm hdown.1)]
        exact List.prefix_append p [part]

theorem nameFault?_ne_notFound (name : String) : nameFault? name ≠ some .notFound := by
  unfold nameFault?
  split
  · simp
  · split <;> simp

theorem pathFault?_ne_notFound {path : String} (hfull : path ≠ "") :
    pathFault? path ≠ some .notFound := by
  unfold pathFault?
  rw [if_neg (by simpa using hfull) (c := (path == "") = true)]
  split
  · simp
  · split <;> simp

/-- A walk that does not go up and finds nothing ends above a place where nothing stands. -/
theorem Sound.none_of_walk {parts : List String} (ht : t.Sound) (hp : ".." ∉ p)
    (hdown : ".." ∉ parts) (h : t.walk p parts = .error .notFound) :
    t.node? (parts.foldl Path.Clean.step ⟨true, p⟩).parts = none := by
  induction parts generalizing p with
  | nil => cases h
  | cons part parts ih =>
      cases hnode : t.node? p with
      | none =>
          -- the place that the walk was to lead to is further down
          exact ht.none_below hnode (prefix_foldl_step hp hdown)
      | some node =>
          rw [List.mem_cons, not_or] at hdown
          obtain ⟨hstep, hnext⟩ := step_onward part hp
          rw [walk_cons, hnode] at h
          cases node with
          | file bytes => cases h
          | directory =>
              dsimp only at h
              cases hfault : nameFault? part with
              | some cause =>
                  rw [hfault] at h
                  obtain rfl : cause = .notFound := Except.error.inj h
                  exact absurd hfault (nameFault?_ne_notFound part)
              | none =>
                  rw [hfault] at h
                  rw [List.foldl_cons, hstep]
                  exact ih hnext hdown.2 h

/-- With fewer nodes a walk leads to the same place or nowhere. -/
theorem walk_of_fewer (hfewer : ∀ r, t'.node? r = t.node? r ∨ t'.node? r = none)
    (p parts : List String) :
    t'.walk p parts = t.walk p parts ∨ t'.walk p parts = .error .notFound := by
  induction parts generalizing p with
  | nil => exact .inl rfl
  | cons part parts ih =>
      rw [walk_cons, walk_cons]
      rcases hfewer p with heq | hnone
      · rw [heq]
        rcases t.node? p with _ | _ | bytes
        · exact .inl rfl
        · cases nameFault? part with
          | none => exact ih (onward p part)
          | some cause => exact .inl rfl
        · exact .inl rfl
      · rw [hnone]
        exact .inr rfl

/-- **A walk that leads somewhere after directories were made led there before**, or one of them was
missing. -/
theorem walk_before {parts : List String} (hmade : ∀ r, t'.node? r = some .directory →
      t.node? r = some .directory ∨ t.node? r = none ∧ r <+: top)
    (h : t'.walk p parts = .ok q) : t.walk p parts = .ok q ∨ ∃ r, t.node? r = none ∧ r <+: top := by
  induction parts generalizing p with
  | nil => exact .inl h
  | cons part parts ih =>
      obtain ⟨hdir, hfault, hrest⟩ := walk_cons_ok.mp h
      rcases hmade p hdir with hbefore | hmissing
      · rcases ih hrest with hwalk | hmissing
        · exact .inl (walk_cons_ok.mpr ⟨hbefore, hfault, hwalk⟩)
        · exact .inr hmissing
      · exact .inr ⟨p, hmissing⟩

end FileTree

/-! ## Worlds -/

namespace World

variable {w w' : World} {path name : String} {place : List String} {bytes : List UInt8}
  {node : FileNode}

/-- What is found is what stands where the path leads. -/
theorem find_eq (w : World) (path : String) : w.find path
    = match FileTree.pathFault? path with
      | some cause => .error cause
      | none =>
        match w.tree.place (w.rooted path) with
        | .error cause => .error cause
        | .ok place => (w.tree.node? place).elim (.error .notFound) .ok := by
  unfold find lookedUp FileTree.find
  cases FileTree.pathFault? path with
  | some cause => rfl
  | none =>
      dsimp only [bind, Except.bind]
      cases w.tree.place (w.rooted path) with
      | error cause => rfl
      | ok place => cases hnode : w.tree.node? place <;> simp [hnode]

theorem find_ok_iff : w.find path = .ok node ↔ FileTree.pathFault? path = none ∧
    ∃ place, w.tree.place (w.rooted path) = .ok place ∧ w.tree.node? place = some node := by
  rw [find_eq]
  cases FileTree.pathFault? path with
  | some cause => simp
  | none =>
      cases w.tree.place (w.rooted path) with
      | error cause => simp
      | ok place => cases hnode : w.tree.node? place <;> simp [hnode]

/-- With fewer nodes the same is found at a path or nothing. -/
theorem find_of_fewer {t : FileTree}
    (hfewer : ∀ r, t.node? r = w.tree.node? r ∨ t.node? r = none) (path : String) :
    World.find { w with tree := t } path = w.find path ∨
      World.find { w with tree := t } path = .error .notFound := by
  rw [find_eq, find_eq]
  cases FileTree.pathFault? path with
  | some cause => exact .inl rfl
  | none =>
      -- the walk leads to the same place or meets something that is gone
      rcases FileTree.walk_of_fewer hfewer [] (Path.split (w.rooted path)) with hwalk | hwalk
      · have hplace : t.place (w.rooted path) = w.tree.place (w.rooted path) := hwalk
        rw [show World.rooted { w with tree := t } path = w.rooted path from rfl, hplace]
        cases w.tree.place (w.rooted path) with
        | error cause => exact .inl rfl
        | ok place =>
            rcases hfewer place with hnode | hnode
            · left
              dsimp only
              rw [hnode]
            · right
              dsimp only
              rw [hnode]
              rfl
      · have hplace : t.place (w.rooted path) = .error .notFound := hwalk
        right
        rw [show World.rooted { w with tree := t } path = w.rooted path from rfl, hplace]

/-- The working directory is a path from the root, and everything stands in a directory. -/
structure Sound (w : World) : Prop where
  absolute : Path.isAbsolute w.workingDir
  tree : w.tree.Sound

theorem place_eq_named (hcwd : Path.isAbsolute w.workingDir)
    (h : w.tree.place (w.rooted path) = .ok place) : place = w.named path := by
  have hsteps := FileTree.foldl_step_of_walk List.not_mem_nil h
  unfold named Path.Clean.ofText
  rw [isAbsolute_rooted hcwd, hsteps]

namespace Sound

theorem node?_of_find (hw : w.Sound) (h : w.find path = .ok node) :
    w.tree.node? (w.named path) = some node := by
  obtain ⟨-, place, hplace, hnode⟩ := find_ok_iff.mp h
  rw [← place_eq_named hw.absolute hplace, hnode]

end Sound

theorem makeDirs_of_tree {t : FileTree} (h : w.tree.makeDirs [] (w.named path) = .ok t) :
    w.makeDirs path = (.ok (), { w with tree := t }) := by
  unfold makeDirs
  rw [← named, h]

theorem makeDirs_ok (h : w.makeDirs path = (.ok (), w')) :
    ∃ t, w.tree.makeDirs [] (w.named path) = .ok t ∧ w' = { w with tree := t } := by
  unfold makeDirs at h
  rw [← named] at h
  cases hdirs : w.tree.makeDirs [] (w.named path) with
  | error e => simp [hdirs] at h
  | ok t => exact ⟨t, rfl, by simpa [hdirs] using h.symm⟩

/-- **A file that was written stands where its path leads**, and nothing else changed. -/
theorem writeFile_ok (h : w.writeFile path bytes = (.ok (), w')) :
    ∃ place, w.tree.place (w.rooted path) = .ok place ∧ w.tree.node? place ≠ some .directory ∧
      w' = { w with tree := w.tree.put place (.file bytes) } := by
  unfold writeFile lookedUp at h
  cases hfault : FileTree.pathFault? path with
  | some cause => simp [hfault, bind, Except.bind] at h
  | none =>
      cases hwrite : w.tree.write (w.rooted path) bytes with
      | error cause => simp [hfault, hwrite, bind, Except.bind] at h
      | ok t =>
          obtain ⟨place, hplace, hnode, rfl⟩ := FileTree.exists_place_of_write hwrite
          exact ⟨place, hplace, hnode, by simpa [hfault, hwrite, bind, Except.bind] using h.symm⟩

theorem Sound.makeDirs (hw : w.Sound) (h : w.makeDirs path = (.ok (), w')) : w'.Sound := by
  obtain ⟨t, hdirs, rfl⟩ := makeDirs_ok h
  exact ⟨hw.absolute, hw.tree.makeDirs rfl hdirs⟩

theorem Sound.writeFile (hw : w.Sound) (h : w.writeFile path bytes = (.ok (), w')) : w'.Sound := by
  obtain ⟨place, hplace, hnode, rfl⟩ := writeFile_ok h
  exact ⟨hw.absolute, hw.tree.put (hw.tree.node?_dropLast_of_walk rfl hplace) hnode⟩

theorem removeTree_of_place (hfault : FileTree.pathFault? path = none)
    (hplace : w.tree.place (w.rooted path) = .ok place) : w.removeTree path
      = if (w.tree.node? place).isSome then (.ok true, { w with tree := w.tree.remove place })
        else (.ok false, w) := by
  unfold removeTree lookedUp
  simp only [hfault, bind, Except.bind]
  rw [hplace]

theorem Sound.removeTree_of_find (hw : w.Sound) (h : w.find path = .ok node) :
    w.removeTree path = (.ok true, { w with tree := w.tree.remove (w.named path) }) := by
  obtain ⟨hfault, place, hplace, hnode⟩ := find_ok_iff.mp h
  obtain rfl := place_eq_named hw.absolute hplace
  rw [removeTree_of_place hfault hplace, hnode]
  rfl

theorem removeTree_of_error {cause : FileCause} (hcause : cause ≠ .notFound)
    (h : w.lookedUp path >>= w.tree.place = .error cause) :
    w.removeTree path = (.error ⟨"rename", path, cause⟩, w) := by
  unfold removeTree
  rw [h]
  cases cause with
  | notFound => exact absurd rfl hcause
  | _ => rfl

/-- A removal that succeeds has found its place or that nothing is there. -/
theorem place_of_removeTree {gone : Bool} (hfull : path ≠ "")
    (h : w.removeTree path = (.ok gone, w')) : FileTree.pathFault? path = none ∧
      (w.tree.place (w.rooted path) = .error .notFound ∨
        ∃ place, w.tree.place (w.rooted path) = .ok place) := by
  cases hfault : FileTree.pathFault? path with
  | some cause =>
      have hcause : cause ≠ .notFound := by
        rintro rfl
        exact FileTree.pathFault?_ne_notFound hfull hfault
      rw [removeTree_of_error hcause (by unfold lookedUp; rw [hfault]; rfl)] at h
      cases h
  | none =>
      refine ⟨rfl, ?_⟩
      cases hplace : w.tree.place (w.rooted path) with
      | ok place => exact .inr ⟨place, rfl⟩
      | error cause =>
          by_cases hcause : cause = .notFound
          · exact .inl (by rw [hcause])
          · rw [removeTree_of_error hcause (by unfold lookedUp; rw [hfault]; exact hplace)] at h
            cases h

theorem Sound.removeTree_of_none {gone : Bool} (hw : w.Sound)
    (hnone : w.tree.node? (w.named path) = none) (h : w.removeTree path = (.ok gone, w')) :
    gone = false ∧ w' = w := by
  have hplace : ∀ place, w.lookedUp path >>= w.tree.place = .ok place →
      w.tree.node? place = none := by
    intro place hlook
    unfold lookedUp at hlook
    split at hlook
    · cases hlook
    · rw [place_eq_named hw.absolute hlook, hnone]
  unfold removeTree at h
  split at h
  · rename_i place hlook
    rw [hplace place hlook] at h
    simp only [Option.isSome_none] at h
    cases h
    exact ⟨rfl, rfl⟩
  · cases h
    exact ⟨rfl, rfl⟩
  · cases h

end World

end SymbolAtlas
