import SymbolAtlas.Proofs.SoundTrees

set_option autoImplicit false

/-! # Entry files

What a store answers for a digest depends on nothing but what stands in the digest's file. A write
for another digest leaves that file as it is (`find_overwrite_other`), and dropping everything takes
it away (`find_dropAll`). In a directory of its own a store can be written and dropped at any
time. -/

namespace SymbolAtlas

open Text

namespace Text.Hex

theorem ofByte_inj {b b' : UInt8} (h : ofByte b = ofByte b') : b = b' := by
  have hdigit : ∀ m < 16, ∀ n < 16, Nat.digitChar m = Nat.digitChar n → m = n := by decide
  obtain ⟨hhigh, hlow, -⟩ : digitChar (b.toNat / 16) = digitChar (b'.toNat / 16) ∧
      digitChar b.toNat = digitChar b'.toNat ∧ True := by simpa [ofByte] using h
  have hhigh := hdigit _ (Nat.mod_lt _ (by omega)) _ (Nat.mod_lt _ (by omega)) hhigh
  have hlow := hdigit _ (Nat.mod_lt _ (by omega)) _ (Nat.mod_lt _ (by omega)) hlow
  have hb := b.toNat_lt
  have hb' := b'.toNat_lt
  exact UInt8.toNat_inj.mp (by omega)

theorem ofBytes_inj {bytes bytes' : List UInt8} (h : ofBytes bytes = ofBytes bytes') :
    bytes = bytes' := by
  have hdigits : bytes.flatMap ofByte = bytes'.flatMap ofByte := String.ofList_injective h
  clear h
  induction bytes generalizing bytes' with
  | nil =>
      cases bytes' with
      | nil => rfl
      | cons b' bytes' => simp [ofByte] at hdigits
  | cons b bytes ih =>
      cases bytes' with
      | nil => simp [ofByte] at hdigits
      | cons b' bytes' =>
          rw [List.flatMap_cons, List.flatMap_cons] at hdigits
          obtain ⟨hfirst, hrest⟩ := List.append_inj hdigits rfl
          rw [ofByte_inj hfirst, ih hrest]

end Text.Hex

namespace Cache.Store

variable {s : Store} {digest other bytes : List UInt8} {w w' : World}

/-! ## Files of digests -/

theorem entryName_inj (h : entryName digest = entryName other) : digest = other := by
  unfold entryName at h
  exact Hex.ofBytes_inj (String.append_left_inj ".mp" |>.mp h)

/-- The directory of the payloads is the clean form of one below the store's. -/
theorem exists_payloadDir (s : Store) : ∃ path, s.payloadDir = Path.clean path ∧
    (Path.Clean.ofText path).parts ≠ [] ∧
    ∀ w : World, w.workingDir ≠ "" → w.named path = w.named s.directory ++ ["closures"] := by
  have hslash : '/' ∉ "closures".toList := by decide
  have hproper : "closures" ≠ "" ∧ "closures" ≠ "." ∧ "closures" ≠ ".." := by decide
  unfold payloadDir Path.join
  by_cases hdir : s.directory = ""
  · -- an empty directory does not count in a join, and is the working directory in a lookup
    refine ⟨"closures", ?_, by decide, fun w hcwd => ?_⟩
    · rw [hdir]
      rfl
    · unfold World.named
      rw [World.ofText_rooted hcwd, World.ofText_rooted hcwd, hdir, Path.split_of_not_mem hslash]
      show (Path.Clean.step _ "closures").parts = _
      rw [Path.Clean.step_name hproper]
      rfl
  · refine ⟨s.directory ++ "/" ++ "closures", ?_, ?_, fun w _ =>
      World.named_name hdir hslash hproper⟩
    · rw [List.dropWhile_cons_of_neg (by simpa using hdir)]
      rfl
    · rw [Path.Clean.ofText_append hdir, Path.split_of_not_mem hslash]
      show (Path.Clean.step _ "closures").parts ≠ _
      rw [Path.Clean.step_name hproper]
      simp

theorem payloadDir_ne_empty (s : Store) : s.payloadDir ≠ "" := by
  obtain ⟨path, hclean, hparts, -⟩ := s.exists_payloadDir
  intro hempty
  apply hparts
  rw [← Path.ofText_clean, ← hclean, hempty]
  rfl

/-- The file of a digest is found by its name in the directory of the payloads. -/
theorem entryPath_eq (s : Store) (digest : List UInt8) :
    s.entryPath digest = s.payloadDir ++ "/" ++ entryName digest := by
  obtain ⟨path, hclean, hparts, -⟩ := s.exists_payloadDir
  rw [← Path.ofText_clean, ← hclean] at hparts
  unfold entryPath
  rw [← entryName, Path.join_name s.payloadDir_ne_empty (slash_not_mem_entryName digest)
    (entryName_proper digest), Path.Clean.toText_concat hparts]
  show Path.clean s.payloadDir ++ "/" ++ entryName digest = _
  rw [hclean, Path.clean_clean]

theorem named_entryPath (s : Store) (digest : List UInt8) (w : World) :
    w.named (s.entryPath digest) = w.named s.payloadDir ++ [entryName digest] := by
  rw [entryPath_eq, World.named_name s.payloadDir_ne_empty (slash_not_mem_entryName digest)
    (entryName_proper digest)]

theorem named_payloadDir (hcwd : w.workingDir ≠ "") :
    w.named s.payloadDir = w.named s.directory ++ ["closures"] := by
  obtain ⟨path, hclean, -, hnamed⟩ := s.exists_payloadDir
  rw [hclean, World.named_clean hcwd, hnamed w hcwd]

theorem nameFault?_entryName (hdigest : digest.length = 32) :
    FileTree.nameFault? (entryName digest) = none := by
  refine FileTree.nameFault?_eq_none (zero_not_mem_entryName digest) ?_
  rw [utf8ByteSize_entryName, hdigest]
  decide

/-- The walk to the file of a digest goes through the directory of the payloads. -/
theorem place_entryPath {t : FileTree} {place : List String} :
    t.place (w.rooted (s.entryPath digest)) = .ok place ↔
      ∃ above, t.place (w.rooted s.payloadDir) = .ok above ∧ t.node? above = some .directory ∧
        FileTree.nameFault? (entryName digest) = none ∧ place = above ++ [entryName digest] := by
  unfold FileTree.place
  rw [entryPath_eq, World.rooted_append s.payloadDir_ne_empty, Path.split_append,
    Path.split_of_not_mem (slash_not_mem_entryName digest),
    FileTree.walk_concat_ok (entryName_proper digest)]

/-- Where the directory of the payloads is walked to, what stands in the file of a digest is
found. -/
theorem find_entryPath (hdigest : digest.length = 32)
    (hfault : FileTree.pathFault? (s.entryPath digest) = none)
    (hway : w.tree.place (w.rooted s.payloadDir) = .ok (w.named s.payloadDir))
    (hdir : w.tree.node? (w.named s.payloadDir) = some .directory) : w.find (s.entryPath digest)
      = (w.tree.node? (w.named (s.entryPath digest))).elim (.error .notFound) .ok := by
  have hplace : w.tree.place (w.rooted (s.entryPath digest))
      = .ok (w.named (s.entryPath digest)) := by
    rw [named_entryPath]
    exact place_entryPath.mpr ⟨_, hway, hdir, nameFault?_entryName hdigest, rfl⟩
  rw [World.find_eq, hfault, hplace]

/-! ## Answers -/

/-- The answer for what is found at the file of a digest. -/
def answer (s : Store) (digest : List UInt8) :
    Except FileCause FileNode → Except FileError (Option StoredPayload)
  | .ok (.file bytes) => .ok (accept? digest bytes)
  | .ok .directory => .ok none
  | .error cause => if cause = .notFound then
      .ok none else .error ⟨"open", s.entryPath digest, cause⟩

/-- **The answer depends on the digest's file alone.** -/
theorem run_get_eq (s : Store) (digest : List UInt8) (w : World) :
    (s.get (m := StateM World) digest).run w
      = (s.answer digest (w.find (s.entryPath digest)), w) := by
  unfold get
  dsimp only
  rw [StateT.run_bind, run_openFile]
  -- what cannot be found cannot be opened, and what was opened is read from the same place
  cases hfind : w.find (s.entryPath digest) with
  | error cause =>
      have hopen : w.openFile (s.entryPath digest)
          = .error ⟨"open", s.entryPath digest, cause⟩ := by
        unfold World.openFile
        rw [hfind]
      rw [hopen]
      rfl
  | ok node =>
      have hopen : w.openFile (s.entryPath digest) = .ok () := by
        unfold World.openFile
        rw [hfind]
      rw [hopen]
      show StateT.run (Host.readFile (m := StateM World) (s.entryPath digest) >>= _) w = _
      rw [StateT.run_bind, run_readFile]
      unfold World.readFile
      rw [hfind]
      cases node <;> rfl

/-- An answer is given where something is found or nothing stands. -/
theorem found_of_answer {found : Except FileCause FileNode} {kept : Option StoredPayload}
    (h : s.answer digest found = .ok kept) :
    found = .error .notFound ∨ ∃ node, found = .ok node := by
  cases found with
  | ok node => exact .inr ⟨node, rfl⟩
  | error cause =>
      unfold answer at h
      by_cases hcause : cause = .notFound
      · exact .inl (by rw [hcause])
      · simp [hcause] at h

/-- An answer where nothing stands is given as nothing is found. -/
theorem find_of_none {kept : Option StoredPayload} (hw : w.Sound)
    (hkept : s.answer digest (w.find (s.entryPath digest)) = .ok kept)
    (hnone : w.tree.node? (w.named (s.entryPath digest)) = none) :
    w.find (s.entryPath digest) = .error .notFound := by
  rcases found_of_answer hkept with hfind | ⟨node, hfind⟩
  · exact hfind
  · rw [hw.node?_of_find hfind] at hnone
    cases hnone

/-! ## Writing -/

/-- What a tree holds after bytes were written to the file of a digest: the file and the directories
on the way to it, apart from what the world held before. -/
structure Overwritten (s : Store) (digest bytes : List UInt8) (w : World) (t : FileTree) :
    Prop where
  sound : t.Sound
  way : t.place (w.rooted s.payloadDir) = .ok (w.named s.payloadDir)
  directory : t.node? (w.named s.payloadDir) = some .directory
  file : t.node? (w.named (s.entryPath digest)) = some (.file bytes)
  others : ∀ p, p ≠ w.named (s.entryPath digest) → t.node? p = w.tree.node? p ∨
    w.tree.node? p = none ∧ t.node? p = some .directory ∧ p <+: w.named s.payloadDir

theorem overwritten (hw : w.Sound)
    (h : (s.overwrite (m := StateM World) digest bytes).run w = (.ok (), w')) :
    ∃ t, w' = { w with tree := t } ∧ s.Overwritten digest bytes w t := by
  obtain ⟨w₁, hdirs, hwrite⟩ := run_overwrite_iff.mp h
  have hsound := (hw.makeDirs hdirs).writeFile hwrite
  obtain ⟨t, hmade, rfl⟩ := World.makeDirs_ok hdirs
  obtain ⟨place, hplace, hnode, rfl⟩ := World.writeFile_ok hwrite
  obtain ⟨above, habove, hdir, -, rfl⟩ := place_entryPath.mp hplace
  have hnamed : above = w.named s.payloadDir :=
    World.place_eq_named (w := { w with tree := t }) hw.absolute habove
  rw [hnamed] at habove hdir hnode hsound ⊢
  refine ⟨_, rfl, hsound.tree, FileTree.walk_put hnode habove,
    FileTree.node?_put_of_directory hnode hdir, ?_, fun p hp => ?_⟩
  · rw [named_entryPath, FileTree.node?_put_self (by simp)]
  · rw [named_entryPath] at hp
    rw [FileTree.node?_put_of_ne hp]
    simpa only [List.nil_append] using FileTree.node?_makeDirs hmade p

/-- Where something stands before a write, its directories stand too. -/
theorem Overwritten.place_before {t : FileTree} (h : s.Overwritten other bytes w t) (hw : w.Sound)
    (hstands : w.tree.node? (w.named (s.entryPath digest)) ≠ none) :
    w.tree.place (w.rooted s.payloadDir) = .ok (w.named s.payloadDir) := by
  have hmade : ∀ p, t.node? p = some .directory →
      w.tree.node? p = some .directory ∨ w.tree.node? p = none ∧ p <+: w.named s.payloadDir := by
    intro p hp
    have hne : p ≠ w.named (s.entryPath other) := by
      intro heq
      rw [heq, h.file] at hp
      cases hp
    rcases h.others p hne with heq | ⟨hnone, -, hle⟩
    · exact .inl (heq ▸ hp)
    · exact .inr ⟨hnone, hle⟩
  rcases FileTree.walk_before hmade h.way with hwalk | ⟨p, hnone, hle⟩
  · exact hwalk
  · rw [named_entryPath] at hstands
    exact absurd (hw.tree.none_below hnone (hle.trans (List.prefix_append _ _))) hstands

theorem Overwritten.node?_other {t : FileTree} (h : s.Overwritten other bytes w t)
    (hne : digest ≠ other) :
    t.node? (w.named (s.entryPath digest)) = w.tree.node? (w.named (s.entryPath digest)) := by
  have hnamed : w.named (s.entryPath digest) ≠ w.named (s.entryPath other) := by
    rw [named_entryPath, named_entryPath]
    simpa using fun hname => hne (entryName_inj hname)
  rcases h.others _ hnamed with heq | ⟨-, -, hle⟩
  · exact heq
  · exact absurd hle.length_le (by simp [named_entryPath])

/-- Before a write, too, what stands in the file of a digest is found, if an answer is given for
it. -/
theorem Overwritten.find_before {t : FileTree} {kept : Option StoredPayload}
    (h : s.Overwritten other bytes w t) (hw : w.Sound) (hdigest : digest.length = 32)
    (hfault : FileTree.pathFault? (s.entryPath digest) = none)
    (hkept : s.answer digest (w.find (s.entryPath digest)) = .ok kept) : w.find (s.entryPath digest)
      = (w.tree.node? (w.named (s.entryPath digest))).elim (.error .notFound) .ok := by
  cases hentry : w.tree.node? (w.named (s.entryPath digest)) with
  | none => exact find_of_none hw hkept hentry
  | some node =>
      have hstands : w.tree.node? (w.named (s.entryPath digest)) ≠ none := by simp [hentry]
      have hdir : w.tree.node? (w.named s.payloadDir) = some .directory := by
        simpa [named_entryPath] using hw.tree _ hstands
      rw [find_entryPath hdigest hfault (h.place_before hw hstands) hdir, hentry]

/-- **A write for another digest leaves the file as it is.** -/
theorem find_overwrite_other {kept : Option StoredPayload} (hw : w.Sound)
    (hdigest : digest.length = 32) (hne : digest ≠ other)
    (hkept : s.answer digest (w.find (s.entryPath digest)) = .ok kept)
    (h : (s.overwrite (m := StateM World) other bytes).run w = (.ok (), w')) :
    w'.find (s.entryPath digest) = w.find (s.entryPath digest) := by
  obtain ⟨t, rfl, htree⟩ := overwritten hw h
  cases hfault : FileTree.pathFault? (s.entryPath digest) with
  | some cause =>
      -- no tree holds a file at such a path
      rw [World.find_eq, World.find_eq, hfault]
  | none =>
      calc World.find { w with tree := t } (s.entryPath digest)
          = (t.node? (w.named (s.entryPath digest))).elim (.error .notFound) .ok :=
            find_entryPath hdigest hfault htree.way htree.directory
        _ = (w.tree.node? (w.named (s.entryPath digest))).elim (.error .notFound) .ok := by
            rw [htree.node?_other hne]
        _ = w.find (s.entryPath digest) := (htree.find_before hw hdigest hfault hkept).symm

/-! ## Dropping -/

/-- The directory is found by its text, if it stands at all. It could not be dropped otherwise: the
text `gone/../here` leads nowhere once `gone` is not there, whatever its clean form leads to.
Directories whose text does not go up are always found (`found_of_dropAll`). -/
def Found (s : Store) (w : World) : Prop :=
  w.find s.directory = .ok .directory ∨ w.tree.node? (w.named s.directory) = none

theorem run_dropAll (s : Store) (w : World) : (s.dropAll (m := StateM World)).run w
    = match w.removeTree s.directory with
      | (.error e, w₁) => (.error e, w₁)
      | (.ok false, w₁) => (.ok (), w₁)
      | (.ok true, w₁) => w₁.makeDirs s.directory := by
  have hremove : (Host.removeTree (m := StateM World) s.directory).run w
      = w.removeTree s.directory := run_modifyWorld (·.removeTree s.directory) w
  unfold dropAll
  rw [StateT.run_bind, hremove]
  rcases w.removeTree s.directory with ⟨e | _ | _, w₁⟩
  · rfl
  · rfl
  · exact run_makeDirs s.directory w₁

/-- A directory that is found is removed and made again. -/
theorem dropAll_of_find (hw : w.Sound) (hfind : w.find s.directory = .ok .directory)
    (h : (s.dropAll (m := StateM World)).run w = (.ok (), w')) : ∃ t, w' = { w with tree := t } ∧
      (w.tree.remove (w.named s.directory)).makeDirs [] (w.named s.directory) = .ok t := by
  rw [run_dropAll, hw.removeTree_of_find hfind] at h
  obtain ⟨t, hmade, rfl⟩ := World.makeDirs_ok h
  exact ⟨t, rfl, hmade⟩

/-- Where no directory stands nothing is dropped. -/
theorem dropAll_of_none (hw : w.Sound) (hnone : w.tree.node? (w.named s.directory) = none)
    (h : (s.dropAll (m := StateM World)).run w = (.ok (), w')) : w' = w := by
  rw [run_dropAll] at h
  rcases hremove : w.removeTree s.directory with ⟨e | gone, w₁⟩
  · rw [hremove] at h
    cases h
  · obtain ⟨rfl, rfl⟩ := hw.removeTree_of_none hnone hremove
    rw [hremove] at h
    exact (congrArg Prod.snd h).symm

/-- **A directory whose text does not go up is found whenever it can be dropped.** -/
theorem found_of_dropAll (hw : w.Sound) (hdown : ".." ∉ Path.split (w.rooted s.directory))
    (hfull : s.directory ≠ "")
    (hfree : ∀ bytes, w.tree.node? (w.named s.directory) ≠ some (.file bytes))
    (h : (s.dropAll (m := StateM World)).run w = (.ok (), w')) : s.Found w := by
  rw [run_dropAll] at h
  rcases hremove : w.removeTree s.directory with ⟨e | gone, w₁⟩
  · rw [hremove] at h
    cases h
  · obtain ⟨hfault, hmissing | ⟨place, hplace⟩⟩ := World.place_of_removeTree hfull hremove
    · have hnone := hw.tree.none_of_walk List.not_mem_nil hdown hmissing
      right
      unfold World.named Path.Clean.ofText
      rw [World.isAbsolute_rooted hw.absolute, hnone]
    · have hnamed := World.place_eq_named hw.absolute hplace
      cases hnode : w.tree.node? (w.named s.directory) with
      | none => exact .inr hnode
      | some node =>
          cases node with
          | file bytes => exact absurd hnode (hfree bytes)
          | directory => exact .inl (World.find_ok_iff.mpr ⟨hfault, place, hplace, hnamed ▸ hnode⟩)

/-- The files of the digests stand below the store's directory. -/
theorem named_entryPath_below (hw : w.Sound) (s : Store) (digest : List UInt8) :
    w.named s.directory <+: w.named (s.entryPath digest) ∧
    w.named (s.entryPath digest) ≠ w.named s.directory := by
  rw [named_entryPath, named_payloadDir (Path.ne_empty_of_isAbsolute hw.absolute)]
  constructor
  · exact (List.prefix_append _ _).trans (List.prefix_append _ _)
  · simp

/-- **What is dropped is no longer found.** -/
theorem find_dropAll {kept : Option StoredPayload} (hw : w.Sound)
    (hkept : s.answer digest (w.find (s.entryPath digest)) = .ok kept) (hfound : s.Found w)
    (h : (s.dropAll (m := StateM World)).run w = (.ok (), w')) :
    w'.Sound ∧ w'.find (s.entryPath digest) = .error .notFound := by
  have hbelow := named_entryPath_below hw s digest
  rcases hfound with hfind | hnone
  · obtain ⟨t, rfl, hmade⟩ := dropAll_of_find hw hfind h
    have hsound : World.Sound { w with tree := t } :=
      ⟨hw.absolute, hw.tree.remove.makeDirs rfl hmade⟩
    have hdir := hw.node?_of_find hfind
    have hgone : t.node? (w.named (s.entryPath digest)) = none := by
      simpa [hbelow] using hw.tree.node?_remake hdir hmade (w.named (s.entryPath digest))
    refine ⟨hsound, ?_⟩
    -- the way is the same or ends early, and at its end nothing stands
    rcases World.find_of_fewer (hw.tree.fewer_remake hdir hmade) (s.entryPath digest)
      with heq | hnone
    · rw [← heq] at hkept
      exact find_of_none hsound hkept hgone
    · exact hnone
  · obtain rfl := dropAll_of_none hw hnone h
    exact ⟨hw, find_of_none hw hkept (hw.tree.none_below hnone hbelow.1)⟩

/-! ## Fresh stores -/

def fresh : Store := ⟨"/cache"⟩

theorem named_fresh (w : World) : w.named fresh.directory = ["cache"] := by
  show (Path.Clean.ofText (w.rooted "/cache")).parts = _
  unfold World.rooted
  rw [if_pos (by decide)]
  decide

theorem payloadDir_fresh : fresh.payloadDir = "/cache/closures" := by decide

theorem named_payloadDir_fresh (w : World) : w.named fresh.payloadDir = ["cache", "closures"] := by
  rw [payloadDir_fresh]
  unfold World.named World.rooted
  rw [if_pos (by decide)]
  decide

theorem nameFault?_fresh : ∀ part ∈ ["cache", "closures"], FileTree.nameFault? part = none := by
  intro part hpart
  fin_cases hpart <;> exact FileTree.nameFault?_eq_none (by decide) (by decide)

theorem pathFault?_entryPath_fresh (hdigest : digest.length = 32) :
    FileTree.pathFault? (fresh.entryPath digest) = none := by
  rw [entryPath_eq, payloadDir_fresh]
  refine FileTree.pathFault?_eq_none ?_ ?_ ?_
  · simp [zero_not_mem_entryName digest]
  · simp
  · have hfront : ("/cache/closures" ++ "/").utf8ByteSize = 16 := by decide
    rw [String.utf8ByteSize_append, hfront, utf8ByteSize_entryName, hdigest]
    decide

theorem aboveSlashed?_entryPath (w : World) (s : Store) (digest : List UInt8) :
    FileTree.aboveSlashed? (w.rooted (s.entryPath digest)) = none := by
  unfold FileTree.aboveSlashed?
  rw [entryPath_eq, World.rooted_append s.payloadDir_ne_empty, Path.split_append,
    Path.split_of_not_mem (slash_not_mem_entryName digest)]
  simp [entryName_proper digest]

theorem named_entryPath_fresh (w : World) (digest : List UInt8) :
    w.named (fresh.entryPath digest) = ["cache", "closures", entryName digest] := by
  rw [named_entryPath, named_payloadDir_fresh]
  rfl

/-- The directories of the fresh store are walked to where they stand. -/
theorem walk_fresh {t : FileTree} {place : List String} (ht : t.Sound)
    (hplace : place <+: ["cache", "closures"]) (hstands : t.node? place ≠ none) :
    t.walk [] ("" :: place) = .ok place := by
  show t.walk [] place = _
  refine FileTree.walk_of_directories (p := []) (fun part hpart => ?_) (fun part hpart => ?_)
    fun r hle hne => ht.node?_above hstands hle hne
  · have hpart := hplace.subset hpart
    fin_cases hpart <;> decide
  · exact nameFault?_fresh part (hplace.subset hpart)

/-- A world has room for the fresh store: no file is in the way of its directories, and no directory
in that of a digest's file. -/
structure Roomy (w : World) : Prop where
  sound : w.Sound
  free : ∀ p, p <+: ["cache", "closures"] → ∀ bytes, w.tree.node? p ≠ some (.file bytes)
  entries : ∀ digest, w.tree.node? ["cache", "closures", entryName digest] ≠ some .directory

theorem roomy_empty : Roomy {} := by
  have hnode : ∀ p, FileTree.node? {} p = if p = [] then some .directory else none := by
    intro p
    cases p <;> rfl
  refine ⟨⟨rfl, fun p hp => ?_⟩, fun p _ bytes => ?_, fun digest => ?_⟩
  · rw [hnode] at hp
    split at hp
    · rename_i hroot
      rw [hroot]
      rfl
    · exact absurd rfl hp
  · rw [hnode]
    split <;> simp
  · rw [hnode, if_neg (by simp)]
    simp

theorem Roomy.overwritten {t : FileTree} (hroom : Roomy w)
    (ht : fresh.Overwritten digest bytes w t) : Roomy { w with tree := t } := by
  -- the only new file is the entry, and what is new otherwise is a directory
  have hfile := ht.file
  have hothers := ht.others
  rw [named_entryPath_fresh] at hfile hothers
  rw [named_payloadDir_fresh] at hothers
  refine ⟨⟨hroom.sound.absolute, ht.sound⟩, fun p hle file => ?_, fun other => ?_⟩ <;> dsimp only
  · have hne : p ≠ ["cache", "closures", entryName digest] := by
      rintro rfl
      exact absurd hle.length_le (by simp)
    rcases hothers p hne with heq | ⟨-, hdir, -⟩
    · rw [heq]
      exact hroom.free p hle file
    · rw [hdir]
      simp
  · by_cases hother : entryName other = entryName digest
    · rw [hother, hfile]
      simp
    · rcases hothers ["cache", "closures", entryName other] (by simpa using hother)
        with heq | ⟨-, -, hle⟩
      · rw [heq]
        exact hroom.entries other
      · exact absurd hle.length_le (by simp)

theorem Roomy.fewer {t : FileTree} (hroom : Roomy w) (hsound : t.Sound)
    (hfewer : ∀ p, t.node? p = w.tree.node? p ∨ t.node? p = none) : Roomy { w with tree := t } := by
  have hbefore : ∀ p node, t.node? p = some node → w.tree.node? p = some node := by
    intro p node h
    rcases hfewer p with heq | hnone
    · rw [← heq, h]
    · rw [hnone] at h
      cases h
  exact ⟨⟨hroom.sound.absolute, hsound⟩, fun p hle bytes h =>
    hroom.free p hle bytes (hbefore _ _ h), fun digest h => hroom.entries digest (hbefore _ _ h)⟩

/-- **The fresh store can be written wherever there is room for it.** -/
theorem exists_overwrite_fresh (hroom : Roomy w) (hdigest : digest.length = 32)
    (bytes : List UInt8) :
    ∃ w', (fresh.overwrite (m := StateM World) digest bytes).run w = (.ok (), w') ∧ Roomy w' := by
  -- the directories are made first, and then the way to the entry leads through them
  obtain ⟨t, hmade⟩ : ∃ t, w.tree.makeDirs [] ["cache", "closures"] = .ok t :=
    FileTree.exists_makeDirs nameFault?_fresh hroom.free
  have hdirs : w.makeDirs fresh.payloadDir = (.ok (), { w with tree := t }) :=
    World.makeDirs_of_tree (named_payloadDir_fresh w ▸ hmade)
  have hdir : t.node? ["cache", "closures"] = some .directory :=
    FileTree.node?_makeDirs_self FileTree.node?_root hmade
  have hway : t.place (w.rooted fresh.payloadDir) = .ok ["cache", "closures"] := by
    have hsplit : Path.split "/cache/closures" = "" :: ["cache", "closures"] := by decide
    unfold FileTree.place World.rooted
    rw [payloadDir_fresh, if_pos (by decide), hsplit]
    exact walk_fresh (hroom.sound.tree.makeDirs rfl hmade) List.prefix_rfl (by simp [hdir])
  have hplace := place_entryPath.mpr ⟨_, hway, hdir, nameFault?_entryName hdigest, rfl⟩
  -- no directory stands where the file goes
  have hnode : t.node? (["cache", "closures"] ++ [entryName digest]) ≠ some .directory := by
    rcases FileTree.node?_makeDirs hmade (["cache", "closures"] ++ [entryName digest])
      with heq | ⟨-, -, hle⟩
    · rw [heq]
      exact hroom.entries digest
    · exact absurd hle.length_le (by simp)
  obtain ⟨w', hwrite⟩ := World.exists_writeFile (w := { w with tree := t })
    (pathFault?_entryPath_fresh hdigest) (aboveSlashed?_entryPath _ _ _) hplace hnode bytes
  have hrun := run_overwrite_iff.mpr ⟨_, hdirs, hwrite⟩
  obtain ⟨t', rfl, ht'⟩ := overwritten hroom.sound hrun
  exact ⟨_, hrun, hroom.overwritten ht'⟩

theorem place_fresh (w : World) : w.tree.place (w.rooted fresh.directory) = .ok ["cache"] := by
  have hsplit : Path.split "/cache" = ["", "cache"] := by decide
  have hroot : ∀ r, r <+: ["cache"] → r ≠ ["cache"] → w.tree.node? r = some .directory := by
    intro r hle hne
    have hle : r <+: [] ++ ["cache"] := hle
    rcases List.prefix_concat_iff.mp hle with heq | hroot
    · exact absurd heq hne
    · rw [List.prefix_nil.mp hroot, FileTree.node?_root]
  show w.tree.place (w.rooted "/cache") = _
  unfold FileTree.place World.rooted
  rw [if_pos (by decide), hsplit]
  exact FileTree.walk_of_directories (p := []) (by decide)
    (fun part hpart => nameFault?_fresh part (List.mem_append_left ["closures"] hpart)) hroot

theorem pathFault?_fresh : FileTree.pathFault? fresh.directory = none :=
  FileTree.pathFault?_eq_none (by decide) (by decide) (by decide)

/-- **The fresh store can be dropped wherever there is room for it.** -/
theorem exists_dropAll_fresh (hroom : Roomy w) :
    ∃ w', (fresh.dropAll (m := StateM World)).run w = (.ok (), w') ∧ Roomy w' := by
  have hremove := World.removeTree_of_place pathFault?_fresh (place_fresh w)
  cases hnode : w.tree.node? ["cache"] with
  | none =>
      rw [hnode] at hremove
      refine ⟨w, ?_, hroom⟩
      rw [run_dropAll, hremove]
      rfl
  | some node =>
      cases node with
      | file bytes => exact absurd hnode (hroom.free ["cache"] (by decide) bytes)
      | directory =>
          -- the directory is taken away with all that is in it, and made again
          rw [hnode] at hremove
          have hfree : ∀ p, p <+: ["cache"] → ∀ bytes,
              (w.tree.remove ["cache"]).node? p ≠ some (.file bytes) := by
            intro p hle bytes
            rw [FileTree.node?_remove]
            split
            · simp
            · exact hroom.free p (hle.trans (List.prefix_append _ ["closures"])) bytes
          obtain ⟨t, hmade⟩ : ∃ t, (w.tree.remove ["cache"]).makeDirs [] ["cache"] = .ok t :=
            FileTree.exists_makeDirs
              (fun part hpart =>
              nameFault?_fresh part (List.mem_append_left ["closures"] hpart)) hfree
          refine ⟨{ w with tree := t }, ?_, ?_⟩
          · rw [run_dropAll, hremove]
            exact World.makeDirs_of_tree (w := { w with tree := w.tree.remove ["cache"] })
              ((named_fresh _).symm ▸ hmade)
          · exact hroom.fewer (hroom.sound.tree.remove.makeDirs rfl hmade)
              (hroom.sound.tree.fewer_remake hnode hmade)

/-- The directory of the fresh store is found whenever it is dropped. -/
theorem found_fresh (hroom : Roomy w)
    (h : (fresh.dropAll (m := StateM World)).run w = (.ok (), w')) :
    fresh.Found w := by
  have hdown : ".." ∉ Path.split (w.rooted fresh.directory) := by
    show ".." ∉ Path.split (w.rooted "/cache")
    unfold World.rooted
    rw [if_pos (by decide)]
    decide
  exact found_of_dropAll hroom.sound hdown (by decide)
    (named_fresh w ▸ hroom.free ["cache"] (by decide)) h

theorem run_get_empty (hdigest : digest.length = 32) :
    (fresh.get (m := StateM World) digest).run {} = (.ok none, {}) := by
  have hsplit : Path.split "/cache/closures" = ["", "cache", "closures"] := by decide
  have hcache : FileTree.nameFault? "cache" = none := nameFault?_fresh "cache" (by decide)
  have hplace : FileTree.place {} (World.rooted {} (fresh.entryPath digest))
      = .error .notFound := by
    unfold FileTree.place
    rw [entryPath_eq, World.rooted_append fresh.payloadDir_ne_empty, payloadDir_fresh, World.rooted,
      if_pos (by decide), Path.split_append, hsplit]
    simp [FileTree.walk, FileTree.node?, hcache]
  rw [run_get_eq, World.find_eq, pathFault?_entryPath_fresh hdigest, hplace]
  rfl

/-- **A payload can be kept in a directory that is not there yet**, under the digest of a
manifest. -/
theorem exists_put_fresh (hdigest : digest.length = 32) (q : StoredPayload) :
    ∃ w, (fresh.put (m := StateM World) digest q).run {} = (.ok (), w) := by
  obtain ⟨w, hrun, -⟩ := exists_overwrite_fresh roomy_empty hdigest
    (Payload.encode { q with schema := Payload.currentSchema })
  exact ⟨w, hrun⟩

end Cache.Store

end SymbolAtlas
