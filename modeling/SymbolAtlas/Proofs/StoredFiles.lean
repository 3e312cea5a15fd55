import SymbolAtlas.Cache.Store
import SymbolAtlas.Proofs.Utf8Text

set_option autoImplicit false

/-! # Stored files

A file that was written is read back. A walk goes through directories only, and a file is written
where no directory stands, so the walk that led to the place before leads to it afterwards. What is
kept in a store is therefore what is found there under the same digest. -/

namespace SymbolAtlas

open Text

namespace FileTree

variable {t t' : FileTree} {p q place : List String} {node : FileNode}

/-- Nodes that are kept by their place are found as before. -/
theorem lookup_filter_key (keeps : List String → Bool) (nodes : List (List String × FileNode))
    (p : List String) :
    (nodes.filter fun entry => keeps entry.1).lookup p = if keeps p then nodes.lookup p
      else none := by
  induction nodes with
  | nil => simp
  | cons entry rest ih =>
      obtain ⟨q, n⟩ := entry
      by_cases hq : p = q
      · subst hq
        cases hkeep : keeps p with
        | true => simp [hkeep]
        | false => rw [List.filter_cons_of_neg (by simp [hkeep]), ih, hkeep]; rfl
      · have hpq : (p == q) = false := by simpa using hq
        rw [List.lookup_cons, hpq]
        cases hkeep : keeps q with
        | true => rw [List.filter_cons_of_pos (by simp [hkeep]), List.lookup_cons, hpq, ih]
        | false => rw [List.filter_cons_of_neg (by simp [hkeep]), ih]

theorem node?_put_self (hplace : place ≠ []) : (t.put place node).node? place = some node := by
  unfold node? put
  rw [if_neg (by simpa using hplace), List.lookup_append, lookup_filter_key (· ≠ place)]
  simp

theorem node?_put_of_ne (h : p ≠ place) : (t.put place node).node? p = t.node? p := by
  have hkept : (t.nodes.filter (·.1 ≠ place)).lookup p = t.nodes.lookup p := by
    rw [lookup_filter_key (· ≠ place), if_pos (by simpa using h)]
  have hother : ([(place, node)] : List _).lookup p = none := by
    rw [List.lookup_eq_none_iff]
    simpa using h
  unfold node? put
  rw [List.lookup_append, hkept, hother, Option.or_none]

/-- Directories stay where a node is put where none stands. -/
theorem node?_put_of_directory (hplace : t.node? place ≠ some .directory)
    (h : t.node? p = some .directory) : (t.put place node).node? p = some .directory := by
  have hne : p ≠ place := by
    rintro rfl
    exact hplace h
  rw [node?_put_of_ne hne, h]

theorem nameFault?_eq_none {name : String} (hzero : '\x00' ∉ name.toList)
    (hsize : name.utf8ByteSize ≤ maxName) : nameFault? name = none := by
  unfold nameFault?
  rw [String.contains_char_eq, if_neg (by simpa using hzero), if_neg (by omega)]

theorem pathFault?_eq_none {path : String} (hzero : '\x00' ∉ path.toList) (hfull : path ≠ "")
    (hsize : path.utf8ByteSize ≤ maxPath) : pathFault? path = none := by
  unfold pathFault?
  rw [String.contains_char_eq, if_neg (by simpa using hzero), if_neg (by simpa using hfull),
    if_neg (by omega)]

def onward (place : List String) (part : String) : List String :=
  if part = "" ∨ part = "." then place
  else if part = ".." then place.dropLast
  else place ++ [part]

/-- **A walk goes on from a directory only.** -/
theorem walk_cons {part : String} {rest : List String} : t.walk p (part :: rest)
    = match t.node? p with
      | none => .error .notFound
      | some (.file _) => .error .notDirectory
      | some .directory =>
        match nameFault? part with
        | some cause => .error cause
        | none => t.walk (onward p part) rest := by
  -- the steps that are no names are never refused as names
  have hsteps : ∀ step ∈ ["", ".", ".."], nameFault? step = none := by
    intro step hstep
    fin_cases hstep <;> exact nameFault?_eq_none (by decide) (by decide)
  rw [walk]
  cases hnode : t.node? p with
  | none => rfl
  | some node =>
      cases node with
      | file bytes => rfl
      | directory =>
          dsimp only [onward]
          by_cases hstay : part = "" ∨ part = "."
          · have hfault : nameFault? part = none :=
              hsteps part (by rcases hstay with rfl | rfl <;> simp)
            rw [hfault, if_pos (by simpa using hstay), if_pos hstay]
          · rw [if_neg (by simpa using hstay), if_neg hstay]
            by_cases hup : part = ".."
            · rw [hup, hsteps ".." (by simp)]
              rfl
            · cases nameFault? part <;> simp [hup]

theorem walk_cons_ok {part : String} {rest : List String} : t.walk p (part :: rest) = .ok q ↔
    t.node? p = some .directory ∧ nameFault? part = none ∧ t.walk (onward p part) rest = .ok q := by
  rw [walk_cons]
  rcases t.node? p with _ | _ | bytes
  · simp
  · cases nameFault? part <;> simp
  · simp

/-- **A walk is not changed by a node that is put where no directory stands.** -/
theorem walk_put (hplace : t.node? place ≠ some .directory) {parts : List String}
    (h : t.walk p parts = .ok q) : (t.put place node).walk p parts = .ok q := by
  induction parts generalizing p with
  | nil => exact h
  | cons part parts ih =>
      obtain ⟨hdir, hfault, hrest⟩ := walk_cons_ok.mp h
      exact walk_cons_ok.mpr ⟨node?_put_of_directory hplace hdir, hfault, ih hrest⟩

/-- Writing puts a file where the path leads and no directory stands. -/
theorem exists_place_of_write {path : String} {bytes : List UInt8}
    (h : t.write path bytes = .ok t') :
    ∃ place, t.place path = .ok place ∧ t.node? place ≠ some .directory ∧
      t' = t.put place (.file bytes) := by
  unfold write at h
  cases habove : aboveSlashed? path with
  | some above =>
      -- a name with a slash after it is never written
      rw [habove] at h
      cases hwalk : t.walk [] (above ++ [""]) <;> simp [hwalk, bind, Except.bind, throw, throwThe,
        MonadExceptOf.throw] at h
  | none =>
      rw [habove] at h
      cases hplace : t.place path with
      | error cause => simp [hplace, bind, Except.bind] at h
      | ok place =>
          refine ⟨place, rfl, ?_⟩
          simp only [hplace, bind, Except.bind] at h
          split at h
          · cases h
          · rename_i hnode
            exact ⟨hnode, (Except.ok.inj h).symm⟩

/-- A file is written where no directory stands. -/
theorem write_of_place {path : String} (hslash : aboveSlashed? path = none)
    (hplace : t.place path = .ok place) (hnode : t.node? place ≠ some .directory)
    (bytes : List UInt8) : t.write path bytes = .ok (t.put place (.file bytes)) := by
  unfold write
  rw [hslash]
  simp only [hplace, bind, Except.bind]

/-- **What was written stands where the path leads.** -/
theorem find_write {path : String} {bytes : List UInt8} (h : t.write path bytes = .ok t') :
    t'.find path = .ok (.file bytes) := by
  obtain ⟨place, hwalk, hnode, rfl⟩ := exists_place_of_write h
  have hplace : (t.put place (.file bytes)).place path = .ok place := walk_put hnode hwalk
  have hbelow : place ≠ [] := by
    rintro rfl
    exact hnode rfl
  simp [find, hplace, node?_put_self hbelow, bind, Except.bind]

end FileTree

namespace World

variable {w w' : World} {path : String} {bytes : List UInt8}

/-- **What was written stands at its path.** -/
theorem find_writeFile (h : w.writeFile path bytes = (.ok (), w')) :
    w'.find path = .ok (.file bytes) := by
  unfold writeFile at h
  cases hlook : w.lookedUp path with
  | error cause => simp [hlook, bind, Except.bind] at h
  | ok rooted =>
      cases hwrite : w.tree.write rooted bytes with
      | error cause => simp [hlook, hwrite, bind, Except.bind] at h
      | ok tree =>
          obtain rfl : { w with tree } = w' := by
            simpa [hlook, hwrite, bind, Except.bind] using h
          have hsame : World.lookedUp { w with tree } path = .ok rooted := hlook
          simp [find, hsame, FileTree.find_write hwrite, bind, Except.bind]

/-- A path that leads to where no directory stands can be written. -/
theorem exists_writeFile {place : List String} (hfault : FileTree.pathFault? path = none)
    (hslash : FileTree.aboveSlashed? (w.rooted path) = none)
    (hplace : w.tree.place (w.rooted path) = .ok place)
    (hnode : w.tree.node? place ≠ some .directory) (bytes : List UInt8) :
    ∃ w', w.writeFile path bytes = (.ok (), w') := by
  have hlook : w.lookedUp path = .ok (w.rooted path) := by
    unfold lookedUp
    rw [hfault]
  have hwrite := FileTree.write_of_place hslash hplace hnode bytes
  exact ⟨{ w with tree := w.tree.put place (.file bytes) }, by
    simp [writeFile, hlook, hwrite, bind, Except.bind]⟩

theorem readFile_writeFile (h : w.writeFile path bytes = (.ok (), w')) :
    w'.readFile path = .ok bytes := by
  unfold readFile
  rw [find_writeFile h]

theorem openFile_writeFile (h : w.writeFile path bytes = (.ok (), w')) :
    w'.openFile path = .ok () := by
  unfold openFile
  rw [find_writeFile h]

end World

/-! ## Paths -/

namespace Path

theorem split_append (front back : String) :
    split (front ++ "/" ++ back) = split front ++ split back := by
  unfold split
  rw [String.toList_append, String.toList_append, List.append_assoc]
  show List.map _ (List.splitOn '/' (front.toList ++ '/' :: back.toList)) = _
  rw [List.splitOn_append_cons_self, List.map_append]

theorem split_of_not_mem {name : String} (h : '/' ∉ name.toList) : split name = [name] := by
  unfold split
  rw [List.splitOn_eq_singleton h, List.map_singleton, String.ofList_toList]

theorem isAbsolute_append {front : String} (hfront : front ≠ "") (back : String) :
    isAbsolute (front ++ "/" ++ back) = isAbsolute front := by
  unfold isAbsolute
  rw [String.toList_append, String.toList_append, List.append_assoc, List.head?_append]
  cases hlist : front.toList with
  | nil => exact absurd (String.toList_eq_nil_iff.mp hlist) hfront
  | cons c rest => rfl

namespace Clean

/-- What comes after a path is walked from its end. -/
theorem ofText_append {front : String} (hfront : front ≠ "") (back : String) :
    ofText (front ++ "/" ++ back) = (split back).foldl step (ofText front) := by
  unfold ofText
  rw [split_append, List.foldl_append, isAbsolute_append hfront]

end Clean

theorem join_name {directory name : String} (hdir : directory ≠ "") (hslash : '/' ∉ name.toList)
    (hproper : name ≠ "" ∧ name ≠ "." ∧ name ≠ "..") : join [directory, name]
      = Clean.toText ⟨(Clean.ofText directory).rooted, (Clean.ofText directory).parts ++
        [name]⟩ := by
  have hjoin : join [directory, name] = clean (directory ++ "/" ++ name) := by
    unfold join
    rw [List.dropWhile_cons_of_neg (by simpa using hdir)]
    rfl
  rw [hjoin]
  unfold clean
  rw [Clean.ofText_append hdir, split_of_not_mem hslash]
  simp [Clean.step, hproper]

end Path

theorem Text.Hex.mem_ofBytes {bytes : List UInt8} {c : Char} (h : c ∈ (Hex.ofBytes bytes).toList) :
    c ∈ "0123456789abcdef".toList := by
  have hdigit : ∀ m < 16, Nat.digitChar m ∈ "0123456789abcdef".toList := by decide
  unfold Hex.ofBytes at h
  rw [String.toList_ofList] at h
  obtain ⟨b, -, hc⟩ := List.mem_flatMap.mp h
  simp only [Hex.ofByte, Hex.digitChar, List.mem_cons, List.not_mem_nil, or_false] at hc
  rcases hc with rfl | rfl
  · exact hdigit _ (Nat.mod_lt _ (by omega))
  · exact hdigit _ (Nat.mod_lt _ (by omega))

theorem Text.Hex.length_ofBytes (bytes : List UInt8) :
    (Hex.ofBytes bytes).length = 2 * bytes.length := by
  unfold Hex.ofBytes
  rw [String.length_ofList, List.length_flatMap]
  simp [Hex.ofByte]
  omega

/-! ## The store -/

namespace Cache.Store

theorem run_modifyWorld {α : Type} (f : World → α × World) (w : World) :
    (modifyGet f : StateM World α).run w = f w := rfl

theorem run_makeDirs (path : String) (w : World) :
    (Host.makeDirs (m := StateM World) path).run w = w.makeDirs path :=
  run_modifyWorld (·.makeDirs path) w

theorem run_writeFile (path : String) (bytes : List UInt8) (w : World) :
    (Host.writeFile (m := StateM World) path bytes).run w = w.writeFile path bytes :=
  run_modifyWorld (·.writeFile path bytes) w

theorem run_openFile (path : String) (w : World) :
    (Host.openFile (m := StateM World) path).run w = (w.openFile path, w) := rfl

theorem run_readFile (path : String) (w : World) :
    (Host.readFile (m := StateM World) path).run w = (w.readFile path, w) := rfl

/-- Writes bytes to the file of a digest, in the directory of the payloads. -/
def overwrite {m : Type → Type} [Monad m] [Host m] (s : Store) (digest bytes : List UInt8) :
    m (Except FileError Unit) := do
  match ← Host.makeDirs s.payloadDir with
  | .error e => return .error e
  | .ok _ => Host.writeFile (s.entryPath digest) bytes

variable {s : Store} {digest bytes : List UInt8} {p : StoredPayload} {w w' : World}

/-- A payload is kept as the bytes of its current version. -/
theorem put_eq_overwrite {m : Type → Type} [Monad m] [Host m] (s : Store) (digest : List UInt8)
    (p : StoredPayload) : s.put (m := m) digest p
      = s.overwrite digest (Payload.encode { p with schema := Payload.currentSchema }) := rfl

/-- **Bytes are written to the file of a digest**, in the directory of the payloads. -/
theorem run_overwrite_iff : (s.overwrite (m := StateM World) digest bytes).run w = (.ok (), w') ↔
    ∃ w₁, w.makeDirs s.payloadDir = (.ok (), w₁) ∧
      w₁.writeFile (s.entryPath digest) bytes = (.ok (), w') := by
  unfold overwrite
  rw [StateT.run_bind, run_makeDirs]
  rcases w.makeDirs s.payloadDir with ⟨e | _, w₁⟩
  · constructor
    · intro h
      cases h
    · rintro ⟨_, ⟨⟩, _⟩
  · constructor
    · intro h
      refine ⟨w₁, rfl, ?_⟩
      rw [← run_writeFile]
      exact h
    · rintro ⟨_, ⟨⟩, h⟩
      rw [← run_writeFile] at h
      exact h

/-- What is found under a digest is what the bytes of its file hold for it. -/
theorem run_get (hopen : w.openFile (s.entryPath digest) = .ok ())
    (hread : w.readFile (s.entryPath digest) = .ok bytes) :
    (s.get (m := StateM World) digest).run w = (.ok (accept? digest bytes), w) := by
  unfold get
  dsimp only
  rw [StateT.run_bind, run_openFile, hopen]
  show StateT.run (Host.readFile (m := StateM World) (s.entryPath digest) >>= _) w = _
  rw [StateT.run_bind, run_readFile, hread]
  rfl

/-- **What is found under a digest is what the bytes written last hold for it.** -/
theorem get_of_overwrite
    (h : (s.overwrite (m := StateM World) digest bytes).run w = (.ok (), w')) :
    (s.get (m := StateM World) digest).run w' = (.ok (accept? digest bytes), w') := by
  obtain ⟨w₁, -, hwrite⟩ := run_overwrite_iff.mp h
  exact run_get (World.openFile_writeFile hwrite) (World.readFile_writeFile hwrite)

/-- **A payload of the current version is found under its digest**, if its bytes can be read
back. -/
theorem get_of_put_current (h : (s.put (m := StateM World) digest p).run w = (.ok (), w'))
    (hversion : p.schema = Payload.currentSchema) (hhash : p.hash = digest)
    (hcodec : Payload.decode? p.encode = some p) :
    (s.get (m := StateM World) digest).run w' = (.ok (some p), w') := by
  have hsame : { p with schema := Payload.currentSchema } = p := by rw [← hversion]
  rw [put_eq_overwrite, hsame] at h
  rw [get_of_overwrite h]
  simp [accept?, hcodec, hversion, hhash]

/-! ## Names of files -/

def entryName (digest : List UInt8) : String :=
  Hex.ofBytes digest ++ ".mp"

/-- The name consists of digits, letters and a dot, a byte each. -/
theorem mem_entryName {digest : List UInt8} {c : Char} (h : c ∈ (entryName digest).toList) :
    c ∈ "0123456789abcdef.mp".toList := by
  unfold entryName at h
  rw [String.toList_append, List.mem_append] at h
  have hsub : "0123456789abcdef".toList ⊆ "0123456789abcdef.mp".toList := by decide
  have hsub' : ".mp".toList ⊆ "0123456789abcdef.mp".toList := by decide
  rcases h with h | h
  · exact hsub (Hex.mem_ofBytes h)
  · exact hsub' h

theorem utf8ByteSize_entryName (digest : List UInt8) :
    (entryName digest).utf8ByteSize = 2 * digest.length + 3 := by
  have hone : "0123456789abcdef.mp".toList.all (·.utf8Size == 1) = true := by decide
  rw [Utf8.utf8ByteSize_of_ascii fun c hc => by
    simpa using List.all_eq_true.mp hone c (mem_entryName hc)]
  unfold entryName
  rw [String.length_append, Hex.length_ofBytes]
  rfl

/-- The name is none of those that a walk takes for a step. -/
theorem entryName_proper (digest : List UInt8) :
    entryName digest ≠ "" ∧ entryName digest ≠ "." ∧ entryName digest ≠ ".." := by
  have hsize := utf8ByteSize_entryName digest
  refine ⟨?_, ?_, ?_⟩ <;> intro h <;> rw [h] at hsize
  · have : "".utf8ByteSize = 0 := by decide
    omega
  · have : ".".utf8ByteSize = 1 := by decide
    omega
  · have : "..".utf8ByteSize = 2 := by decide
    omega

theorem slash_not_mem_entryName (digest : List UInt8) : '/' ∉ (entryName digest).toList := by
  have hslash : '/' ∉ "0123456789abcdef.mp".toList := by decide
  exact fun h => hslash (mem_entryName h)

theorem zero_not_mem_entryName (digest : List UInt8) : '\x00' ∉ (entryName digest).toList := by
  have hzero : '\x00' ∉ "0123456789abcdef.mp".toList := by decide
  exact fun h => hzero (mem_entryName h)

end Cache.Store

end SymbolAtlas
