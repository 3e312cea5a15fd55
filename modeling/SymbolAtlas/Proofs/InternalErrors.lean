import SymbolAtlas.Proofs.Schedules

set_option autoImplicit false

/-! # When a run fails

An internal error says that a stage of a run has broken a contract, which should not be the fault of
a manifest. There is one way in which it is: an entry may name itself as the definition that it was
made from. Reading lets such an entry pass, and the slot refuses it. The stage that declares fails
at the first entry of this sort (`exec_declareAll_self`), and nothing else can fail
(`run_error`). -/

namespace SymbolAtlas.Binding

open Manifest

/-- The contract that an entry breaks when it names itself as its template. -/
def selfTemplate (e : Entry) : SymbolError :=
  .contract .templateNotOther e.key

/-- The report on an entry that names itself as its template. -/
def selfTemplateReport (e : Entry) : Diagnostic :=
  .error .internalError e.span e.key ("internal error: " ++ (selfTemplate e).message)

theorem exec_setTemplate_self {a : Atlas} {r : SymbolRef} {s : Symbol} (hs : a.symbol? r = some s) :
    exec (AtlasM.setTemplate (some r) (some r)) a
      = (.error (.contract .templateNotOther s.key), a) := by
  have hviolate : exec (AtlasM.violate (α := Unit) .templateNotOther (some r)) a
      = (.error (.contract .templateNotOther s.key), a) := by
    rw [AtlasM.exec_violate]
    simp [Atlas.text, Atlas.key?, hs]
  unfold AtlasM.setTemplate
  rw [if_pos (Or.inr rfl), exec_bind_error hviolate]

/-- **Linking an entry with itself fails**, and is reported as an internal error. -/
theorem exec_linkTemplate_self {e : Entry} {r : SymbolRef} {run : Run} (hi : run.atlas.Indexed)
    (hkey : e.key ≠ "")
    (hself : e.draft.template = e.key) (hr : run.atlas.find? table e.key = some r) :
    exec (linkTemplate e r) run = (.error (.within ("binder: " ++ e.key) (selfTemplate e)),
      { run with bag := run.bag.add (selfTemplateReport e) }) := by
  obtain ⟨s, hs, hskey⟩ := hi.symbol?_of_find? hr
  have hset : exec (RunM.onAtlas (AtlasM.setTemplate (some r) (some r))) run
      = (.error (selfTemplate e), run) := by
    rw [RunM.exec_onAtlas, exec_setTemplate_self hs, hskey]
    rfl
  unfold linkTemplate
  rw [hself]
  simp only [if_neg hkey]
  rw [exec_bind_ok (RunM.exec_find? e.key run), hr]
  exact RunM.exec_guarded_error hset rfl e

theorem roster_split {p : Program} {a : Atlas} (hl : Layout p a) {before : List Entry} {e : Entry}
    {after : List Entry} (hentries : p.entries.toList = before ++ e :: after) :
    ∃ ms r ms', roster p a = ms ++ (e, r) :: ms' ∧ ms.map Prod.fst = before := by
  have hroster := roster_entries hl
  rw [hentries] at hroster
  obtain ⟨ms, ms', hsplit, hms, hrest⟩ := List.map_eq_append_iff.mp hroster
  obtain ⟨m, ms', rfl, rfl, -⟩ := List.map_eq_cons_iff.mp hrest
  exact ⟨ms, m.2, ms', hsplit, hms⟩

/-- The first entries can be linked if none of them names itself, whatever comes after them. -/
theorem ready_links {p : Program} (hp : p.WellFormed) {a : Atlas} (hd : Declared p a)
    {ms ms' : List (Entry × SymbolRef)} (hsplit : roster p a = ms ++ ms')
    (hself : ∀ m ∈ ms, m.1.draft.template ≠ m.1.key) :
    Ready (ms.flatMap fun m => templateScript a m.1 m.2) a := by
  have hcompatible := (compatible_plan hp hd.layout).left
  unfold linkPlan at hcompatible
  rw [hsplit, List.flatMap_append] at hcompatible
  refine ⟨[], hd.fresh, ?_, hcompatible.left⟩
  intro x hx
  obtain ⟨m, hm, hx⟩ := List.mem_flatMap.mp hx
  have hmem : m ∈ roster p a := by
    rw [hsplit]
    exact List.mem_append_left _ hm
  exact fits_link hd.layout hmem (hself m hm) x hx

section SelfTemplate

variable {p : Program} (hp : p.WellFormed) {a : Atlas} (hd : Declared p a) {before : List Entry}
  {e : Entry} {after : List Entry} (hentries : p.entries.toList = before ++ e :: after)
  (hbefore : ∀ e' ∈ before, e'.draft.template ≠ e'.key) (hself : e.draft.template = e.key)
  {capacity : Int} {refs : List SymbolRef}
  (hdeclare : ∀ run : Run, run.atlas = ⟨#[.empty capacity]⟩ →
    exec (declareFrom p.outline p.entries.toList 0) run = (.ok refs, { run with atlas := a }))

include hp hd hentries hbefore hself hdeclare

/-- **The stage that declares fails at the first entry that names itself.** What the entries before
it report blames the manifest. -/
theorem exec_declareAll_self : ∃ found : List Diagnostic, (∀ d ∈ found, d.code ≠ .internalError) ∧
    ∀ span run, run.program = p → run.atlas = ⟨#[.empty capacity]⟩ → ∃ run',
      exec (declareAll span) run = (.error (.within ("binder: " ++ e.key) (selfTemplate e)), run') ∧
      run'.bag = run.bag.addAll (found ++ [selfTemplateReport e]) := by
  obtain ⟨ms, r, ms', hsplit, hms⟩ := roster_split hd.layout hentries
  have hready := ready_links hp hd hsplit fun m hm => hbefore m.1 (hms ▸ List.mem_map_of_mem hm)
  refine ⟨(ms.flatMap fun m => templateScript a m.1 m.2).flatMap Effect.reports, ?_, ?_⟩
  · intro d hd
    obtain ⟨x, hx, hd⟩ := List.mem_flatMap.mp hd
    obtain ⟨m, -, hx⟩ := List.mem_flatMap.mp hx
    exact (tells_templateScript a m.1 m.2 x hx d hd).code
  · intro span run hprogram hatlas
    subst hprogram
    have he : e ∈ run.program.entries.toList := by simp [hentries]
    have hr : a.find? table e.key = some r := by
      have hm : (e, r) ∈ roster run.program a := by simp [hsplit]
      exact (mem_roster.mp hm).2
    -- the entries before it are linked, and linking changes no name
    have hlink := exec_forIn_linkTemplate ms { run with atlas := a } rfl hready
    have hfind : (changeAll (ms.flatMap fun m => templateScript a m.1 m.2) a).find? table e.key
        = some r := by
      rw [Atlas.find?_eq_of_skeleton (skeleton_changeAll _ a), hr]
    have hloop := exec_forIn_error (x := (e, r)) hlink
      (exec_linkTemplate_self (hd.layout.indexed.congr (skeleton_changeAll _ a))
      (hp.distinct.key_ne e he) hself hfind) ms'
    unfold declareAll
    rw [exec_bind_ok (exec_get run), exec_bind_ok (hdeclare run hatlas),
      exec_bind_ok (exec_members _), hsplit, exec_bind_error hloop]
    refine ⟨_, rfl, ?_⟩
    rw [Bag.addAll_append]
    rfl

end SelfTemplate

/-- **When a run of a program that was read fails.** If no entry names itself as its template, the
run does not fail, and reports no internal error. Otherwise it fails at the first entry that does:
the error names it, and the last report, if there is room, is an internal error about it. -/
theorem run_error {fs : FileSet} {id : UInt32} {p : Program} {reports : List Diagnostic}
    (h : decodeFile fs id = (.ok p, reports)) {o : Options} (ho : o.canceled = false)
    (trace : Trace) :
    ((∀ e ∈ p.entries.toList, e.draft.template ≠ e.key) →
      (run p o trace).error = none ∧
      ∀ d ∈ (run p o trace).bag.items, d.code ≠ .internalError) ∧
    ∀ before e after, p.entries.toList = before ++ e :: after →
      (∀ e' ∈ before, e'.draft.template ≠ e'.key) → e.draft.template = e.key →
      (run p o trace).error = some (.within ("binder: " ++ e.key) (selfTemplate e)) ∧
      ∃ found : List Diagnostic, (∀ d ∈ found, d.code ≠ .internalError) ∧
        (run p o trace).bag
          = (Bag.empty o.maxDiagnostics).addAll (found ++ [selfTemplateReport e]) := by
  have hp := wellFormed_of_decodeFile h
  obtain ⟨a, refs, hd, hdeclare⟩ := exists_declared hp o.filterCache
  refine ⟨?_, ?_⟩
  · intro hself
    obtain ⟨b, c, -, -, hat⟩ := run_at hp hself ho trace hd hdeclare
    refine ⟨hat.error, ?_⟩
    intro d hmem
    rw [hat.bag] at hmem
    rcases Bag.mem_addAll hmem with hempty | hplan
    · cases hempty
    · obtain ⟨e, -, habout⟩ := about_plan hplan
      exact habout.code
  · intro before e after hentries hbefore hself
    obtain ⟨found, hfound, hfail⟩ := exec_declareAll_self hp hd hentries hbefore hself hdeclare
    obtain ⟨herror, hbag⟩ := stage_error "declare" (start_at p o trace) fun span run hrun => by
      obtain ⟨run', hexec, hbag⟩ := hfail span run hrun.program hrun.atlas
      rw [hrun.bag] at hbag
      exact ⟨run', hexec, hbag⟩
    -- the later stages do not begin after an error
    rw [run_eq, stage_of_error "bind" bindAll herror, stage_of_error "close" closeAll herror]
    exact ⟨herror, found, hfound, hbag⟩

/-- A type that is made from itself. -/
def selfMadeManifest : String :=
  "[[symbol]]\nkey = \"A\"\nkind = \"type\"\noriginal = \"A\"\n"

def selfMadeFiles : FileSet :=
  (FileSet.addVirtual {} "selfmade.toml" (Text.Utf8.encode selfMadeManifest)).2

theorem decodeFile_selfMade : ∃ p e, decodeFile selfMadeFiles 1 = (.ok p, []) ∧
    p.entries.toList = [e] ∧ e.draft.template = e.key := by
  have hdecode : (decodeFile selfMadeFiles 1).1.toOption.map (fun p =>
      p.entries.toList.map fun e => (e.draft.template, e.key)) = some [("A", "A")] := by
    decide +kernel
  have hreports : (decodeFile selfMadeFiles 1).2 = [] := by decide +kernel
  rcases h : decodeFile selfMadeFiles 1 with ⟨_ | p, reports⟩
  · rw [h] at hdecode
    cases hdecode
  · rw [h] at hdecode hreports
    obtain rfl : reports = [] := hreports
    obtain ⟨e, hentries, he⟩ := List.map_eq_singleton_iff.mp (Option.some.inj hdecode)
    obtain ⟨htemplate, hkey⟩ := Prod.mk.inj he
    exact ⟨p, e, rfl, hentries, htemplate.trans hkey.symm⟩

theorem run_error_selfMade : ∃ p e, decodeFile selfMadeFiles 1 = (.ok p, []) ∧
    p.entries.toList = [e] ∧ e.draft.template = e.key ∧
    (run p {} ⟨.nop, 0, 0, {}⟩).error = some (.within ("binder: " ++ e.key) (selfTemplate e)) := by
  obtain ⟨p, e, h, hentries, hself⟩ := decodeFile_selfMade
  have herror := ((run_error h (o := {}) rfl ⟨.nop, 0, 0, {}⟩).2 [] e [] hentries (by simp) hself).1
  exact ⟨p, e, h, hentries, hself, herror⟩

/-- The manifest is read without complaint, and its run fails with an internal error. -/
theorem internalError_selfMade : ∃ p, (decodeFile selfMadeFiles 1).1.toOption = some p ∧
    (run p {} ⟨.nop, 0, 0, {}⟩).error.isSome = true ∧
    (run p {} ⟨.nop, 0, 0, {}⟩).bag.items.map Diagnostic.code = [.internalError] := by
  have hruns : (decodeFile selfMadeFiles 1).1.toOption.map (fun p =>
      ((run p {} ⟨.nop, 0, 0, {}⟩).error.isSome,
        (run p {} ⟨.nop, 0, 0, {}⟩).bag.items.map Diagnostic.code))
          = some (true, [.internalError]) := by
    decide +kernel
  obtain ⟨p, hp, hpair⟩ := Option.map_eq_some_iff.mp hruns
  exact ⟨p, hp, congrArg Prod.fst hpair, congrArg Prod.snd hpair⟩

end SymbolAtlas.Binding
