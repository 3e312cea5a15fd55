import SymbolAtlas.Proofs.ProgramShape
import SymbolAtlas.Proofs.RawTables

set_option autoImplicit false

/-! # What becomes of the drafts of a manifest

Reading a manifest makes a program in three passes: drafts are kept or dropped, the entries that
were kept are linked with their containing types, and links that run in a circle are cut.
`Judgement` says what the first pass decides about each draft, without the pass: one verdict for
each draft, given the entries that were kept before it. `account_links` says what the other two
passes together leave of a link: it is there, or there is exactly one report on it. `decode_account`
puts this together for a whole file. -/

namespace SymbolAtlas.Manifest

/-! ## Verdicts -/

/-- What becomes of a draft: it is kept as an entry, or dropped with one report. -/
inductive Verdict where
  | kept (e : Entry)
  | dropped (report : Diagnostic)

namespace Verdict

def entry? : Verdict → Option Entry
  | kept e => some e
  | dropped _ => none

def report? : Verdict → Option Diagnostic
  | kept _ => none
  | dropped report => some report

def code? (v : Verdict) : Option Code :=
  v.report?.map Diagnostic.code

def key? (v : Verdict) : Option String :=
  v.entry?.map Entry.key

end Verdict

/-- What a draft that is dropped is blamed for; an empty key comes before an unknown kind, and that
before a key that is taken. -/
def Draft.fault (d : Draft) : Code :=
  if d.key = "" then .manifestEmptyKey
  else if Kind.parse? d.kindName = none then .manifestUnknownKind
  else .manifestDuplicateKey

/-- **The verdict on a draft** after the entries `earlier` were kept. -/
structure Judged (earlier : List Entry) (d : Draft) (v : Verdict) : Prop where
  dropped_iff : (∃ report, v = .dropped report) ↔
    d.key = "" ∨ Kind.parse? d.kindName = none ∨ ∃ e ∈ earlier, e.key = d.key
  entry : ∀ e, v = .kept e → e.draft = d ∧ Kind.parse? d.kindName = some e.kind ∧ e.owner = none
  report : ∀ report, v = .dropped report →
    report.severity = .error ∧ report.code = d.fault ∧ report.subject = d.key

/-- The verdicts on some drafts. Only entries that were kept stand in the way of later ones. -/
structure Judgement (drafts : List Draft) (verdicts : List Verdict) : Prop where
  length_eq : verdicts.length = drafts.length
  judged : ∀ i d v, drafts[i]? = some d → verdicts[i]? = some v →
    Judged ((verdicts.take i).filterMap Verdict.entry?) d v

/-- **A verdict is settled by the keys that were kept before it**, and by the key and the kind of
its draft. -/
theorem Judgement.outcome {drafts : List Draft} {verdicts : List Verdict}
    (h : Judgement drafts verdicts) {i : Nat} {d : Draft} {v : Verdict} (hd : drafts[i]? = some d)
    (hv : verdicts[i]? = some v) :
    (v.code?, v.key?) = if d.key = "" ∨ Kind.parse? d.kindName = none ∨
      d.key ∈ (verdicts.take i).filterMap Verdict.key? then (some d.fault, none) else
        (none, some d.key) := by
  have hjudged := h.judged i d v hd hv
  have hdropped : (∃ report, v = .dropped report) ↔ d.key = "" ∨ Kind.parse? d.kindName = none ∨
      d.key ∈ (verdicts.take i).filterMap Verdict.key? := by
    have hkeys : (verdicts.take i).filterMap Verdict.key?
        = ((verdicts.take i).filterMap Verdict.entry?).map Entry.key := by
      rw [List.map_filterMap]
      rfl
    rw [hjudged.dropped_iff, hkeys, List.mem_map]
  cases v with
  | kept e =>
      rw [if_neg (fun hwhy => by cases hdropped.mpr hwhy; contradiction)]
      have hkey : e.key = d.key := congrArg Draft.key (hjudged.entry e rfl).1
      simp [Verdict.code?, Verdict.key?, Verdict.report?, Verdict.entry?, hkey]
  | dropped report =>
      rw [if_pos (hdropped.mp ⟨report, rfl⟩)]
      simp [Verdict.code?, Verdict.key?, Verdict.report?, Verdict.entry?,
        (hjudged.report report rfl).2.1]

/-- What drafts are blamed for when the keys in `taken` are those of entries kept before. -/
def blames : (taken : List String) → List Draft → List (Option Code)
  | _, [] => []
  | taken, d :: drafts =>
    if d.key = "" ∨ Kind.parse? d.kindName = none ∨ d.key ∈ taken then
      some d.fault :: blames taken drafts
    else none :: blames (taken ++ [d.key]) drafts

theorem Judgement.codes_drop {drafts : List Draft} {verdicts : List Verdict}
    (h : Judgement drafts verdicts) (rest : List Draft) : ∀ {n : Nat}, drafts.drop n = rest →
      (verdicts.drop n).map Verdict.code?
        = blames ((verdicts.take n).filterMap Verdict.key?) rest := by
  have hlen := h.length_eq
  induction rest with
  | nil =>
      intro n hrest
      rw [List.drop_eq_nil_of_le (hlen ▸ List.drop_eq_nil_iff.mp hrest)]
      rfl
  | cons d rest ih =>
      intro n hrest
      have hn : n < drafts.length := by
        by_contra hle
        rw [List.drop_eq_nil_of_le (by omega)] at hrest
        cases hrest
      have hn' : n < verdicts.length := by omega
      rw [List.drop_eq_getElem_cons hn, List.cons.injEq] at hrest
      obtain ⟨hd, hrest⟩ := hrest
      -- the verdict on the draft depends on the keys that were kept before it
      have houtcome := h.outcome (d := d) (by rw [List.getElem?_eq_getElem hn, hd])
        (List.getElem?_eq_getElem hn')
      have hnext := ih hrest
      rw [List.take_succ_eq_append_getElem hn', List.filterMap_append] at hnext
      rw [List.drop_eq_getElem_cons hn', List.map_cons, blames]
      split at houtcome
      · rename_i hwhy
        obtain ⟨hcode, hkey⟩ := Prod.mk.inj houtcome
        rw [if_pos hwhy, hcode, hnext]
        simp [hkey]
      · rename_i hwhy
        obtain ⟨hcode, hkey⟩ := Prod.mk.inj houtcome
        rw [if_neg hwhy, hcode, hnext]
        simp [hkey]

/-- **A judgement has one answer**: what drafts are blamed for is settled by their keys and
kinds. -/
theorem Judgement.codes {drafts : List Draft} {verdicts : List Verdict}
    (h : Judgement drafts verdicts) :
    verdicts.map Verdict.code? = blames [] drafts :=
  h.codes_drop drafts (n := 0) rfl

theorem Judgement.concat {drafts : List Draft} {verdicts : List Verdict}
    (h : Judgement drafts verdicts) {d : Draft} {v : Verdict}
    (hv : Judged (verdicts.filterMap Verdict.entry?) d v) :
    Judgement (drafts ++ [d]) (verdicts ++ [v]) := by
  have hlen := h.length_eq
  constructor
  · simp [hlen]
  · intro i d' v' hd hv'
    rcases Nat.lt_trichotomy i drafts.length with hlt | rfl | hgt
    · rw [List.getElem?_append_left hlt] at hd
      rw [List.getElem?_append_left (by omega)] at hv'
      rw [List.take_append_of_le_length (by omega)]
      exact h.judged i d' v' hd hv'
    · -- the verdict on the last draft takes all verdicts before it into account
      rw [List.getElem?_concat_length] at hd
      rw [← hlen, List.getElem?_concat_length] at hv'
      obtain rfl := Option.some.inj hd
      obtain rfl := Option.some.inj hv'
      rw [← hlen, List.take_left]
      exact hv
    · rw [List.getElem?_eq_none (by simp; omega)] at hd
      cases hd

/-- A draft that is dropped gets a report that says why. -/
theorem Judged.dropped {earlier : List Entry} {d : Draft} {report : Diagnostic}
    (hwhy : d.key = "" ∨ Kind.parse? d.kindName = none ∨ ∃ e ∈ earlier, e.key = d.key)
    (hsev : report.severity = .error) (hcode : report.code = d.fault)
    (hsubject : report.subject = d.key) : Judged earlier d (.dropped report) := by
  refine ⟨iff_of_true ⟨report, rfl⟩ hwhy, by simp, ?_⟩
  intro report' hreport
  obtain rfl := Verdict.dropped.inj hreport
  exact ⟨hsev, hcode, hsubject⟩

theorem Judged.kept {earlier : List Entry} {d : Draft} {kind : Kind} (hkey : d.key ≠ "")
    (hkind : Kind.parse? d.kindName = some kind) (hfree : ∀ e ∈ earlier, e.key ≠ d.key)
    (span : Span) : Judged earlier d (.kept { draft := d, kind, span }) := by
  refine ⟨iff_of_false (by simp) ?_, ?_, by simp⟩
  · rintro (h | h | ⟨e, he, h⟩)
    · exact hkey h
    · rw [hkind] at h
      cases h
    · exact hfree e he h
  · intro e he
    obtain rfl := Verdict.kept.inj he
    exact ⟨rfl, hkind, rfl⟩

/-- **One step of the first pass** gives one verdict. -/
theorem exists_judged (f : File) (a : Admission) (d : Draft) : ∃ v, Judged a.kept d v ∧
    (a.consider f d).kept = a.kept ++ v.entry?.toList ∧
    (a.consider f d).reports = a.reports ++ v.report?.toList := by
  unfold Admission.consider
  dsimp only
  by_cases hkey : d.key = ""
  · rw [if_pos hkey]
    refine ⟨.dropped _, .dropped (Or.inl hkey) rfl ?_ hkey.symm, ?_, rfl⟩
    · simp [Draft.fault, hkey, Diagnostic.error]
    · simp [Admission.refuse, Verdict.entry?]
  · rw [if_neg hkey]
    cases hkind : Kind.parse? d.kindName with
    | none =>
        refine ⟨.dropped _, .dropped (Or.inr (Or.inl hkind)) rfl ?_ rfl, ?_, rfl⟩
        · simp [Draft.fault, hkey, hkind, Diagnostic.error]
        · simp [Admission.refuse, Verdict.entry?]
    | some kind =>
        dsimp only
        cases hfind : a.kept.find? (·.key == d.key) with
        | some previous =>
            have htaken : ∃ e ∈ a.kept, e.key = d.key :=
              ⟨previous, List.mem_of_find?_eq_some hfind, by simpa using List.find?_some hfind⟩
            refine ⟨.dropped _, .dropped (Or.inr (Or.inr htaken)) rfl ?_ rfl, ?_, rfl⟩
            · simp [Draft.fault, hkey, hkind, Diagnostic.error]
            · simp [Admission.refuse, Verdict.entry?]
        | none =>
            have hfree : ∀ e ∈ a.kept, e.key ≠ d.key := by
              intro e he heq
              have := List.find?_eq_none.mp hfind e he
              simp [heq] at this
            exact ⟨.kept _, .kept hkey hkind hfree _, rfl, by simp [Verdict.report?]⟩

/-- The search goes on where it has found the entry, whatever becomes of it. -/
theorem Admission.cursor_consider (f : File) (a : Admission) (d : Draft) :
    (a.consider f d).cursor = (locate f d.key a.cursor).2 := by
  unfold consider
  dsimp only
  split
  · rfl
  · split
    · rfl
    · split <;> rfl

/-- An entry that is kept stands where it was found. -/
theorem Admission.span_consider {f : File} {a : Admission} {d : Draft} {e : Entry}
    (h : (a.consider f d).kept = a.kept ++ [e]) : e.span = (locate f d.key a.cursor).1 := by
  have hne : a.kept ≠ a.kept ++ [e] := by simp
  unfold consider at h
  dsimp only at h
  split at h
  · exact absurd h hne
  · split at h
    · exact absurd h hne
    · split at h
      · exact absurd h hne
      · rw [← List.singleton_inj.mp (List.append_cancel_left h)]

/-- **The first pass** gives each draft its verdict, in order, and finds the entries that are kept
one after the other. -/
theorem exists_judgement_located (f : File) (drafts : List Draft) :
    ∃ verdicts, Judgement drafts verdicts ∧
    (drafts.foldl (Admission.consider f) {}).kept = verdicts.filterMap Verdict.entry? ∧
    (drafts.foldl (Admission.consider f) {}).reports = verdicts.filterMap Verdict.report? ∧
    ∀ i d e, drafts[i]? = some d → verdicts[i]? = some (.kept e) →
      e.span = (locate f d.key ((drafts.take i).foldl (Admission.consider f) {}).cursor).1 := by
  -- from the end, because the cursor of a draft depends on those before it
  induction drafts using List.reverseRecOn with
  | nil => exact ⟨[], ⟨rfl, by simp⟩, rfl, rfl, fun i d e hd => by simp at hd⟩
  | append_singleton drafts d ih =>
      obtain ⟨verdicts, hjudged, hkept, hreports, hspans⟩ := ih
      obtain ⟨v, hv, hkept', hreports'⟩ :=
        exists_judged f (drafts.foldl (Admission.consider f) {}) d
      have hspan : ∀ e, v = .kept e →
          e.span = (locate f d.key (drafts.foldl (Admission.consider f) {}).cursor).1 := by
        rintro e rfl
        exact Admission.span_consider hkept'
      rw [hkept] at hv
      refine ⟨verdicts ++ [v], hjudged.concat hv, ?_, ?_, ?_⟩
      · rw [List.foldl_concat, hkept', hkept, List.filterMap_append]
        cases v <;> rfl
      · rw [List.foldl_concat, hreports', hreports, List.filterMap_append]
        cases v <;> rfl
      · intro i d' e hd hverdict
        have hlen := hjudged.length_eq
        -- an earlier draft, the last one, or none
        rcases Nat.lt_trichotomy i drafts.length with hlt | rfl | hgt
        · rw [List.getElem?_append_left hlt] at hd
          rw [List.getElem?_append_left (by omega)] at hverdict
          rw [List.take_append_of_le_length (by omega)]
          exact hspans i d' e hd hverdict
        · rw [List.getElem?_concat_length] at hd
          rw [← hlen, List.getElem?_concat_length] at hverdict
          obtain rfl := Option.some.inj hd
          rw [List.take_left]
          exact hspan e (Option.some.inj hverdict)
        · rw [List.getElem?_eq_none (by simp; omega)] at hd
          cases hd

/-- **The first pass** gives each draft its verdict, in order. -/
theorem exists_judgement (f : File) (drafts : List Draft) : ∃ verdicts, Judgement drafts verdicts ∧
    (drafts.foldl (Admission.consider f) {}).kept = verdicts.filterMap Verdict.entry? ∧
    (drafts.foldl (Admission.consider f) {}).reports = verdicts.filterMap Verdict.report? := by
  obtain ⟨verdicts, hjudged, hkept, hreports, -⟩ := exists_judgement_located f drafts
  exact ⟨verdicts, hjudged, hkept, hreports⟩

/-! ## Links -/

/-- Whether a diagnostic says that the entry of a key has no containing type, though it names
one. -/
def onContaining (key : String) (d : Diagnostic) : Bool :=
  d.subject = key && (d.code = .manifestMissingContaining || d.code = .badContainingType)

def Entry.unlinked (e : Entry) : Entry :=
  { e with owner := none }

/-- The second pass gives an entry its link or reports why not, and never both. -/
theorem ownerOf_cases (kept : List Entry) (e : Entry) :
    (e.draft.containing = "" ∧ ownerOf kept e = (none, [])) ∨
    (e.draft.containing ≠ "" ∧ ∃ place, ownerOf kept e = (some place, [])) ∨
    (e.draft.containing ≠ "" ∧ ∃ d, ownerOf kept e = (none, [d]) ∧
      onContaining e.key d = true) := by
  unfold ownerOf
  dsimp only
  by_cases hc : e.draft.containing = ""
  · exact Or.inl ⟨hc, if_pos hc⟩
  · rw [if_neg hc]
    right
    split
    · split
      · exact Or.inl ⟨hc, _, rfl⟩
      · exact Or.inr ⟨hc, _, rfl, by simp [onContaining, Diagnostic.error]⟩
    · exact Or.inr ⟨hc, _, rfl, by simp [onContaining, Diagnostic.error]⟩

theorem loops_link {links : Array (Option Nat)} {fuel : Nat} {seen : List Nat} {i : Nat}
    (h : loops links fuel seen i = true) : ∃ j, Link links i j := by
  cases fuel with
  | zero => simp [loops] at h
  | succ fuel =>
      rw [loops] at h
      cases hlink : links[i]?.join with
      | none => simp [hlink] at h
      | some j => exact ⟨j, hlink⟩

/-- **The third pass** cuts links that were there, each once, and leaves the other ones. -/
theorem cutLoops_spec {places : List Nat} (hplaces : places.Nodup) :
    ∀ links : Array (Option Nat),
      (cutLoops links places).2.Nodup ∧
      (∀ i ∈ (cutLoops links places).2, i ∈ places ∧ ∃ j, Link links i j) ∧
      ∀ i, (cutLoops links places).1[i]?.join
        = if i ∈ (cutLoops links places).2 then none else links[i]?.join := by
  induction places with
  | nil => intro links; simp [cutLoops]
  | cons k places ih =>
      obtain ⟨hk, hplaces⟩ := List.nodup_cons.mp hplaces
      intro links
      rw [cutLoops]
      by_cases hl : loops links (links.size + 1) [k] k = true
      · rw [if_pos hl]
        obtain ⟨hnodup, hcut, hrest⟩ := ih hplaces (links.setIfInBounds k none)
        have hknot : k ∉ (cutLoops (links.setIfInBounds k none) places).2 :=
          fun hmem => hk (hcut k hmem).1
        refine ⟨List.nodup_cons.mpr ⟨hknot, hnodup⟩, ?_, ?_⟩
        · intro i hi
          rcases List.mem_cons.mp hi with rfl | hi
          · exact ⟨List.mem_cons_self, loops_link hl⟩
          · obtain ⟨hmem, j, hj⟩ := hcut i hi
            exact ⟨List.mem_cons_of_mem k hmem, j, (link_of_cut hj).2⟩
        · intro i
          dsimp only
          rw [hrest i, Array.getElem?_setIfInBounds]
          by_cases hik : i = k
          · -- the link of `k` is gone, and it was not cut a second time
            subst hik
            rw [if_neg hknot, if_pos rfl, if_pos List.mem_cons_self]
            split <;> rfl
          · have hki : ¬ k = i := fun h => hik h.symm
            simp [hik, hki]
      · rw [if_neg hl]
        obtain ⟨hnodup, hcut, hrest⟩ := ih hplaces links
        refine ⟨hnodup, ?_, hrest⟩
        intro i hi
        obtain ⟨hmem, hj⟩ := hcut i hi
        exact ⟨List.mem_cons_of_mem k hmem, hj⟩

theorem getElem?_linkEntries (kept : List Entry) (i : Nat) :
    (linkEntries kept).1[i]?
      = kept[i]?.map fun e => { e with owner := (cutLinks kept).1[i]?.join } := by
  rw [linkEntries_eq, List.getElem?_toArray, List.getElem?_mapIdx]

theorem reports_linkEntries (kept : List Entry) :
    (linkEntries kept).2 = kept.flatMap (fun e => (ownerOf kept e).2) ++
      (cutLinks kept).2.filterMap fun i => kept[i]?.map circleReport := by
  rw [linkEntries_eq]

/-- **The links that remain.** A link of the second pass is cut or stays, and only links are cut. -/
theorem cutLinks_spec (kept : List Entry) : (cutLinks kept).2.Nodup ∧
    ∀ {i : Nat} {e : Entry}, kept[i]? = some e →
      (i ∈ (cutLinks kept).2 → (ownerOf kept e).1 ≠ none) ∧
      (cutLinks kept).1[i]?.join = if i ∈ (cutLinks kept).2 then none else (ownerOf kept e).1 := by
  obtain ⟨hnodup, hcut, hrest⟩ := cutLoops_spec (List.nodup_range (n := kept.length))
    ((kept.map (ownerOf kept)).map Prod.fst).toArray
  refine ⟨hnodup, fun {i e} he => ?_⟩
  -- before circles are cut the links are those of the second pass
  have howner : ((kept.map (ownerOf kept)).map Prod.fst).toArray[i]?.join = (ownerOf kept e).1 := by
    rw [List.getElem?_toArray, List.getElem?_map, List.getElem?_map, he]
    rfl
  constructor
  · intro hmem
    obtain ⟨j, hj⟩ := (hcut i hmem).2
    unfold Link at hj
    rw [howner] at hj
    simp [hj]
  · rw [← howner]
    exact hrest i

/-- What was said of the links of all entries, as far as it is about one of them, is what was said
of that one. -/
theorem countP_flatMap_ownerOf {kept es : List Entry} (hn : (es.map Entry.key).Nodup) {e : Entry}
    (he : e ∈ es) : (es.flatMap fun e => (ownerOf kept e).2).countP (onContaining e.key)
      = (ownerOf kept e).2.length := by
  -- a report is about the entry whose link it is on
  have hother : ∀ e' : Entry, e'.key ≠ e.key →
      (ownerOf kept e').2.countP (onContaining e.key) = 0 := by
    intro e' hne
    rcases ownerOf_cases kept e' with ⟨-, h⟩ | ⟨-, place, h⟩ | ⟨-, d, h, hd⟩
    · simp [h]
    · simp [h]
    · have hsubject : d.subject = e'.key := by
        simp only [onContaining, Bool.and_eq_true, decide_eq_true_eq] at hd
        exact hd.1
      simp [h, onContaining, hsubject, hne]
  have hown : (ownerOf kept e).2.countP (onContaining e.key) = (ownerOf kept e).2.length := by
    rcases ownerOf_cases kept e with ⟨-, h⟩ | ⟨-, place, h⟩ | ⟨-, d, h, hd⟩
    · simp [h]
    · simp [h]
    · simp [h, hd]
  induction es with
  | nil => cases he
  | cons x es ih =>
      rw [List.map_cons, List.nodup_cons] at hn
      rw [List.flatMap_cons, List.countP_append]
      rcases List.mem_cons.mp he with rfl | he
      · have hrest : (es.flatMap fun e => (ownerOf kept e).2).countP (onContaining e.key) = 0 := by
          rw [List.countP_flatMap, List.sum_eq_zero]
          intro n hmem
          obtain ⟨x, hx, rfl⟩ := List.mem_map.mp hmem
          exact hother x fun heq => hn.1 (heq ▸ List.mem_map_of_mem hx)
        rw [hown, hrest, Nat.add_zero]
      · rw [hother x fun heq => hn.1 (heq ▸ List.mem_map_of_mem he), ih hn.2 he, Nat.zero_add]

theorem onContaining_circleReport {key : String} (e : Entry) :
    onContaining key (circleReport e) = true ↔ e.key = key := by
  simp only [onContaining, Bool.and_eq_true, Bool.or_eq_true, decide_eq_true_eq]
  simp [circleReport, Diagnostic.error]

/-- Each link that was cut has one report, however reports on an entry are told from others. -/
theorem countP_circleReport {kept : List Entry} (hn : (kept.map Entry.key).Nodup) {i : Nat}
    {e : Entry} (he : kept[i]? = some e) {cut : List Nat} (hcut : cut.Nodup)
    {about : Diagnostic → Bool}
    (habout : ∀ x, about (circleReport x) = true ↔ x.key = e.key) :
    (cut.filterMap fun i => kept[i]?.map circleReport).countP about = if i ∈ cut then 1 else 0 := by
  have hiff : ∀ j, ((kept[j]?.map circleReport).map about).getD false = true ↔ j = i := by
    intro j
    cases hj : kept[j]? with
    | none =>
        simp only [Option.map_none, Option.getD_none, Bool.false_eq_true, false_iff]
        rintro rfl
        rw [hj] at he
        cases he
    | some e' =>
        simp only [Option.map_some, Option.getD_some, habout]
        constructor
        · intro hkey
          -- entries with one key stand at one place
          obtain ⟨hilt, hie⟩ := List.getElem?_eq_some_iff.mp he
          obtain ⟨hjlt, hje⟩ := List.getElem?_eq_some_iff.mp hj
          have hi' : i < (kept.map Entry.key).length := by simpa using hilt
          have hj' : j < (kept.map Entry.key).length := by simpa using hjlt
          have hkeys : (kept.map Entry.key)[j] = (kept.map Entry.key)[i] := by
            simp only [List.getElem_map, hie, hje, hkey]
          exact (List.Nodup.getElem_inj_iff hn).mp hkeys
        · rintro rfl
          rw [he] at hj
          obtain rfl := Option.some.inj hj
          rfl
  calc (cut.filterMap fun i => kept[i]?.map circleReport).countP about
      = cut.countP fun j => ((kept[j]?.map circleReport).map about).getD false :=
        List.countP_filterMap
    _ = cut.count i := List.countP_congr fun j _ => by rw [hiff, beq_iff_eq]
    _ = if i ∈ cut then 1 else 0 := hcut.count

/-- **What the second and third pass leave of a link.** An entry that names no containing type has
none, and nothing is said. One that names a type is linked with the entry of that key, which is a
type, or it has no link and there is one report. -/
theorem account_links {kept : List Entry} (hk : Distinct kept) {i : Nat} {e : Entry}
    (he : (linkEntries kept).1[i]? = some e) :
    (e.draft.containing = "" → e.owner = none ∧
      (linkEntries kept).2.countP (onContaining e.key) = 0) ∧
    (e.draft.containing ≠ "" →
      (∃ j o, e.owner = some j ∧ (linkEntries kept).1[j]? = some o ∧ o.key = e.draft.containing ∧
        o.kind = .type ∧ (linkEntries kept).2.countP (onContaining e.key) = 0) ∨
      (e.owner = none ∧ (linkEntries kept).2.countP (onContaining e.key) = 1)) := by
  rw [getElem?_linkEntries] at he
  obtain ⟨e₀, he₀, rfl⟩ := Option.map_eq_some_iff.mp he
  obtain ⟨hnodup, hlinks⟩ := cutLinks_spec kept
  obtain ⟨hcut, howner⟩ := hlinks he₀
  have hcount : (linkEntries kept).2.countP (onContaining e₀.key)
      = (ownerOf kept e₀).2.length + if i ∈ (cutLinks kept).2 then 1 else 0 := by
    rw [reports_linkEntries, List.countP_append,
      countP_flatMap_ownerOf hk.nodup (List.mem_of_getElem? he₀),
      countP_circleReport hk.nodup he₀ hnodup onContaining_circleReport]
  show (e₀.draft.containing = "" → (cutLinks kept).1[i]?.join = none ∧
      (linkEntries kept).2.countP (onContaining e₀.key) = 0) ∧
    (e₀.draft.containing ≠ "" → (∃ j o, (cutLinks kept).1[i]?.join = some j ∧
        (linkEntries kept).1[j]? = some o ∧ o.key = e₀.draft.containing ∧ o.kind = .type ∧
        (linkEntries kept).2.countP (onContaining e₀.key) = 0) ∨
      ((cutLinks kept).1[i]?.join = none ∧
        (linkEntries kept).2.countP (onContaining e₀.key) = 1))
  rw [hcount, howner]
  -- no type is named, a type is found and linked, or there is one report on the name
  rcases ownerOf_cases kept e₀ with ⟨hc, h⟩ | ⟨hc, place, h⟩ | ⟨hc, d, h, -⟩
  · have hnot : i ∉ (cutLinks kept).2 := fun hmem => hcut hmem (by rw [h])
    simp [hc, h, hnot]
  · refine ⟨fun hempty => absurd hempty hc, fun _ => ?_⟩
    by_cases hmem : i ∈ (cutLinks kept).2
    · -- the one report is that of the circle
      exact Or.inr (by simp [h, hmem])
    · left
      obtain ⟨o, ho, htype, hkey⟩ := ownerOf_type (show (ownerOf kept e₀).1 = some place by rw [h])
      refine ⟨place, { o with owner := (cutLinks kept).1[place]?.join }, by simp [h, hmem],
        ?_, hkey, htype, by simp [h, hmem]⟩
      rw [getElem?_linkEntries, ho]
      rfl
  · have hnot : i ∉ (cutLinks kept).2 := fun hmem => hcut hmem (by rw [h])
    simp [hc, h, hnot]

/-! ## The whole file -/

/-- Every report of the last two passes is on the link of an entry. -/
theorem onContaining_of_mem {kept : List Entry} {d : Diagnostic} (hd : d ∈ (linkEntries kept).2) :
    ∃ e ∈ kept, onContaining e.key d = true := by
  rw [reports_linkEntries] at hd
  rcases List.mem_append.mp hd with hd | hd
  · obtain ⟨e, he, hd⟩ := List.mem_flatMap.mp hd
    refine ⟨e, he, ?_⟩
    rcases ownerOf_cases kept e with ⟨-, h⟩ | ⟨-, place, h⟩ | ⟨-, d', h, hd'⟩
    · simp [h] at hd
    · simp [h] at hd
    · rw [h] at hd
      rwa [List.mem_singleton.mp hd]
  · obtain ⟨i, -, hd⟩ := List.mem_filterMap.mp hd
    obtain ⟨e, he, rfl⟩ := Option.map_eq_some_iff.mp hd
    exact ⟨e, List.mem_of_getElem? he, (onContaining_circleReport e).mpr rfl⟩

theorem countP_onContaining_eq_zero {reports : List Diagnostic} (key : String)
    (h : ∀ d ∈ reports, d.code ≠ .manifestMissingContaining ∧ d.code ≠ .badContainingType) :
    reports.countP (onContaining key) = 0 := by
  rw [List.countP_eq_zero]
  intro d hd
  simp [onContaining, h d hd]

theorem Draft.fault_ne (d : Draft) :
    d.fault ≠ .manifestMissingContaining ∧ d.fault ≠ .badContainingType := by
  unfold Draft.fault
  split
  · decide
  · split <;> decide

theorem Judgement.exists_draft {drafts : List Draft} {verdicts : List Verdict}
    (h : Judgement drafts verdicts) {v : Verdict} (hv : v ∈ verdicts) :
    ∃ d earlier, Judged earlier d v := by
  obtain ⟨i, hi⟩ := List.mem_iff_getElem?.mp hv
  have hlt : i < drafts.length := by
    have := (List.getElem?_eq_some_iff.mp hi).1
    have := h.length_eq
    omega
  exact ⟨drafts[i], _, h.judged i drafts[i] v (List.getElem?_eq_getElem hlt) hi⟩

/-- Reports on drafts that were dropped are not on links. -/
theorem Judgement.countP_onContaining {drafts : List Draft} {verdicts : List Verdict}
    (h : Judgement drafts verdicts) (key : String) :
    (verdicts.filterMap Verdict.report?).countP (onContaining key) = 0 := by
  refine countP_onContaining_eq_zero key fun report hreport => ?_
  obtain ⟨v, hv, hv'⟩ := List.mem_filterMap.mp hreport
  obtain ⟨d, earlier, hjudged⟩ := h.exists_draft hv
  cases v with
  | kept e => cases hv'
  | dropped report' =>
      obtain rfl := Option.some.inj hv'
      rw [(hjudged.report report' rfl).2.1]
      exact d.fault_ne

theorem Judgement.map_unlinked {drafts : List Draft} {verdicts : List Verdict}
    (h : Judgement drafts verdicts) : (verdicts.filterMap Verdict.entry?).map Entry.unlinked
      = verdicts.filterMap Verdict.entry? := by
  refine (List.map_congr_left fun e he => ?_).trans (List.map_id _)
  obtain ⟨v, hv, hv'⟩ := List.mem_filterMap.mp he
  obtain ⟨d, earlier, hjudged⟩ := h.exists_draft hv
  cases v with
  | dropped report => cases hv'
  | kept e' =>
      obtain rfl := Option.some.inj hv'
      have howner := (hjudged.entry e' rfl).2.2
      simp [Entry.unlinked, ← howner]

theorem unlinked_linkEntries (kept : List Entry) :
    (linkEntries kept).1.toList.map Entry.unlinked = kept.map Entry.unlinked := by
  apply List.ext_getElem?
  intro i
  rw [List.getElem?_map, Array.getElem?_toList, getElem?_linkEntries, List.getElem?_map,
    Option.map_map]
  rfl

/-- Where keys are distinct, looking a key up finds the entry that has it. -/
theorem Program.get?_eq_some_iff {p : Program} (h : Distinct p.entries.toList) {key : String}
    {e : Entry} : p.get? key = some e ↔ e ∈ p.entries.toList ∧ e.key = key := by
  unfold Program.get?
  constructor
  · intro hfind
    exact ⟨List.mem_of_find?_eq_some hfind, by simpa using List.find?_some hfind⟩
  · rintro ⟨he, rfl⟩
    cases hfind : p.entries.toList.find? (·.key == e.key) with
    | none =>
        have := List.find?_eq_none.mp hfind e he
        simp at this
    | some e' =>
        have hkey : e'.key = e.key := by simpa using List.find?_some hfind
        rw [List.inj_on_of_nodup_map h.nodup (List.mem_of_find?_eq_some hfind) he hkey]

/-- **What becomes of the tables of a manifest.** A draft is called what its table says, trimmed and
composed, and so is its containing type. Every draft has one verdict: it is kept as an entry, or
dropped with one report, which happens exactly if its key is empty, its kind has no meaning, or the
key is that of an entry kept before. The entries of the program are those that were kept, in their
order, with distinct keys, and looking a key up finds the entry that has it. An entry that names a
containing type is linked with the entry of that key, which is a type, or has no link and one report
about it; one that names none has no link and no such report. -/
theorem decode_account {fs : FileSet} {id : UInt32} {f : File} (hf : fs.get? id = some f)
    {fields : Toml.Fields} {unknown : List Toml.Key}
    (h : Toml.Document.read Draft.manifestFields f.content = .ok (fields, unknown)) :
    ∃ p reports warnings verdicts links, decodeFile fs id = (.ok p, reports) ∧
      reports = warnings ++ verdicts.filterMap Verdict.report? ++ links ∧
      (∀ d ∈ warnings, d.severity = .warning ∧ d.code = .manifestParse) ∧
      (∀ d ∈ links, ∃ e ∈ p.entries.toList, onContaining e.key d = true) ∧
      (∀ t ∈ fields.tables "symbol", DraftOf t (Draft.ofFields t)) ∧
      Judgement ((fields.tables "symbol").map Draft.ofFields) verdicts ∧
      p.entries.toList.map Entry.unlinked = verdicts.filterMap Verdict.entry? ∧
      (p.entries.toList.map Entry.key).Nodup ∧ (∀ e ∈ p.entries.toList, e.key ≠ "") ∧
      (∀ key e, p.get? key = some e ↔ e ∈ p.entries.toList ∧ e.key = key) ∧
      ∀ e ∈ p.entries.toList,
        (e.draft.containing = "" →
          e.owner = none ∧ reports.countP (onContaining e.key) = 0) ∧
        (e.draft.containing ≠ "" →
          (∃ j o, e.owner = some j ∧ p.entries[j]? = some o ∧ o.key = e.draft.containing ∧
            o.kind = .type ∧ reports.countP (onContaining e.key) = 0) ∨
          (e.owner = none ∧ reports.countP (onContaining e.key) = 1)) := by
  obtain ⟨verdicts, hjudged, hkept, hreports⟩ :=
    exists_judgement f ((fields.tables "symbol").map Draft.ofFields)
  have hdistinct := distinct_admitted f ((fields.tables "symbol").map Draft.ofFields)
  rw [hkept] at hdistinct
  set kept := verdicts.filterMap Verdict.entry? with hkept'
  set warnings := unknown.map fun k => Diagnostic.warning .manifestParse { file := f.id } ""
    ("unknown manifest field " ++ Text.quote (Toml.Key.toText k) ++ " ignored") with hwarnings
  set p : Program := ⟨f.path, f.id, f.digest, (linkEntries kept).1⟩ with hp
  have hdecode : decodeFile fs id
      = (.ok p, warnings ++ verdicts.filterMap Verdict.report? ++ (linkEntries kept).2) := by
    unfold decodeFile decode
    rw [hf]
    dsimp only
    rw [h]
    dsimp only [ofDrafts]
    rw [hkept, hreports, List.append_assoc]
  have hwarn : ∀ d ∈ warnings, d.severity = .warning ∧ d.code = .manifestParse := by
    intro d hd
    obtain ⟨k, -, rfl⟩ := List.mem_map.mp hd
    exact ⟨rfl, rfl⟩
  -- only the last part of the reports is on links
  have hcount : ∀ key,
      (warnings ++ verdicts.filterMap Verdict.report? ++ (linkEntries kept).2).countP
      (onContaining key) = (linkEntries kept).2.countP (onContaining key) := by
    intro key
    have hfirst : warnings.countP (onContaining key) = 0 :=
      countP_onContaining_eq_zero key fun d hd => by rw [(hwarn d hd).2]; decide
    rw [List.countP_append, List.countP_append, hfirst, hjudged.countP_onContaining]
    omega
  have hwell : Distinct p.entries.toList := (linkEntries_wellFormed hdistinct _ _ _).distinct
  refine ⟨p, _, warnings, verdicts, (linkEntries kept).2, hdecode, rfl, hwarn, ?_,
    fun _ ht => draftOf_ofFields h ht, hjudged, ?_, hwell.nodup, hwell.key_ne,
    fun key e => Program.get?_eq_some_iff hwell, ?_⟩
  · intro d hd
    obtain ⟨e, he, hon⟩ := onContaining_of_mem hd
    obtain ⟨i, hi⟩ := List.mem_iff_getElem?.mp he
    refine ⟨{ e with owner := (cutLinks kept).1[i]?.join }, ?_, hon⟩
    refine List.mem_of_getElem? (i := i) ?_
    rw [Array.getElem?_toList, getElem?_linkEntries, hi]
    rfl
  · exact (unlinked_linkEntries kept).trans hjudged.map_unlinked
  · intro e he
    obtain ⟨i, hi⟩ := List.mem_iff_getElem?.mp he
    rw [Array.getElem?_toList] at hi
    rw [hcount]
    exact account_links hdistinct hi

/-- A manifest with an unknown kind, a type inside itself, a key that is taken once blanks are
trimmed, a method as a container, and no key. -/
def untidyManifest : String :=
  "[[symbol]]\nkey=\"A\"\nkind=\"?\"\n" ++
  "[[symbol]]\nkey=\"A\"\nkind=\"type\"\ncontaining=\"A\"\n" ++
  "[[symbol]]\nkey=\" A\"\nkind=\"type\"\n" ++
  "[[symbol]]\nkey=\"m\"\nkind=\"method\"\ncontaining=\"A\"\n" ++
  "[[symbol]]\nkey=\"x\"\nkind=\"local\"\ncontaining=\"m\"\n" ++
  "[[symbol]]\nkind=\"type\"\n"

def untidyFiles : FileSet :=
  (FileSet.addVirtual {} "untidy.toml" (Text.Utf8.encode untidyManifest)).2

def untidyDrafts : List Draft :=
  [{ key := "A", kindName := "?" }, { key := "A", kindName := "type", containing := "A" },
    { key := "A", kindName := "type" }, { key := "m", kindName := "method", containing := "A" },
    { key := "x", kindName := "local", containing := "m" }, { key := "", kindName := "type" }]

theorem decode_account_untidy : ∃ f fields unknown, untidyFiles.get? 1 = some f ∧
    Toml.Document.read Draft.manifestFields f.content = .ok (fields, unknown) ∧
    (fields.tables "symbol").map Draft.ofFields = untidyDrafts ∧
    ∃ p reports verdicts, decodeFile untidyFiles 1 = (.ok p, reports) ∧
      (∀ t ∈ fields.tables "symbol", DraftOf t (Draft.ofFields t)) ∧
      Judgement ((fields.tables "symbol").map Draft.ofFields) verdicts ∧
      verdicts.map Verdict.code?
        = [some .manifestUnknownKind, none, some .manifestDuplicateKey, none, none,
        some .manifestEmptyKey] ∧
      p.entries.toList.map Entry.unlinked = verdicts.filterMap Verdict.entry? ∧
      (p.entries.toList.map fun e => (e.key, e.owner, reports.countP (onContaining e.key)))
        = [("A", none, 1), ("m", some 0, 0), ("x", none, 1)] ∧
      ∀ e ∈ p.entries.toList, e.draft.containing ≠ "" →
        (∃ j, e.owner = some j ∧ reports.countP (onContaining e.key) = 0) ∨
        (e.owner = none ∧ reports.countP (onContaining e.key) = 1) := by
  have hdrafts : (untidyFiles.get? 1).bind (fun f =>
      (Toml.Document.read Draft.manifestFields f.content).toOption.map fun r =>
        (r.1.tables "symbol").map Draft.ofFields) = some untidyDrafts := by decide +kernel
  obtain ⟨f, hf, hdrafts⟩ := Option.bind_eq_some_iff.mp hdrafts
  obtain ⟨⟨fields, unknown⟩, hread, hdrafts⟩ := Option.map_eq_some_iff.mp hdrafts
  replace hread : Toml.Document.read Draft.manifestFields f.content = .ok (fields, unknown) := by
    rcases h : Toml.Document.read Draft.manifestFields f.content with _ | r
    · rw [h] at hread
      cases hread
    · rw [h] at hread
      rw [Option.some.inj hread]
  obtain ⟨p, reports, -, verdicts, -, hdecode, -, -, -, htables, hjudged, hentries, -, -, -,
      hlinks⟩ :=
    decode_account hf hread
  have hcounts : ((decodeFile untidyFiles 1).1.toOption.map fun p => p.entries.toList.map fun e =>
      (e.key, e.owner, (decodeFile untidyFiles 1).2.countP (onContaining e.key)))
      = some [("A", none, 1), ("m", some 0, 0), ("x", none, 1)] := by decide +kernel
  rw [hdecode] at hcounts
  refine ⟨f, fields, unknown, hf, hread, hdrafts, p, reports, verdicts, hdecode, htables, hjudged,
    ?_, hentries, Option.some.inj hcounts, ?_⟩
  · rw [hjudged.codes, hdrafts]
    decide +kernel
  · intro e he hc
    rcases (hlinks e he).2 hc with ⟨j, -, hj, -, -, -, hcount⟩ | hnone
    · exact Or.inl ⟨j, hj, hcount⟩
    · exact Or.inr hnone

end SymbolAtlas.Manifest
