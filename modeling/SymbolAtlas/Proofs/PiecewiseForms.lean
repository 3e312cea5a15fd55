import SymbolAtlas.Proofs.PiecewiseScans

set_option autoImplicit false

/-! # Reading the forms of a document piecewise

For every form of the grammar: a reader over a piece of a document and its twin over the whole stay
beside each other. The lemmas follow the definitions of the readers, one for each. Their bounds may
differ, as long as both are enough for what is left of the piece. -/

namespace SymbolAtlas.Toml

open Text

namespace ScanM

theorem Fails.after {α β : Type} (m : ScanM α) {f : α → ScanM β} (h : ∀ a, Fails (f a)) :
    Fails (m >>= f) := by
  intro s b t hrun
  obtain ⟨a, u, -, hf⟩ := exec_bind_eq_ok.mp hrun
  exact h a u b t hf

end ScanM

open ScanM

namespace Surroundings

variable {d : Surroundings} {n : Nat} {cs : List Char}

/-! ## Characters inside a line -/

/-- A character that passes a test which neither the end nor a line end passes. -/
theorem Inside.test {p : Char → Bool} {c : Char} (hcs : Inside cs) (hc : p c = true)
    (hend : p endMark = false) (hline : p '\n' = false) : Inside (c :: cs) := by
  refine hcs.cons ?_ ?_
  · rintro rfl
    rw [hend] at hc
    cases hc
  · rintro rfl
    rw [hline] at hc
    cases hc

theorem Inside.same {c x : Char} (hcs : Inside cs) (hc : (c == x) = true) (hx : Inside [x]) :
    Inside (c :: cs) := by
  obtain rfl : c = x := by simpa using hc
  exact hcs.cons (fun h => hx.1 (by simp [h])) (fun h => hx.2 (by simp [h]))

theorem Inside.either {c x y : Char} (hcs : Inside cs) (hc : (c == x || c == y) = true)
    (hx : Inside [x]) (hy : Inside [y]) : Inside (c :: cs) := by
  rcases (Bool.or_eq_true _ _).mp hc with hc | hc
  · exact hcs.same hc hx
  · exact hcs.same hc hy

instance (cs : List Char) : Decidable (Inside cs) :=
  inferInstanceAs (Decidable (_ ∧ _))

theorem Inside.neither {c : Char} (hcs : Inside cs) (hend : ¬ (c == endMark) = true)
    (hline : ¬ isLineEnd c = true) : Inside (c :: cs) := by
  refine hcs.cons (by simpa using hend) ?_
  rintro rfl
  exact hline rfl

/-! ## Closing a string -/

theorem Took.front {c : Char} {s t : Scanner} (h : Took (cs ++ [c]) s t) :
    ∃ u, exec next s = (.ok c, u) ∧ Took cs u t := by
  induction cs generalizing t with
  | nil =>
      obtain _ | ⟨h, hnext⟩ := h
      cases h
      exact ⟨t, hnext, .nil t⟩
  | cons x cs ih =>
      obtain _ | ⟨h, hnext⟩ := h
      obtain ⟨u, hu, hcs⟩ := ih h
      exact ⟨u, hu, hcs.cons hnext⟩

theorem Took.exec_backs {s t : Scanner} (h : Took cs s t) (hs : s.atEnd = false)
    (hend : endMark ∉ cs) (l : List Nat) (hl : l.length = cs.length) :
    exec (forIn l () fun _ _ => do back; Pure.pure (.yield ())) t = (.ok (), s) := by
  induction h generalizing l with
  | nil s =>
      obtain rfl := List.length_eq_zero_iff.mp hl
      rfl
  | @cons cs s u t c hu hnext ih =>
      obtain ⟨x, l, rfl⟩ := List.exists_cons_of_length_eq_add_one hl
      rw [List.mem_cons, not_or] at hend
      rw [List.forIn_cons, bind_assoc, exec_bind_ok (exec_back hnext (hu.atEnd hs hend.2)),
        pure_bind]
      exact ih hs hend.2 l (Nat.succ.inj hl)

/-- The same characters can be read again, whatever tokens there are. -/
theorem Took.exec_nexts {s t : Scanner} (h : Took cs s t) (tokens : List Token) (start : Nat)
    (l : List Nat) (hl : l.length = cs.length) :
    exec (forIn l () fun _ _ => do let _ ← next; Pure.pure (.yield ())) { s with tokens, start }
      = (.ok (), { t with tokens, start }) := by
  induction l generalizing cs s with
  | nil =>
      obtain rfl := List.length_eq_zero_iff.mp hl.symm
      cases h
      rfl
  | cons x l ih =>
      obtain rfl | ⟨cs, c, rfl⟩ := List.eq_nil_or_concat' cs
      · cases hl
      · obtain ⟨u, hnext, hu⟩ := h.front
        rw [List.forIn_cons, bind_assoc, exec_bind_ok (exec_next_marked hnext tokens start),
          pure_bind]
        exact ih hu (by simpa using hl)

/-- **Closing a string** ends its token before the quotes. -/
theorem Took.exec_closeString {s t : Scanner} (h : Took cs s t) (hs : s.atEnd = false)
    (hend : endMark ∉ cs) (kind : TokenKind) : exec (closeString kind cs.length) t
      = (.ok (), { t with
          tokens := ⟨kind, String.ofList s.current, s.place⟩ :: s.tokens
          start := t.position }) := by
  have hlen : (List.range cs.length).length = cs.length := List.length_range
  unfold closeString
  rw [exec_bind_ok (h.exec_backs hs hend _ hlen), exec_bind_ok (exec_emit kind s),
    exec_bind_ok (h.exec_nexts _ _ _ hlen)]
  rfl

namespace After

theorem ite {α : Type} {p : Prop} [Decidable p] {m m' k k' : ScanM α} (ht : p → d.After n cs m m')
    (hf : ¬ p → d.After n cs k k') :
    d.After n cs (if p then m else k) (if p then m' else k') := by
  by_cases hp : p
  · rw [if_pos hp, if_pos hp]
    exact ht hp
  · rw [if_neg hp, if_neg hp]
    exact hf hp

theorem guard {α : Type} {p : Prop} [Decidable p] {m m' k k' : ScanM α} (hm : Fails m)
    (hf : ¬ p → d.After n cs k k') :
    d.After n cs (if p then m else k) (if p then m' else k') :=
  ite (fun _ => fails hm) hf

theorem accept_ite {α : Type} {c : Char} {m m' k k' : ScanM α} (hcs : Inside cs)
    (ht : d.After n (c :: cs) m m') (hf : d.After n cs k k') :
    d.After n cs (accept c >>= fun b => if b = true then m else k)
      (accept c >>= fun b => if b = true then m' else k') :=
  accept_bind hcs (ite (fun _ => ht) fun h => absurd rfl h) (ite (fun h => nomatch h) fun _ => hf)

/-- Of two characters the first stays read if the second one does not come. -/
theorem acceptBoth_ite {α : Type} {x y : Char} {m m' k k' : ScanM α} (hcs : Inside cs)
    (hx : Inside [x]) (hboth : d.After n (y :: x :: cs) m m') (hfirst : d.After n (x :: cs) k k')
    (hnone : d.After n cs k k') :
    d.After n cs (acceptBoth x y >>= fun b => if b = true then m else k)
      (acceptBoth x y >>= fun b => if b = true then m' else k') :=
  acceptBoth_bind hcs (hcs.same (beq_self_eq_true x) hx) (ite (fun _ => hboth) fun h =>
    absurd rfl h)
    (ite (fun h => nomatch h) fun _ => hfirst) (ite (fun h => nomatch h) fun _ => hnone)

theorem within {α : Type} {m m' : ScanM α} (h : d.After n [] m m') (hcs : Inside cs) :
    d.After n cs m m' :=
  h.inside (Nat.le_add_right _ _) hcs

theorem done {α : Type} (a : α) (hcs : Inside cs) :
    d.After n cs (Pure.pure a : ScanM α) (Pure.pure a) :=
  (pure a).within hcs

theorem readWhile {p : Char → Bool} (hend : p endMark = false) (hline : p '\n' = false)
    {fuel fuel' : Nat} (h : n ≤ fuel) (h' : n ≤ fuel') :
    d.After n [] (ScanM.readWhile p fuel) (ScanM.readWhile p fuel') := by
  induction n generalizing fuel fuel' with
  | zero => exact zero _ _
  | succ n ih =>
      obtain ⟨fuel, rfl⟩ :=
        Nat.exists_eq_succ_of_ne_zero (Nat.ne_of_gt (Nat.lt_of_lt_of_le n.succ_pos h))
      obtain ⟨fuel', rfl⟩ :=
        Nat.exists_eq_succ_of_ne_zero (Nat.ne_of_gt (Nat.lt_of_lt_of_le n.succ_pos h'))
      refine next_bind inside_nil fun c => ite (fun hc => ?_) fun _ => ?_
      · exact (ih (by omega) (by omega)).inside (by simp) (inside_nil.test hc hend hline)
      · exact back List.not_mem_nil (pure ())

theorem skipSpaces : d.After n [] ScanM.skipSpaces ScanM.skipSpaces :=
  bound_bind fun _ _ _ h h' => bind (readWhile rfl rfl h h') fun _ => ignore

theorem comment : d.After n [] ScanM.comment ScanM.comment :=
  bind ignore fun _ =>
    bound_bind fun _ _ _ h h' => bind (readWhile rfl rfl h h') fun _ => ignore

theorem closeString (kind : TokenKind) (hcs : Inside cs) :
    d.After n cs (ScanM.closeString kind cs.length) (ScanM.closeString kind cs.length) := by
  intro s s' hs _ t t' ht ht' a u hrun
  rw [ht.exec_closeString hs.open_ hcs.1] at hrun
  obtain ⟨-, rfl⟩ := Prod.mk.inj hrun
  obtain ⟨hjoint, hlen⟩ := hs.inside ht ht' hcs
  refine ⟨_, ht'.exec_closeString hs.open_' hcs.1 kind,
    hjoint.mark (hs.beside.token kind String.ofList), ?_⟩
  show t.rest.length ≤ s.rest.length
  omega

/-- A character that was taken back is read again. -/
theorem reread {α : Type} {c : Char} {f f' : Char → ScanM α} (hend : endMark ∉ cs)
    (h : d.After n (c :: cs) (f c) (f' c)) :
    d.After n (c :: cs) (do ScanM.back; next >>= f) (do ScanM.back; next >>= f') := by
  intro s s' hs hn t t' ht ht' a u hrun
  have h' := h hs hn ht ht'
  obtain _ | ⟨hv, hnext⟩ := ht
  obtain _ | ⟨hv', hnext'⟩ := ht'
  rw [exec_bind_ok (exec_back hnext (hv.atEnd hs.open_ hend)), exec_bind_ok hnext] at hrun
  rw [exec_bind_ok (exec_back hnext' (hv'.atEnd hs.open_' hend)), exec_bind_ok hnext']
  exact h' hrun

theorem reread_ignored {α : Type} {c : Char} {m m' : ScanM α} (h : d.After n [c] m m') :
    d.After n [c] (do ScanM.back; ScanM.ignore; let _ ← next; m)
      (do ScanM.back; ScanM.ignore; let _ ← next; m') := by
  intro s s' hs hn t t' ht ht' a u hrun
  obtain _ | ⟨hv, hnext⟩ := ht
  obtain _ | ⟨hv', hnext'⟩ := ht'
  cases hv
  cases hv'
  have hmarked := exec_next_marked hnext s.tokens s.position
  have hmarked' := exec_next_marked hnext' s'.tokens s'.position
  rw [exec_bind_ok (exec_back hnext hs.open_), exec_bind_ok (exec_ignore s),
    exec_bind_ok hmarked] at hrun
  rw [exec_bind_ok (exec_back hnext' hs.open_'), exec_bind_ok (exec_ignore s'),
    exec_bind_ok hmarked']
  exact h hs.ignore hn ((Took.nil _).cons hmarked) ((Took.nil _).cons hmarked') hrun

/-! ## Strings -/

theorem hexDigits (message : String) (count : Nat) (hcs : Inside cs) :
    d.After n cs (ScanM.hexDigits message count) (ScanM.hexDigits message count) := by
  induction count generalizing cs with
  | zero => exact done () hcs
  | succ count ih =>
      exact next_bind hcs fun c => ite (fun hc => ih (hcs.test hc rfl rfl))
        fun _ => fails (Fails.after _ fun _ => fails_fail _)

theorem escape : d.After n [] ScanM.escape ScanM.escape := by
  refine next_bind inside_nil fun c => ite (fun hc => done () ?_) fun _ =>
    ite (fun hc => hexDigits _ _ ?_) fun _ => ite (fun hc => hexDigits _ _ ?_) fun _ =>
      fails (fails_fail _)
  · exact inside_nil.test hc rfl rfl
  · exact inside_nil.same hc (by decide)
  · exact inside_nil.same hc (by decide)

theorem lineString (quote : Char) (expected : String) (kind : TokenKind) {fuel fuel' : Nat}
    (h : n ≤ fuel) (h' : n ≤ fuel') :
    d.After n [] (ScanM.lineString quote expected kind fuel)
      (ScanM.lineString quote expected kind fuel') := by
  induction n generalizing fuel fuel' with
  | zero => exact zero _ _
  | succ n ih =>
      obtain ⟨fuel, rfl⟩ := Nat.exists_eq_add_one_of_ne_zero (show fuel ≠ 0 by omega)
      obtain ⟨fuel', rfl⟩ := Nat.exists_eq_add_one_of_ne_zero (show fuel' ≠ 0 by omega)
      unfold ScanM.lineString
      dsimp only
      refine next_bind inside_nil fun c => guard (fails_fail _) fun hend =>
        guard (fails_failBefore _)
        fun hline => ?_
      have hcs := inside_nil.neither hend hline
      have hrest := @ih fuel fuel' (by omega) (by omega)
      refine ite (fun _ => closeString kind hcs) fun _ => ite (fun _ => ?_) fun _ => ?_
      · exact (bind escape fun _ => hrest).inside (by simp) hcs
      · exact hrest.inside (by simp) hcs

/-- A string over several lines is never closed where nothing is left. -/
theorem needy_blockString (quote : Char) (kind : TokenKind) (fuel : Nat) :
    Needy (ScanM.blockString quote kind (fuel + 1)) := by
  intro s a t hrest
  unfold ScanM.blockString
  dsimp only
  rw [exec_bind_ok (exec_next_end hrest)]
  exact fails_fail _ _ a t

theorem blockString {quote : Char} (hquote : Inside [quote]) (kind : TokenKind) {fuel fuel' : Nat}
    (h : n ≤ fuel) (h' : n ≤ fuel') :
    d.After n [] (ScanM.blockString quote kind fuel) (ScanM.blockString quote kind fuel') := by
  induction n generalizing fuel fuel' with
  | zero => exact zero _ _
  | succ n ih =>
      obtain ⟨fuel, rfl⟩ := Nat.exists_eq_add_one_of_ne_zero (show fuel ≠ 0 by omega)
      obtain ⟨fuel', rfl⟩ := Nat.exists_eq_add_one_of_ne_zero (show fuel' ≠ 0 by omega)
      -- the string goes on after some characters, unless the end is among them
      have hrest : ∀ {x : Char} {cs : List Char}, endMark ∉ x :: cs → d.After (n + 1) (x :: cs)
          (ScanM.blockString quote kind fuel) (ScanM.blockString quote kind fuel') := by
        intro x cs hend
        refine (ih (by omega) (by omega)).forget (by simp) (fun hmem => absurd hmem hend)
          fun _ hn => ?_
        obtain ⟨fuel, rfl⟩ := Nat.exists_eq_add_one_of_ne_zero (show fuel ≠ 0 by omega)
        exact needy_blockString quote kind fuel
      unfold ScanM.blockString
      dsimp only
      refine next_bind inside_nil fun c => guard (fails_fail _) fun hend => ?_
      have hend' : endMark ∉ [c] := by
        rw [List.mem_singleton]
        rintro rfl
        exact hend rfl
      refine ite (fun hc => ?_) fun _ => ite (fun hc => ?_) fun _ => hrest hend'
      · -- a backslash, and a line end or an escape after it
        obtain ⟨hc, -⟩ := (Bool.and_eq_true _ _).mp hc
        have hcs : Inside [c] := inside_nil.same hc (by decide)
        refine next_bind hcs fun e => ite (fun he => hrest ?_) fun _ => back_bind hcs.1 ?_
        · rw [List.mem_cons, not_or]
          refine ⟨?_, hcs.1⟩
          rintro rfl
          exact absurd he (by decide)
        · exact (bind escape fun _ => ih (by omega) (by omega)).inside (by simp) hcs
      · -- one quote or two belong to the string, three close it unless a fourth one follows
        obtain rfl : c = quote := by simpa using hc
        have htwo : Inside [c, c] := hquote.same (beq_self_eq_true c) hquote
        have hthree : Inside [c, c, c] := htwo.same (beq_self_eq_true c) hquote
        refine accept_ite hquote
          (accept_ite htwo (peek_bind hthree fun x => ite (fun _ => ?_) fun _ => ?_) ?_)
          (hrest hend')
        · refine get_bind hthree.1 fun t t' ht => ?_
          rw [ht.current]
          exact guard ((fails_fail _).bind _) fun _ =>
            back_bind htwo.1 (back_bind hquote.1 (hrest hend'))
        · exact closeString kind hthree
        · exact back_bind hquote.1 (hrest hend')

theorem string (quote : Char) : d.After n [] (ScanM.string quote) (ScanM.string quote) :=
  bound_bind fun _ _ _ h h' => ite (fun _ => lineString _ _ _ h h') fun _ => lineString _ _ _ h h'

theorem anyString {quote : Char} (hquote : Inside [quote]) :
    d.After n [] (ScanM.anyString quote) (ScanM.anyString quote) := by
  have hone : d.After n [] (do ScanM.ignore; ScanM.string quote)
      (do ScanM.ignore; ScanM.string quote) :=
    bind ignore fun _ => string quote
  have htwo : Inside [quote, quote] := hquote.same (beq_self_eq_true quote) hquote
  unfold ScanM.anyString
  dsimp only
  refine accept_ite inside_nil (accept_ite hquote ?_ ?_) hone
  · exact (bind ignore fun _ => bound_bind fun _ _ _ h h' => blockString hquote _ h h').within htwo
  · exact back_bind List.not_mem_nil hone

/-! ## Numbers and dates -/

theorem finishWith {p : Char → Bool} (hend : p endMark = false) (hline : p '\n' = false)
    (kind : TokenKind) :
    d.After n [] (ScanM.finishWith p kind) (ScanM.finishWith p kind) :=
  bound_bind fun _ _ _ h h' => bind (readWhile hend hline h h') fun _ => emit kind

theorem float : d.After n [] ScanM.float ScanM.float :=
  finishWith rfl rfl .float

theorem decimal : d.After n [] ScanM.decimal ScanM.decimal := by
  refine bound_bind fun _ _ _ h h' => bind (readWhile rfl rfl h h') fun _ =>
    next_bind inside_nil fun c => ite (fun hc => ?_) fun _ => ?_
  · exact float.within (inside_nil.test hc rfl rfl)
  · exact back_bind List.not_mem_nil (emit .integer)

theorem datetime : d.After n [] ScanM.datetime ScanM.datetime := by
  refine bound_bind fun _ _ _ h h' => bind (readWhile rfl rfl h h') fun _ => ?_
  refine of_step fun {s s'} hs a u hrun => ?_
  obtain ⟨-, rfl⟩ := Prod.mk.inj hrun
  exact ⟨_, rfl, hs.mark (hs.beside.token .datetime fun cs => trim (String.ofList cs)), rfl⟩

theorem numberOrDate : d.After n [] ScanM.numberOrDate ScanM.numberOrDate := by
  refine bound_bind fun _ _ _ h h' => bind (readWhile rfl rfl h h') fun _ =>
    next_bind inside_nil fun c => ite (fun hc => ?_) fun _ => ite (fun hc => ?_) fun _ =>
      ite (fun hc => ?_) fun _ => ?_
  · exact datetime.within (inside_nil.either hc (by decide) (by decide))
  · exact decimal.within (inside_nil.same hc (by decide))
  · exact float.within (inside_nil.test hc rfl rfl)
  · exact back_bind List.not_mem_nil (emit .integer)

theorem based (name : String) {p : Char → Bool} (hend : p endMark = false)
    (hline : p '\n' = false) :
    d.After n [] (ScanM.based name p) (ScanM.based name p) := by
  unfold ScanM.based
  dsimp only
  refine peek_bind inside_nil fun c => guard ?_ fun _ => ?_
  · exact Fails.after _ fun _ => (fails_fail _).bind _
  · exact finishWith (by simp [hend]; decide) (by simp [hline]) .integer

/-- A number, whose first digit is read a second time. -/
theorem number {c : Char} (hc : c.isDigit = true) :
    d.After n [c] (do ScanM.back; ScanM.number) (do ScanM.back; ScanM.number) := by
  have hcs : Inside [c] := inside_nil.test hc rfl rfl
  refine reread List.not_mem_nil (ite (fun _ => numberOrDate.within hcs) fun _ => ?_)
  refine next_bind hcs fun e => ite (fun he => ?_) fun _ => ite (fun he => ?_) fun _ =>
    ite (fun he => ?_)
    fun _ => ite (fun he => ?_) fun _ => ite (fun he => ?_) fun _ => ite (fun he => ?_) fun _ => ?_
  · exact numberOrDate.within (hcs.test he rfl rfl)
  · exact decimal.within (hcs.same he (by decide))
  · exact float.within (hcs.test he rfl rfl)
  · exact (based _ rfl rfl).within (hcs.same he (by decide))
  · exact (based _ rfl rfl).within (hcs.same he (by decide))
  · exact (based _ rfl rfl).within (hcs.same he (by decide))
  · exact back_bind hcs.1 ((emit .integer).within hcs)

theorem special (second third : Char) (hsecond : Inside [second]) (hthird : Inside [third]) :
    d.After n [] (ScanM.special second third) (ScanM.special second third) := by
  have hfail : ∀ cs, d.After n cs
      (do let s ← get; ScanM.fail ("invalid float: '" ++ String.ofList s.current ++ "'"))
      (do let s ← get; ScanM.fail ("invalid float: '" ++ String.ofList s.current ++ "'") :
          ScanM Unit) :=
    fun _ => fails (Fails.after _ fun _ => fails_fail _)
  exact acceptBoth_ite inside_nil hsecond
    ((emit .float).within (hsecond.same (beq_self_eq_true third) hthird)) (hfail _) (hfail _)

theorem signedNumber : d.After n [] ScanM.signedNumber ScanM.signedNumber := by
  unfold ScanM.signedNumber
  dsimp only
  refine next_bind inside_nil fun c => ite (fun hc => ?_) fun _ => ite (fun hc => ?_) fun _ =>
    guard (fails_fail _) fun _ => ite (fun hc => ?_) fun _ => ite (fun hc => ?_) fun _ =>
      fails (fails_fail _)
  · exact (special 'n' 'f' (by decide) (by decide)).within (inside_nil.same hc (by decide))
  · exact (special 'a' 'n' (by decide) (by decide)).within (inside_nil.same hc (by decide))
  · have hcs : Inside [c] := inside_nil.same hc (by decide)
    exact peek_bind hcs fun e => guard (Fails.after _ fun _ => (fails_fail _).bind _) fun _ =>
      decimal.within hcs
  · exact decimal.within (inside_nil.test hc rfl rfl)

/-! ## Keys and headers -/

theorem keyPart : d.After n [] ScanM.keyPart ScanM.keyPart := by
  unfold ScanM.keyPart ScanM.peek
  simp only [bind_assoc, pure_bind]
  refine next_bind inside_nil fun c => ?_
  by_cases hc : (c == '"' || c == '\'') = true
  · rw [if_pos hc]
    have hcs : Inside [c] := inside_nil.either hc (by decide) (by decide)
    exact reread_ignored ((bind ignore fun _ => string c).within hcs)
  · rw [if_neg hc]
    exact back_bind List.not_mem_nil (finishWith rfl rfl .bare)

theorem keyParts {fuel fuel' : Nat} (h : n ≤ fuel) (h' : n ≤ fuel') :
    d.After n [] (ScanM.keyParts fuel) (ScanM.keyParts fuel') := by
  induction n generalizing fuel fuel' with
  | zero => exact zero _ _
  | succ n ih =>
      obtain ⟨fuel, rfl⟩ := Nat.exists_eq_add_one_of_ne_zero (show fuel ≠ 0 by omega)
      obtain ⟨fuel', rfl⟩ := Nat.exists_eq_add_one_of_ne_zero (show fuel' ≠ 0 by omega)
      unfold ScanM.keyParts
      dsimp only
      refine bind skipSpaces fun _ => peek_bind inside_nil fun c =>
        guard ((fails_fail _).bind _) fun _ => guard ((fails_fail _).bind _) fun _ =>
        bind keyPart fun _ => bind skipSpaces fun _ => ?_
      refine next_bind inside_nil fun e => guard (fails_fail _) fun _ => ite (fun he => ?_) fun _ =>
        ite (fun he => ?_) fun _ => fails (fails_fail _)
      · exact (bind ignore fun _ => ih (by omega) (by omega)).inside (by simp)
          (inside_nil.same he (by decide))
      · exact (bind (emit .keyEnd) fun _ => ignore).within (inside_nil.same he (by decide))

theorem key : d.After n [] ScanM.key ScanM.key := by
  unfold ScanM.key
  dsimp only
  exact bind skipSpaces fun _ => peek_bind inside_nil fun c =>
    guard ((fails_fail _).bind _) fun _ => guard ((fails_fail _).bind _) fun _ =>
    bind (emit .keyStart) fun _ => bound_bind fun _ _ _ h h' => keyParts h h'

theorem headerParts {fuel fuel' : Nat} (h : n ≤ fuel) (h' : n ≤ fuel') :
    d.After n [] (ScanM.headerParts fuel) (ScanM.headerParts fuel') := by
  induction n generalizing fuel fuel' with
  | zero => exact zero _ _
  | succ n ih =>
      obtain ⟨fuel, rfl⟩ := Nat.exists_eq_add_one_of_ne_zero (show fuel ≠ 0 by omega)
      obtain ⟨fuel', rfl⟩ := Nat.exists_eq_add_one_of_ne_zero (show fuel' ≠ 0 by omega)
      unfold ScanM.headerParts
      dsimp only
      refine bind skipSpaces fun _ => peek_bind inside_nil fun c =>
        guard ((fails_fail _).bind _) fun _ => guard ((fails_fail _).bind _) fun _ =>
        bind keyPart fun _ => bind skipSpaces fun _ => ?_
      refine next_bind inside_nil fun e => ite (fun he => ?_) fun _ =>
        ite (fun _ => fails (fails_fail _))
        fun he => done () ?_
      · exact (bind ignore fun _ => ih (by omega) (by omega)).inside (by simp)
          (inside_nil.same he (by decide))
      · exact inside_nil.same (x := ']') (by simpa using he) (by decide)

theorem header : d.After n [] ScanM.header ScanM.header := by
  unfold ScanM.header ScanM.peek
  simp only [bind_assoc, pure_bind]
  refine next_bind inside_nil fun c => ?_
  by_cases hc : (c == '[') = true
  · rw [if_pos hc]
    refine reread List.not_mem_nil
        (within (bind (emit .tableItemStart) fun _ => bound_bind fun _ _ _ h h' =>
      bind (headerParts h h') fun _ => next_bind inside_nil fun e => guard ((fails_fail _).bind _)
        fun he => ?_)
      (inside_nil.same hc (by decide)))
    exact (emit .tableItemEnd).within (inside_nil.same (x := ']') (by simpa using he) (by decide))
  · rw [if_neg hc]
    exact back_bind List.not_mem_nil (bind (emit .tableStart) fun _ => bound_bind fun _ _ _ h h' =>
      bind (headerParts h h') fun _ => emit .tableEnd)

/-! ## Values -/

theorem boolean : d.After n [] ScanM.boolean ScanM.boolean := by
  unfold ScanM.boolean
  refine get_bind List.not_mem_nil fun t t' ht => bound_bind fun _ _ _ h h' =>
    bind (readWhile rfl rfl h h') fun _ => get_bind List.not_mem_nil fun u u' hu => ?_
  -- both read the same word, since they started beside each other
  rw [ht.position, hu.textBack]
  exact ite (fun _ => emit .boolean) fun _ => fails (fails_fail _)

/-- What is left of a scalar that is no string and no number. -/
theorem word {c x : Char} (message message' : String) (hcs : Inside cs) :
    d.After n (x :: cs)
      (if isLetter c then do ScanM.back; ScanM.boolean
        else if c == endMark then ScanM.fail message else ScanM.fail message')
      (if isLetter c then do ScanM.back; ScanM.boolean
        else if c == endMark then ScanM.fail message else ScanM.fail message') :=
  ite (fun _ => back_bind hcs.1 (boolean.within hcs)) fun _ =>
    ite (fun _ => fails (fails_fail _)) fun _ => fails (fails_fail _)

theorem scalar (c : Char) : d.After n [c] (ScanM.scalar c) (ScanM.scalar c) := by
  unfold ScanM.scalar
  dsimp only
  refine ite (fun hc => ?_) fun _ => guard ((fails_fail _).bind _) fun _ =>
      ite (fun hc => ?_) fun _ =>
    ite (fun hc => ?_) fun _ => word _ _ inside_nil
  · have hcs : Inside [c] := inside_nil.either hc (by decide) (by decide)
    exact (anyString hcs).within hcs
  · exact signedNumber.within (inside_nil.either hc (by decide) (by decide))
  · have hcs : Inside [c] := inside_nil.either hc (by decide) (by decide)
    have hn : Inside ['n', c] := hcs.cons (by decide) (by decide)
    have ha : Inside ['a', c] := hcs.cons (by decide) (by decide)
    have hna : Inside ['a', 'n', c] := hn.cons (by decide) (by decide)
    refine acceptBoth_ite hcs (by decide)
      ((emit .float).within (hn.cons (by decide) (by decide))) ?_ ?_
    · exact acceptBoth_ite hn (by decide) ((emit .float).within (hna.cons (by decide) (by decide)))
        (word _ _ hn) (word _ _ hcs)
    · exact acceptBoth_ite hcs (by decide) ((emit .float).within (ha.cons (by decide) (by decide)))
        (word _ _ hcs) (word _ _ inside_nil)

end After

/-! ## Values within values -/

theorem needy_ignore {α : Type} {m : ScanM α} (h : Needy m) : Needy (do ScanM.ignore; m) :=
  fun s a t hrest => h { s with start := s.position } a t hrest

theorem needy_value (fuel : Nat) : Needy (ScanM.value (fuel + 1)) := by
  intro s a t hrest
  unfold ScanM.value
  rw [exec_bind_ok (exec_next_end hrest)]
  exact fails_fail _ _ a t

theorem needy_array (fuel : Nat) : Needy (ScanM.array (fuel + 2)) := by
  intro s a t hrest hrun
  unfold ScanM.array at hrun
  rw [exec_bind_ok (exec_next_end hrest)] at hrun
  -- the end is taken back and read again as a value
  obtain ⟨_, u, hback, hrun⟩ := exec_bind_eq_ok.mp hrun
  obtain ⟨b, v, hvalue, -⟩ := exec_bind_eq_ok.mp hrun
  obtain ⟨-, rfl⟩ := Prod.mk.inj hback
  exact needy_value fuel { s with atEnd := false } b v hrest hvalue

theorem needy_arrayRest (fuel : Nat) : Needy (ScanM.arrayRest (fuel + 1)) := by
  intro s a t hrest
  unfold ScanM.arrayRest
  rw [exec_bind_ok (exec_next_end hrest)]
  exact fails_fail _ _ a t

/-- The readers of values and of what holds values keep two scanners beside each other while fewer
than `n` glyphs of the piece are left. Every second step at most reads nothing. -/
structure Nest (d : Surroundings) (n : Nat) : Prop where
  value : ∀ fuel fuel', 2 * n ≤ fuel → 2 * n ≤ fuel' →
    d.After n [] (ScanM.value fuel) (ScanM.value fuel')
  array : ∀ fuel fuel', 2 * n + 1 ≤ fuel → 2 * n + 1 ≤ fuel' →
    d.After n [] (ScanM.array fuel) (ScanM.array fuel')
  arrayRest : ∀ fuel fuel', 2 * n ≤ fuel → 2 * n ≤ fuel' →
    d.After n [] (ScanM.arrayRest fuel) (ScanM.arrayRest fuel')
  inline : ∀ fuel fuel', 2 * n + 1 ≤ fuel → 2 * n + 1 ≤ fuel' →
    d.After n [] (ScanM.inline fuel) (ScanM.inline fuel')
  inlineRest : ∀ fuel fuel', 2 * n ≤ fuel → 2 * n ≤ fuel' →
    d.After n [] (ScanM.inlineRest fuel) (ScanM.inlineRest fuel')

namespace Nest

open After

variable {fuel fuel' : Nat}

theorem value_succ (hnest : d.Nest n) (h : 2 * (n + 1) ≤ fuel + 1) (h' : 2 * (n + 1) ≤ fuel' + 1) :
    d.After (n + 1) [] (ScanM.value (fuel + 1)) (ScanM.value (fuel' + 1)) := by
  unfold ScanM.value
  refine next_bind inside_nil fun c => ite (fun hc => ?_) fun _ =>
    ite (fun hc => number hc) fun _ => ite (fun hc => ?_) fun _ => ite (fun hc => ?_) fun _ =>
    scalar c
  · exact (bind ignore fun _ => hnest.value fuel fuel' (by omega) (by omega)).inside (by simp)
      (inside_nil.either hc (by decide) (by decide))
  · exact (bind ignore fun _ => bind (emit .arrayStart) fun _ =>
      hnest.array fuel fuel' (by omega) (by omega)).inside (by
        simp) (inside_nil.same hc (by decide))
  · exact (bind ignore fun _ => bind (emit .inlineStart) fun _ =>
      hnest.inline fuel fuel' (by omega) (by omega)).inside (by
        simp) (inside_nil.same hc (by decide))

/-- A reader that may also go on in the next line. -/
theorem across {α : Type} {m m' : ScanM α} {c : Char} (hc : (isSpace c || isLineEnd c) = true)
    (h : d.After n [] m m') (hneedy : 0 < n → Needy m) : d.After (n + 1) [c] m m' := by
  refine h.forget (by simp) (fun hmem => ?_) fun _ => hneedy
  obtain rfl := List.mem_singleton.mp hmem
  exact absurd hc (by decide)

theorem arrayRest_succ (hnest : d.Nest n) (h : 2 * (n + 1) ≤ fuel + 1)
    (h' : 2 * (n + 1) ≤ fuel' + 1) :
    d.After (n + 1) [] (ScanM.arrayRest (fuel + 1)) (ScanM.arrayRest (fuel' + 1)) := by
  have hrest := hnest.arrayRest fuel fuel' (by omega) (by omega)
  unfold ScanM.arrayRest
  refine next_bind inside_nil fun c => ite (fun hc => ?_) fun _ => ite (fun hc => ?_) fun _ =>
    ite (fun hc => ?_) fun _ => ite (fun hc => ?_) fun _ => fails (fails_fail _)
  · refine across hc (bind ignore fun _ => hrest) fun hn => needy_ignore ?_
    obtain ⟨fuel, rfl⟩ := Nat.exists_eq_add_one_of_ne_zero (show fuel ≠ 0 by omega)
    exact needy_arrayRest fuel
  · exact (bind comment fun _ => hrest).inside (by simp) (inside_nil.same hc (by decide))
  · exact (bind ignore fun _ => hnest.array fuel fuel' (by omega) (by omega)).inside (by simp)
      (inside_nil.same hc (by decide))
  · exact (After.bind ignore fun _ => emit .arrayEnd).within (inside_nil.same hc (by decide))

theorem array_succ (hnest : d.Nest n) (h : 2 * (n + 1) + 1 ≤ fuel + 1)
    (h' : 2 * (n + 1) + 1 ≤ fuel' + 1)
    (hvalue : d.After (n + 1) [] (ScanM.value fuel) (ScanM.value fuel'))
    (hrest : d.After (n + 1) [] (ScanM.arrayRest fuel) (ScanM.arrayRest fuel')) :
    d.After (n + 1) [] (ScanM.array (fuel + 1)) (ScanM.array (fuel' + 1)) := by
  have harray := hnest.array fuel fuel' (by omega) (by omega)
  unfold ScanM.array
  refine next_bind inside_nil fun c => ite (fun hc => ?_) fun _ => ite (fun hc => ?_) fun _ =>
    guard (fails_fail _) fun _ => ite (fun hc => ?_) fun _ => ?_
  · refine across hc (bind ignore fun _ => harray) fun hn => needy_ignore ?_
    obtain ⟨fuel, rfl⟩ := Nat.exists_eq_add_of_le (show 2 ≤ fuel by omega)
    rw [Nat.add_comm]
    exact needy_array fuel
  · exact (bind comment fun _ => harray).inside (by simp) (inside_nil.same hc (by decide))
  · exact (After.bind ignore fun _ => emit .arrayEnd).within (inside_nil.same hc (by decide))
  · exact back_bind List.not_mem_nil (bind hvalue fun _ => hrest)

theorem inlineRest_succ (hnest : d.Nest n) (h : 2 * (n + 1) ≤ fuel + 1)
    (h' : 2 * (n + 1) ≤ fuel' + 1) :
    d.After (n + 1) [] (ScanM.inlineRest (fuel + 1)) (ScanM.inlineRest (fuel' + 1)) := by
  have hrest := hnest.inlineRest fuel fuel' (by omega) (by omega)
  unfold ScanM.inlineRest
  dsimp only
  refine next_bind inside_nil fun c => ite (fun hc => ?_) fun _ =>
    guard (fails_failBefore _) fun _ => ite (fun hc => ?_) fun _ => ite (fun hc => ?_) fun _ =>
    ite (fun hc => ?_) fun _ => fails (fails_fail _)
  · exact (bind ignore fun _ => hrest).inside (by simp)
      (inside_nil.either hc (by decide) (by decide))
  · exact (bind comment fun _ => hrest).inside (by simp) (inside_nil.same hc (by decide))
  · refine After.inside (k := n) (bind ignore fun _ => bind skipSpaces fun _ =>
        peek_bind inside_nil fun e =>
      guard ((fails_fail _).bind _) fun _ => ?_) (by simp) (inside_nil.same hc (by decide))
    exact hnest.inline fuel fuel' (by omega) (by omega)
  · exact (After.bind ignore fun _ => emit .inlineEnd).within (inside_nil.same hc (by decide))

theorem inline_succ (hnest : d.Nest n) (h : 2 * (n + 1) + 1 ≤ fuel + 1)
    (h' : 2 * (n + 1) + 1 ≤ fuel' + 1)
    (hvalue : d.After (n + 1) [] (ScanM.value fuel) (ScanM.value fuel'))
    (hrest : d.After (n + 1) [] (ScanM.inlineRest fuel) (ScanM.inlineRest fuel')) :
    d.After (n + 1) [] (ScanM.inline (fuel + 1)) (ScanM.inline (fuel' + 1)) := by
  have hinline := hnest.inline fuel fuel' (by omega) (by omega)
  unfold ScanM.inline
  refine next_bind inside_nil fun c => ite (fun hc => ?_) fun _ =>
    guard (fails_failBefore _) fun _ => ite (fun hc => ?_) fun _ => guard (fails_fail _) fun _ =>
    ite (fun hc => ?_) fun _ => ?_
  · exact (bind ignore fun _ => hinline).inside (by simp)
      (inside_nil.either hc (by decide) (by decide))
  · exact (bind comment fun _ => hinline).inside (by simp) (inside_nil.same hc (by decide))
  · exact (After.bind ignore fun _ => emit .inlineEnd).within (inside_nil.same hc (by decide))
  · exact back_bind List.not_mem_nil (bind key fun _ => bind hvalue fun _ => hrest)

end Nest

/-- **Values, arrays and inline tables** are read beside each other. -/
theorem nest (d : Surroundings) (n : Nat) : d.Nest n := by
  induction n with
  | zero => exact ⟨fun _ _ _ _ => .zero _ _, fun _ _ _ _ => .zero _ _, fun _ _ _ _ => .zero _ _,
      fun _ _ _ _ => .zero _ _, fun _ _ _ _ => .zero _ _⟩
  | succ n ih =>
      -- all bounds are positive here
      have hpos : ∀ {k}, 2 * (n + 1) ≤ k → ∃ j, k = j + 1 := fun h =>
        Nat.exists_eq_add_one_of_ne_zero (by omega)
      have hvalue : ∀ fuel fuel', 2 * (n + 1) ≤ fuel → 2 * (n + 1) ≤ fuel' →
          d.After (n + 1) [] (ScanM.value fuel) (ScanM.value fuel') := by
        intro fuel fuel' h h'
        obtain ⟨fuel, rfl⟩ := hpos h
        obtain ⟨fuel', rfl⟩ := hpos h'
        exact ih.value_succ h h'
      have harrayRest : ∀ fuel fuel', 2 * (n + 1) ≤ fuel → 2 * (n + 1) ≤ fuel' →
          d.After (n + 1) [] (ScanM.arrayRest fuel) (ScanM.arrayRest fuel') := by
        intro fuel fuel' h h'
        obtain ⟨fuel, rfl⟩ := hpos h
        obtain ⟨fuel', rfl⟩ := hpos h'
        exact ih.arrayRest_succ h h'
      have hinlineRest : ∀ fuel fuel', 2 * (n + 1) ≤ fuel → 2 * (n + 1) ≤ fuel' →
          d.After (n + 1) [] (ScanM.inlineRest fuel) (ScanM.inlineRest fuel') := by
        intro fuel fuel' h h'
        obtain ⟨fuel, rfl⟩ := hpos h
        obtain ⟨fuel', rfl⟩ := hpos h'
        exact ih.inlineRest_succ h h'
      refine ⟨hvalue, fun fuel fuel' h h' => ?_, harrayRest, fun fuel fuel' h h' => ?_, hinlineRest⟩
      · obtain ⟨fuel, rfl⟩ := hpos (Nat.le_of_succ_le h)
        obtain ⟨fuel', rfl⟩ := hpos (Nat.le_of_succ_le h')
        exact ih.array_succ h h' (hvalue _ _ (by omega) (by omega))
          (harrayRest _ _ (by omega) (by omega))
      · obtain ⟨fuel, rfl⟩ := hpos (Nat.le_of_succ_le h)
        obtain ⟨fuel', rfl⟩ := hpos (Nat.le_of_succ_le h')
        exact ih.inline_succ h h' (hvalue _ _ (by omega) (by omega))
          (hinlineRest _ _ (by omega) (by omega))

end Surroundings

end SymbolAtlas.Toml
