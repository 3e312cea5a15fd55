import SymbolAtlas.Proofs.EntryTables
import SymbolAtlas.Proofs.ScannerSteps

set_option autoImplicit false

/-! # Steps of building a document

What the steps of `BuildM` do to a document under construction when they succeed, and what they
cannot do. Every step takes tokens from the front or leaves them alone, and the failure behind the
tokens stands (`Steady`): so a document whose tokens end in a failure is never built
(`all_failure`). -/

namespace SymbolAtlas.Toml.BuildM

variable {b b' : Builder}

/-! ## Single steps -/

theorem failAt_ne_ok {α : Type} {place : Place} {reason : String} {a : α} :
    exec (failAt place reason) b ≠ (.ok a, b') := by
  intro h
  obtain ⟨text, t, -, hthrow⟩ := exec_bind_eq_ok.mp h
  cases congrArg Prod.fst hthrow

theorem settle_ok {α : Type} {result : Except Conflict α} {a : α}
    (h : exec (settle result) b = (.ok a, b')) : result = .ok a ∧ b' = b := by
  cases result with
  | error e => exact absurd h failAt_ne_ok
  | ok a' =>
      obtain ⟨ha, rfl⟩ := Prod.mk.inj h
      exact ⟨congrArg _ (Except.ok.inj ha), rfl⟩

/-- Taking a token, or none at the end of the document. -/
theorem next?_ok {r : Option Token} (h : exec next? b = (.ok r, b')) :
    (∃ t tokens, b.tokens = t :: tokens ∧ r = some t ∧ b' = { b with tokens }) ∨
    (b.tokens = [] ∧ b.failure = none ∧ r = none ∧ b' = b) := by
  unfold next? at h
  rw [exec_bind_ok (exec_get b)] at h
  cases htokens : b.tokens with
  | cons t tokens =>
      rw [htokens] at h
      obtain ⟨hr, rfl⟩ := Prod.mk.inj h
      exact Or.inl ⟨t, tokens, rfl, (Except.ok.inj hr).symm, rfl⟩
  | nil =>
      rw [htokens] at h
      cases hfailure : b.failure with
      | some f =>
          rw [hfailure] at h
          exact absurd h failAt_ne_ok
      | none =>
          rw [hfailure] at h
          obtain ⟨hr, rfl⟩ := Prod.mk.inj h
          exact Or.inr ⟨rfl, rfl, (Except.ok.inj hr).symm, rfl⟩

/-- Gives a field a value, if it has none or may be given another. -/
def assign (key : Key) (name : String) (value : Value) (isArray isImplicit : Bool)
    (fields : Fields) :
    Except Conflict Fields :=
  if fields.any (·.1 == name) then
    if isArray then .ok (Fields.set fields name value)
    else if isImplicit then .ok fields
    else .error (.defined key)
  else .ok (Fields.set fields name value)

theorem touches_assign (key : Key) (name : String) (value : Value) (isArray isImplicit : Bool) :
    Touches name (assign key name value isArray isImplicit) := by
  intro fields fields' h k hk
  unfold assign at h
  split at h
  · split at h
    · cases h
      exact Fields.lookup_set_ne hk
    · split at h
      · cases h
        rfl
      · cases h
  · cases h
    exact Fields.lookup_set_ne hk

theorem touches_addTable (key : Key) (name : String) : Touches name (addTable key name) := by
  intro fields fields' h k hk
  unfold addTable at h
  split at h
  · cases h
    exact Fields.lookup_set_ne hk
  · cases h
    exact Fields.lookup_set_ne hk
  · cases h

/-- **Giving a field of the open table a value** changes that table only. -/
theorem setValue_ok {name : String} {value : Value} {a : Unit}
    (h : exec (setValue name value) b = (.ok a, b')) :
    ∃ isArray isImplicit fields implicits,
      updateAt (assign (b.context ++ [name]) name value isArray isImplicit) b.context [] b.fields
        = .ok fields ∧
      b' = { b with fields, implicits } := by
  unfold setValue at h
  rw [exec_bind_ok (exec_get b)] at h
  dsimp only at h
  obtain ⟨fields, t, hsettle, h⟩ := exec_bind_eq_ok.mp h
  obtain ⟨hfields, rfl⟩ := settle_ok hsettle
  rw [exec_bind_ok (exec_modify _ t)] at h
  refine ⟨_, _, fields, b'.implicits, hfields, ?_⟩
  split at h
  · obtain ⟨-, rfl⟩ := Prod.mk.inj h
    rfl
  · obtain ⟨-, rfl⟩ := Prod.mk.inj h
    rfl

theorem exec_addImplicits (keys : List Key) {a : PUnit}
    (h : exec (forIn keys PUnit.unit fun k _ => do addImplicit k; pure (.yield PUnit.unit)) b
      = (.ok a, b')) :
    ∃ implicits, b' = { b with implicits } := by
  induction keys generalizing b with
  | nil =>
      obtain ⟨-, rfl⟩ := Prod.mk.inj h
      exact ⟨_, rfl⟩
  | cons k keys ih =>
      unfold addImplicit at h ih
      rw [List.forIn_cons, bind_assoc, exec_bind_ok (exec_modify _ b), pure_bind] at h
      obtain ⟨implicits, rfl⟩ := ih h
      exact ⟨implicits, rfl⟩

/-- **Opening a table** makes the tables on its way, changes the field of its name and opens the
way. -/
theorem openTable_ok {way : Key} {name : String} {isItem : Bool} {a : Unit}
    (h : exec (openTable (way ++ [name]) isItem) b = (.ok a, b')) :
    ∃ made opened change fields implicits, openWay way [] b.fields = .ok (made, opened) ∧
      Touches name change ∧ (isItem = true → change = addTable (way ++ [name]) name) ∧
      updateAt change way [] opened = .ok fields ∧
      b' = { b with fields, implicits, context := way ++ [name] } := by
  unfold openTable at h
  dsimp only at h
  rw [List.dropLast_concat, List.getLast?_concat, Option.getD_some, exec_bind_ok (exec_get b)] at h
  obtain ⟨r, t, hsettle, h⟩ := exec_bind_eq_ok.mp h
  obtain ⟨hway, rfl⟩ := settle_ok hsettle
  obtain ⟨made, opened⟩ := r
  rw [exec_bind_ok (exec_modify _ t)] at h
  obtain ⟨_, u, hloop, h⟩ := exec_bind_eq_ok.mp h
  obtain ⟨implicits, rfl⟩ := exec_addImplicits made hloop
  rw [exec_bind_ok (exec_modify _ _)] at h
  -- the table of a list goes to its end, and any other is set empty
  cases isItem with
  | true =>
      rw [if_pos rfl, exec_bind_ok (exec_get _)] at h
      obtain ⟨fields, v, hsettle, h⟩ := exec_bind_eq_ok.mp h
      obtain ⟨hfields, rfl⟩ := settle_ok hsettle
      rw [exec_bind_ok (exec_modify _ _)] at h
      obtain ⟨-, rfl⟩ := Prod.mk.inj h
      exact ⟨made, opened, _, fields, implicits, hway, touches_addTable _ name, fun _ =>
        rfl, hfields, rfl⟩
  | false =>
      rw [if_neg (by decide)] at h
      obtain ⟨_, v, hset, h⟩ := exec_bind_eq_ok.mp h
      obtain ⟨isArray, isImplicit, fields, implicits', hfields, rfl⟩ := setValue_ok hset
      obtain ⟨-, rfl⟩ := Prod.mk.inj h
      exact ⟨made, opened, _, fields, implicits', hway, touches_assign _ name _ _ _, fun h =>
        (nomatch h), hfields, rfl⟩

theorem exec_readKey (stop : TokenKind) (b : Builder) :
    ∃ place, exec (readKey stop) b = exec (keyParts stop (b.size + 1)) { b with place } := by
  unfold readKey
  rw [exec_bind_ok (exec_get b)]
  dsimp only
  split
  · rename_i t tokens htokens
    exact ⟨t.place, rfl⟩
  · exact ⟨b.place, rfl⟩

/-! ## Steps take tokens from the front -/

/-- A document later on: some tokens may be gone, the failure behind them stands. -/
structure Later (b b' : Builder) : Prop where
  failure : b'.failure = b.failure
  size : b'.size = b.size
  tokens : b'.tokens <:+ b.tokens

theorem Later.refl (b : Builder) : Later b b :=
  ⟨rfl, rfl, List.suffix_rfl⟩

theorem Later.trans {b₁ b₂ b₃ : Builder} (h : Later b₁ b₂) (h' : Later b₂ b₃) : Later b₁ b₃ :=
  ⟨h'.failure.trans h.failure, h'.size.trans h.size, h'.tokens.trans h.tokens⟩

theorem Later.room (h : Later b b') (hroom : b.tokens.length ≤ b.size) :
    b'.tokens.length ≤ b'.size := by
  rw [h.size]
  exact h.tokens.length_le.trans hroom

def Steady {α : Type} (m : BuildM α) : Prop :=
  ∀ ⦃b a b'⦄, exec m b = (.ok a, b') → Later b b'

namespace Steady

variable {α β : Type}

theorem pure (a : α) : Steady (Pure.pure a : BuildM α) := by
  intro b x b' h
  obtain ⟨-, rfl⟩ := Prod.mk.inj h
  exact .refl b

theorem bind {m : BuildM α} {f : α → BuildM β} (h : Steady m) (hf : ∀ a, Steady (f a)) :
    Steady (m >>= f) := by
  intro b x b' hrun
  obtain ⟨a, t, hm, hfa⟩ := exec_bind_eq_ok.mp hrun
  exact (h hm).trans (hf a hfa)

theorem read : Steady (get : BuildM Builder) := by
  intro b x b' h
  obtain ⟨-, rfl⟩ := Prod.mk.inj h
  exact .refl b

theorem write {f : Builder → Builder} (h : ∀ b, Later b (f b)) :
    Steady (modify f : BuildM Unit) := by
  intro b x b' hrun
  obtain ⟨-, rfl⟩ := Prod.mk.inj hrun
  exact h b

theorem ite {p : Prop} [Decidable p] {m m' : BuildM α} (h : Steady m) (h' : Steady m') :
    Steady (if p then m else m') := by
  split
  · exact h
  · exact h'

theorem fails {m : BuildM α} (h : ∀ b a b', exec m b ≠ (.ok a, b')) : Steady m :=
  fun b a b' hrun => absurd hrun (h b a b')

theorem failAt (place : Place) (reason : String) : Steady (BuildM.failAt place reason : BuildM α) :=
  fails fun _ _ _ => failAt_ne_ok

theorem next? : Steady BuildM.next? := by
  intro b r b' h
  rcases next?_ok h with ⟨t, tokens, htokens, -, rfl⟩ | ⟨-, -, -, rfl⟩
  · exact ⟨rfl, rfl, htokens ▸ List.suffix_cons t tokens⟩
  · exact .refl b'

theorem settle (result : Except Conflict α) : Steady (BuildM.settle result) := by
  intro b a b' h
  obtain ⟨-, rfl⟩ := settle_ok h
  exact .refl b'

theorem setValue (name : String) (value : Value) : Steady (BuildM.setValue name value) := by
  intro b a b' h
  obtain ⟨_, _, fields, implicits, -, rfl⟩ := setValue_ok h
  exact ⟨rfl, rfl, List.suffix_rfl⟩

theorem forIn {γ : Type} (xs : List γ) {step : γ → BuildM PUnit} (h : ∀ x, Steady (step x)) :
    Steady (ForIn.forIn xs PUnit.unit fun x _ => do step x; Pure.pure (.yield PUnit.unit)) := by
  induction xs with
  | nil => exact pure _
  | cons x xs ih =>
      rw [List.forIn_cons, bind_assoc]
      refine bind (h x) fun _ => ?_
      rw [pure_bind]
      exact ih

theorem addImplicit (key : Key) : Steady (BuildM.addImplicit key) :=
  write fun _ => ⟨rfl, rfl, List.suffix_rfl⟩

theorem addKey (key : Key) : Steady (BuildM.addKey key) :=
  write fun _ => ⟨rfl, rfl, List.suffix_rfl⟩

theorem setInfo (name : String) (isArray : Bool) (place : Place) :
    Steady (BuildM.setInfo name isArray place) :=
  write fun _ => ⟨rfl, rfl, List.suffix_rfl⟩

theorem openTable (key : Key) (isItem : Bool) : Steady (BuildM.openTable key isItem) := by
  have hcontext : Steady (modify fun b =>
      { b with context := key.dropLast ++ [key.getLast?.getD ""] } : BuildM Unit) :=
    write fun _ => ⟨rfl, rfl, List.suffix_rfl⟩
  refine bind read fun b => bind (settle _) fun r =>
      bind (write fun _ => ⟨rfl, rfl, List.suffix_rfl⟩) fun _ =>
    bind (forIn _ fun k => addImplicit k) fun _ => bind (write fun _ => ⟨rfl, rfl, List.suffix_rfl⟩)
      fun _ => ite ?_ ?_
  · exact bind read fun _ => bind (settle _) fun _ =>
      bind (write fun _ => ⟨rfl, rfl, List.suffix_rfl⟩) fun _ => hcontext
  · exact bind (setValue _ _) fun _ => hcontext

theorem keyParts (stop : TokenKind) (fuel : Nat) : Steady (BuildM.keyParts stop fuel) := by
  induction fuel with
  | zero => exact pure _
  | succ fuel ih =>
      refine bind next? fun t => ?_
      cases t with
      | none => exact pure _
      | some t =>
          refine ite (pure _) ?_
          cases Literal.string t.kind t.text with
          | error reason => exact failAt _ _
          | ok part => exact bind ih fun _ => pure _

theorem readKey (stop : TokenKind) : Steady (BuildM.readKey stop) := by
  intro b a b' h
  obtain ⟨place, hrun⟩ := exec_readKey stop b
  rw [hrun] at h
  obtain ⟨hfailure, hsize, htokens⟩ := keyParts stop _ h
  exact ⟨hfailure, hsize, htokens⟩

theorem enterKey (key : Key) : Steady (BuildM.enterKey key) := by
  refine bind (write fun _ => ⟨rfl, rfl, List.suffix_rfl⟩) fun _ => bind ?_ fun _ =>
    bind read fun _ => addKey _
  have hpart : ∀ part : String, Steady (do
      let way := (← get).context ++ [part]
      BuildM.addImplicit way
      BuildM.openTable way false) :=
    fun part => bind read fun b => bind (addImplicit _) fun _ => openTable _ _
  exact forIn key.dropLast hpart

theorem literal (t : Token) : Steady (BuildM.literal t) := by
  unfold BuildM.literal
  dsimp only
  split
  · exact pure _
  · exact failAt _ _

theorem valueToken : Steady BuildM.valueToken := by
  refine bind next? fun t => ?_
  cases t with
  | none => exact pure _
  | some t => exact pure _

/-- Reading values takes tokens from the front. -/
structure Values (fuel : Nat) : Prop where
  value : ∀ inArray t, Steady (BuildM.value fuel inArray t)
  items : Steady (BuildM.items fuel)
  inline : ∀ inArray, Steady (BuildM.inline fuel inArray)
  pairs : ∀ context fields, Steady (BuildM.pairs fuel context fields)

theorem values (fuel : Nat) : Values fuel := by
  induction fuel with
  | zero => exact ⟨fun _ t => literal t, pure _, fun _ => pure _, fun _ fields => pure fields⟩
  | succ fuel ih =>
      -- arrays, inline tables and their pairs use one allowance less
      refine ⟨fun inArray t => ?_, ?_, fun inArray => ?_, fun context fields => ?_⟩
      · unfold BuildM.value
        refine ite (bind read fun b => bind (setInfo _ _ _) fun _ => bind ih.items fun _ =>
          pure _) ?_
        exact ite (ih.inline inArray) (literal t)
      · unfold BuildM.items
        refine bind valueToken fun t => ite (pure _) ?_
        exact bind (ih.value true t) fun _ => bind ih.items fun _ => pure _
      · unfold BuildM.inline
        refine bind read fun b => ?_
        dsimp only
        exact bind (write fun _ => ⟨rfl, rfl, List.suffix_rfl⟩) fun _ =>
            bind (addImplicit _) fun _ =>
          bind (openTable _ _) fun _ => bind read fun _ => bind (ih.pairs _ _) fun _ =>
            bind (write fun _ => ⟨rfl, rfl, List.suffix_rfl⟩) fun _ => pure _
      · unfold BuildM.pairs
        refine bind valueToken fun t => ite (pure _) ?_
        exact bind (readKey _) fun key => bind (enterKey key) fun _ => bind valueToken fun u =>
          bind (ih.value false u) fun v => bind read fun _ => bind (setValue _ _) fun _ =>
            bind (setInfo _ _ _) fun _ => bind (write fun _ => ⟨rfl, rfl, List.suffix_rfl⟩) fun _ =>
              ih.pairs _ _

theorem item (t : Token) : Steady (BuildM.item t) := by
  unfold BuildM.item
  split
  · exact bind (readKey _) fun _ => bind (openTable _ _) fun _ => bind (setInfo _ _ _) fun _ =>
      addKey _
  · exact bind (readKey _) fun _ => bind (openTable _ _) fun _ => bind (setInfo _ _ _) fun _ =>
      addKey _
  · exact bind read fun _ => bind (readKey _) fun key => bind (enterKey key) fun _ =>
        bind valueToken fun u =>
      bind read fun b => bind ((values _).value false u) fun v => bind read fun _ =>
          bind (setValue _ _) fun _ =>
        bind (setInfo _ _ _) fun _ => write fun _ => ⟨rfl, rfl, List.suffix_rfl⟩

end Steady

/-- **Tokens that end in a failure** never make a document. -/
theorem all_failure {fuel : Nat} (hfuel : b.tokens.length < fuel) {a : Unit}
    (h : exec (all fuel) b = (.ok a, b')) : b.failure = none := by
  induction fuel generalizing b with
  | zero => exact absurd hfuel (Nat.not_lt_zero _)
  | succ fuel ih =>
      unfold all at h
      obtain ⟨r, t, hnext, h⟩ := exec_bind_eq_ok.mp h
      rcases next?_ok hnext with ⟨u, tokens, htokens, rfl, rfl⟩ | ⟨-, hnone, -, -⟩
      · obtain ⟨_, v, hitem, h⟩ := exec_bind_eq_ok.mp h
        obtain ⟨hfailure, -, hsuffix⟩ := Steady.item u hitem
        have hlen := hsuffix.length_le
        rw [htokens, List.length_cons] at hfuel
        exact hfailure ▸ ih (Nat.lt_of_le_of_lt hlen (Nat.lt_of_succ_lt_succ hfuel)) h
      · exact hnone

end SymbolAtlas.Toml.BuildM
