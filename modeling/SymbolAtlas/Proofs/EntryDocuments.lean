import SymbolAtlas.Proofs.DocumentBuilding
import SymbolAtlas.Proofs.EntryScans

set_option autoImplicit false

/-! # Documents of entries

A document of entries is told by what its tokens say. Every entry is a header, the pair of its key
and further pairs and headers (`FieldWords`) that lead past the keys of entries. `EntryWords` lists
the keys of such a document. Reading it puts these keys into the tables of the array, in order
(`build_entryWords`): the header adds a table, the pair of the key gives it its key, and everything
else leaves the keys alone. -/

namespace SymbolAtlas.Toml

open BuildM

/-! ## What tokens say -/

/-- The words of a key, up to the one that ends it. -/
inductive KeyWords (stop : TokenKind) : Key → List Word → Prop where
  | stop (text : String) : KeyWords stop [] [(stop, text)]
  | part {kind : TokenKind} {text part : String} {key : Key} {words : List Word} :
      kind ≠ stop → Literal.string kind text = .ok part → KeyWords stop key words →
      KeyWords stop (part :: key) ((kind, text) :: words)

def TokenKind.isLiteral : TokenKind → Bool
  | .string | .multiline | .raw | .rawMultiline | .integer | .float | .boolean | .datetime => true
  | _ => false

mutual

/-- The words of a value. -/
inductive ValueWords : List Word → Prop where
  | literal {kind : TokenKind} (text : String) : kind.isLiteral = true → ValueWords [(kind, text)]
  | array {words : List Word} (text : String) : ItemWords words →
      ValueWords ((.arrayStart, text) :: words)
  | inline {words : List Word} (text : String) : PairWords words →
      ValueWords ((.inlineStart, text) :: words)

/-- The words of the items of an array, to its end. -/
inductive ItemWords : List Word → Prop where
  | stop (text : String) : ItemWords [(.arrayEnd, text)]
  | item {value words : List Word} : ValueWords value → ItemWords words → ItemWords (value ++ words)

/-- The words of the pairs of an inline table, to its end. -/
inductive PairWords : List Word → Prop where
  | stop (text : String) : PairWords [(.inlineEnd, text)]
  | pair {key : Key} {name value words : List Word} (text : String) : KeyWords .keyEnd key name →
      key ≠ [] → ValueWords value → PairWords words →
      PairWords ((.keyStart, text) :: (name ++ (value ++ words)))

end

/-- A value starts with a word that ends no array. -/
theorem ValueWords.head {words : List Word} (h : ValueWords words) :
    ∃ kind text rest, words = (kind, text) :: rest ∧ kind ≠ .arrayEnd := by
  cases h with
  | @literal kind text hkind =>
      refine ⟨kind, text, [], rfl, ?_⟩
      rintro rfl
      cases hkind
  | array text _ => exact ⟨_, text, _, rfl, by decide⟩
  | inline text _ => exact ⟨_, text, _, rfl, by decide⟩

theorem ItemWords.length_pos {words : List Word} (h : ItemWords words) : 0 < words.length := by
  cases h with
  | stop text => exact Nat.one_pos
  | item hvalue _ =>
      obtain ⟨kind, text, rest, rfl, -⟩ := hvalue.head
      simp

variable {b b' : Builder}

/-! ## Reading keys -/

theorem next?_words {r : Option Token} (h : exec next? b = (.ok r, b')) {w : Word}
    {tail : List Word} (htokens : b.tokens.map Token.word = w :: tail) :
    ∃ t tokens, r = some t ∧ t.word = w ∧
      tokens.map Token.word = tail ∧ b' = { b with tokens } := by
  obtain ⟨t, tokens, ht, hword, htail⟩ := List.map_eq_cons_iff.mp htokens
  rcases next?_ok h with ⟨u, tokens', hu, rfl, rfl⟩ | ⟨hnil, -⟩
  · rw [ht] at hu
    obtain ⟨rfl, rfl⟩ := List.cons.inj hu
    exact ⟨t, tokens, rfl, hword, htail, rfl⟩
  · rw [ht] at hnil
    cases hnil

theorem valueToken_words {t : Token} (h : exec valueToken b = (.ok t, b')) {w : Word}
    {tail : List Word} (htokens : b.tokens.map Token.word = w :: tail) : t.word = w ∧
      ∃ tokens, tokens.map Token.word = tail ∧ b' = { b with tokens } := by
  obtain ⟨r, u, hnext, h⟩ := exec_bind_eq_ok.mp h
  obtain ⟨t', tokens, rfl, hword, htail, rfl⟩ := next?_words hnext htokens
  obtain ⟨ht, rfl⟩ := Prod.mk.inj h
  obtain rfl := Except.ok.inj ht
  exact ⟨hword, tokens, htail, rfl⟩

theorem keyParts_words {stop : TokenKind} {key : Key} {words : List Word}
    (hwords : KeyWords stop key words) {fuel : Nat} {k : Key}
    (h : exec (keyParts stop fuel) b = (.ok k, b')) (hfuel : words.length ≤ fuel)
    {tail : List Word} (htokens : b.tokens.map Token.word = words ++ tail) :
    k = key ∧ ∃ tokens, tokens.map Token.word = tail ∧ b' = { b with tokens } := by
  -- one round reads one part, or meets the token that ends the key
  induction hwords generalizing fuel b b' k with
  | stop text =>
      obtain ⟨fuel, rfl⟩ := Nat.exists_eq_add_one.mpr hfuel
      unfold keyParts at h
      obtain ⟨r, u, hnext, h⟩ := exec_bind_eq_ok.mp h
      obtain ⟨t, tokens, rfl, hword, htail, rfl⟩ := next?_words hnext htokens
      have hkind : t.kind = stop := congrArg Prod.fst hword
      dsimp only at h
      rw [if_pos hkind] at h
      obtain ⟨hk, rfl⟩ := Prod.mk.inj h
      exact ⟨(Except.ok.inj hk).symm, tokens, htail, rfl⟩
  | @part kind text part key words hne hpart _ ih =>
      obtain ⟨fuel, rfl⟩ := Nat.exists_eq_add_one.mpr (Nat.lt_of_lt_of_le (Nat.succ_pos _) hfuel)
      unfold keyParts at h
      obtain ⟨r, u, hnext, h⟩ := exec_bind_eq_ok.mp h
      obtain ⟨t, tokens, rfl, hword, htail, rfl⟩ := next?_words hnext htokens
      obtain ⟨hkind, htext⟩ := Prod.mk.inj hword
      dsimp only at h
      rw [if_neg (by rw [hkind]; exact hne), hkind, htext, hpart] at h
      obtain ⟨k', v, hparts, h⟩ := exec_bind_eq_ok.mp h
      obtain ⟨rfl, tokens', htail', rfl⟩ := ih hparts (Nat.le_of_succ_le_succ hfuel) htail
      obtain ⟨hk, rfl⟩ := Prod.mk.inj h
      exact ⟨(Except.ok.inj hk).symm, tokens', htail', rfl⟩

/-- **A key is read** as its parts. -/
theorem readKey_words {stop : TokenKind} {key : Key} {words : List Word}
    (hwords : KeyWords stop key words) {k : Key} (h : exec (readKey stop) b = (.ok k, b'))
    {tail : List Word}
    (htokens : b.tokens.map Token.word = words ++ tail) (hroom : b.tokens.length ≤ b.size) :
    k = key ∧ ∃ tokens place, tokens.map Token.word = tail ∧ b' = { b with tokens, place } := by
  obtain ⟨place, hrun⟩ := exec_readKey stop b
  rw [hrun] at h
  have hlen : words.length ≤ b.size + 1 := by
    have := congrArg List.length htokens
    rw [List.length_map, List.length_append] at this
    omega
  obtain ⟨hk, tokens, htail, rfl⟩ := keyParts_words hwords h hlen htokens
  exact ⟨hk, tokens, place, htail, rfl⟩

/-! ## What leaves the keys of the entries alone -/

/-- The keys of the entries are still the same. -/
def Aside (b b' : Builder) : Prop :=
  ∀ keys, Listed b.fields keys → Listed b'.fields keys

theorem Aside.trans {b₁ b₂ b₃ : Builder} (h : Aside b₁ b₂) (h' : Aside b₂ b₃) : Aside b₁ b₃ :=
  fun keys hkeys => h' keys (h keys hkeys)

theorem aside_of_fields (h : b'.fields = b.fields) : Aside b b' :=
  fun _ hkeys => h ▸ hkeys

theorem setValue_aside {name : String} {value : Value} {a : Unit}
    (hway : Apart (b.context ++ [name])) (h : exec (setValue name value) b = (.ok a, b')) :
    Aside b b' ∧ ∃ fields implicits, b' = { b with fields, implicits } := by
  obtain ⟨isArray, isImplicit, fields, implicits, hupdate, rfl⟩ := setValue_ok h
  exact ⟨fun keys hkeys => hkeys.updateAt (touches_assign _ _ _ _ _) hupdate hway, fields,
    implicits, rfl⟩

theorem openTable_aside {way : Key} {name : String} {isItem : Bool} {a : Unit}
    (hway : Apart (way ++ [name])) (h : exec (openTable (way ++ [name]) isItem) b = (.ok a, b')) :
    Aside b b' ∧ ∃ fields implicits,
      b' = { b with fields, implicits, context := way ++ [name] } := by
  obtain ⟨made, opened, change, fields, implicits, hopen, hchange, -, hupdate, rfl⟩ :=
    openTable_ok h
  exact ⟨fun keys hkeys => (hkeys.openWay hopen hway).updateAt hchange hupdate hway, fields,
    implicits, rfl⟩

theorem enterTables_aside (parts : List String) {a : PUnit}
    (h : exec (forIn parts PUnit.unit fun part _ => do
      let way := (← get).context ++ [part]
      addImplicit way
      openTable way false
      pure (.yield PUnit.unit)) b = (.ok a, b'))
    (hway : ∀ p ∈ parts.head?, Apart (b.context ++ [p])) :
    Aside b b' ∧ ∃ fields implicits,
      b' = { b with fields, implicits, context := b.context ++ parts } := by
  induction parts generalizing b with
  | nil =>
      obtain ⟨-, rfl⟩ := Prod.mk.inj h
      exact ⟨aside_of_fields rfl, b.fields, b.implicits, by rw [List.append_nil]⟩
  | cons p parts ih =>
      have hp : Apart (b.context ++ [p]) := hway p rfl
      rw [List.forIn_cons, bind_assoc, exec_bind_ok (exec_get b)] at h
      dsimp only at h
      simp only [bind_assoc, pure_bind] at h
      obtain ⟨_, t, hadd, h⟩ := exec_bind_eq_ok.mp h
      obtain ⟨-, rfl⟩ := Prod.mk.inj hadd
      obtain ⟨_, u, hopen, h⟩ := exec_bind_eq_ok.mp h
      obtain ⟨haside, fields, implicits, rfl⟩ := openTable_aside hp hopen
      -- all further ways start with this one
      obtain ⟨haside', fields', implicits', rfl⟩ := ih h fun q _ => hp.append [q]
      exact ⟨haside.trans haside', fields', implicits', by simp⟩

/-- **Passing through the tables of a key** leaves the keys of the entries alone, if the first of
them does. -/
theorem enterKey_aside {p : String} {key : Key} (hway : Apart (b.context ++ [p])) {a : Unit}
    (h : exec (enterKey (p :: key)) b = (.ok a, b')) : Aside b b' ∧ b'.tokens = b.tokens ∧
      b'.context ++ [b'.currentKey] = b.context ++ p :: key := by
  unfold enterKey at h
  rw [exec_bind_ok (exec_modify _ b)] at h
  obtain ⟨_, t, hloop, h⟩ := exec_bind_eq_ok.mp h
  have hhead : ∀ q ∈ (p :: key).dropLast.head?, Apart (b.context ++ [q]) := by
    intro q hq
    cases key with
    | nil => cases hq
    | cons _ _ =>
        obtain rfl := Option.some.inj hq
        exact hway
  obtain ⟨haside, fields, implicits, rfl⟩ := enterTables_aside _ hloop hhead
  rw [exec_bind_ok (exec_get _)] at h
  obtain ⟨-, rfl⟩ := Prod.mk.inj h
  refine ⟨haside, rfl, ?_⟩
  obtain ⟨last, hlast⟩ :=
    Option.isSome_iff_exists.mp (List.getLast?_isSome.mpr (List.cons_ne_nil p key))
  show b.context ++ (p :: key).dropLast ++ [(p :: key).getLast?.getD ""] = _
  rw [hlast, Option.getD_some, List.append_assoc, List.dropLast_append_getLast? last hlast]

/-! ## Reading values -/

theorem literal_ok {t : Token} {v : Value} (h : exec (literal t) b = (.ok v, b')) : b' = b := by
  unfold literal at h
  dsimp only at h
  split at h
  · obtain ⟨-, rfl⟩ := Prod.mk.inj h
    rfl
  · exact absurd h failAt_ne_ok

/-- What reading something under a key leaves: the words after it, the open table and the key, and
the keys of the entries. -/
structure ReadAside (tail : List Word) (b b' : Builder) : Prop where
  tokens : b'.tokens.map Token.word = tail
  context : b'.context = b.context
  currentKey : b'.currentKey = b.currentKey
  aside : Aside b b'

/-- **Reading values under a key** that leads past the keys of the entries takes exactly their
words. Every second step at most takes none. -/
structure ReadsAside (fuel : Nat) : Prop where
  value : ∀ ⦃b b' inArray t v⦄, exec (value fuel inArray t) b = (.ok v, b') → ∀ ⦃words⦄,
    ValueWords (t.word :: words) → 2 * (words.length + 1) ≤ fuel → ∀ ⦃tail⦄,
    b.tokens.map Token.word = words ++ tail → b.tokens.length ≤ b.size →
      Apart (b.context ++ [b.currentKey]) →
    ReadAside tail b b'
  items : ∀ ⦃b b' v⦄, exec (items fuel) b = (.ok v, b') → ∀ ⦃words⦄, ItemWords words →
    2 * words.length ≤ fuel → ∀ ⦃tail⦄, b.tokens.map Token.word = words ++ tail →
    b.tokens.length ≤ b.size →
    Apart (b.context ++ [b.currentKey]) → ReadAside tail b b'
  inline : ∀ ⦃b b' inArray v⦄, exec (inline fuel inArray) b = (.ok v, b') →
    ∀ ⦃words⦄, PairWords words →
    2 * words.length + 1 ≤ fuel → ∀ ⦃tail⦄, b.tokens.map Token.word = words ++ tail →
    b.tokens.length ≤ b.size →
    Apart (b.context ++ [b.currentKey]) → ReadAside tail b b'
  pairs : ∀ ⦃b b' context fields v⦄, exec (pairs fuel context fields) b = (.ok v, b') → ∀ ⦃words⦄,
    PairWords words → 2 * words.length ≤ fuel → ∀ ⦃tail⦄, b.tokens.map Token.word = words ++ tail →
    b.tokens.length ≤ b.size → b.context = context → Apart context →
    b'.tokens.map Token.word = tail ∧ Aside b b'

namespace ReadsAside

variable {fuel : Nat} {words tail : List Word}

theorem value_succ (ih : ReadsAside fuel) {inArray : Bool} {t : Token} {v : Value}
    (h : exec (BuildM.value (fuel + 1) inArray t) b = (.ok v, b'))
    (hwords : ValueWords (t.word :: words)) (hfuel : 2 * (words.length + 1) ≤ fuel + 1)
    (htokens : b.tokens.map Token.word = words ++ tail)
    (hroom : b.tokens.length ≤ b.size) (hway : Apart (b.context ++ [b.currentKey])) :
    ReadAside tail b b' := by
  unfold BuildM.value at h
  generalize hall : t.word :: words = all at hwords
  -- the first token tells which of the three it is
  cases hwords with
  | @literal kind text hkind =>
      obtain ⟨hword, rfl⟩ := List.cons.inj hall
      obtain ⟨rfl, -⟩ := Prod.mk.inj hword
      have harray : t.kind ≠ .arrayStart := fun heq => by rw [heq] at hkind; cases hkind
      have hinline : t.kind ≠ .inlineStart := fun heq => by rw [heq] at hkind; cases hkind
      rw [if_neg harray, if_neg hinline] at h
      obtain rfl := literal_ok h
      exact ⟨htokens, rfl, rfl, aside_of_fields rfl⟩
  | @array items text hitems =>
      obtain ⟨hword, rfl⟩ := List.cons.inj hall
      have hkind : t.kind = .arrayStart := congrArg Prod.fst hword
      rw [if_pos hkind, exec_bind_ok (exec_get b)] at h
      obtain ⟨_, u, hinfo, h⟩ := exec_bind_eq_ok.mp h
      obtain ⟨-, rfl⟩ := Prod.mk.inj hinfo
      obtain ⟨vs, w, hrun, h⟩ := exec_bind_eq_ok.mp h
      obtain ⟨-, rfl⟩ := Prod.mk.inj h
      obtain ⟨htail, hcontext, hkey, haside⟩ := ih.items hrun hitems (by omega) htokens hroom hway
      exact ⟨htail, hcontext, hkey, haside⟩
  | @inline pairs text hpairs =>
      obtain ⟨hword, rfl⟩ := List.cons.inj hall
      have hkind : t.kind = .inlineStart := congrArg Prod.fst hword
      rw [if_neg (by rw [hkind]; decide), if_pos hkind] at h
      exact ih.inline h hpairs (by omega) htokens hroom hway

theorem items_succ (ih : ReadsAside fuel) {vs : List Value}
    (h : exec (BuildM.items (fuel + 1)) b = (.ok vs, b')) (hwords : ItemWords words)
    (hfuel : 2 * words.length ≤ fuel + 1)
    (htokens : b.tokens.map Token.word = words ++ tail) (hroom : b.tokens.length ≤ b.size)
    (hway : Apart (b.context ++ [b.currentKey])) : ReadAside tail b b' := by
  unfold BuildM.items at h
  obtain ⟨t, u, htoken, h⟩ := exec_bind_eq_ok.mp h
  have hroom' := (Steady.valueToken htoken).room hroom
  cases hwords with
  | stop text =>
      obtain ⟨hword, tokens, htail, rfl⟩ := valueToken_words htoken htokens
      have hkind : t.kind = .arrayEnd := congrArg Prod.fst hword
      rw [if_pos hkind] at h
      obtain ⟨-, rfl⟩ := Prod.mk.inj h
      exact ⟨htail, rfl, rfl, aside_of_fields rfl⟩
  | @item first rest hfirst hrest =>
      obtain ⟨kind, text, more, rfl, hkind⟩ := hfirst.head
      rw [List.append_assoc] at htokens
      obtain ⟨hword, tokens, htail, rfl⟩ := valueToken_words htoken htokens
      rw [if_neg (by rw [show t.kind = kind from congrArg Prod.fst hword]; exact hkind)] at h
      obtain ⟨v, w, hvalue, h⟩ := exec_bind_eq_ok.mp h
      obtain ⟨vs', w', hitems, h⟩ := exec_bind_eq_ok.mp h
      obtain ⟨-, rfl⟩ := Prod.mk.inj h
      have hpos := hrest.length_pos
      rw [List.length_append, List.length_cons] at hfuel
      rw [← hword] at hfirst
      obtain ⟨htail', hcontext, hkey, haside⟩ := ih.value hvalue hfirst (by omega) htail hroom' hway
      -- the cursor stands where it stood, so the rest of the list is read with it
      have hway' : Apart (w.context ++ [w.currentKey]) := by
        rw [hcontext, hkey]
        exact hway
      obtain ⟨htail'', hcontext', hkey', haside'⟩ := ih.items hitems hrest (by omega) htail'
        (((Steady.values fuel).value true t hvalue).room hroom') hway'
      exact ⟨htail'', hcontext'.trans hcontext, hkey'.trans hkey, haside.trans haside'⟩

theorem inline_succ (ih : ReadsAside fuel) {inArray : Bool} {v : Value}
    (h : exec (BuildM.inline (fuel + 1) inArray) b = (.ok v, b')) (hwords : PairWords words)
    (hfuel : 2 * words.length + 1 ≤ fuel + 1) (htokens : b.tokens.map Token.word = words ++ tail)
    (hroom : b.tokens.length ≤ b.size) (hway : Apart (b.context ++ [b.currentKey])) :
    ReadAside tail b b' := by
  unfold BuildM.inline at h
  rw [exec_bind_ok (exec_get b)] at h
  dsimp only at h
  rw [exec_bind_ok (exec_modify _ b)] at h
  obtain ⟨_, t, hadd, h⟩ := exec_bind_eq_ok.mp h
  obtain ⟨-, rfl⟩ := Prod.mk.inj hadd
  obtain ⟨_, u, hopen, h⟩ := exec_bind_eq_ok.mp h
  obtain ⟨haside, fields, implicits, rfl⟩ := openTable_aside hway hopen
  rw [exec_bind_ok (exec_get _)] at h
  obtain ⟨fs, w, hpairs, h⟩ := exec_bind_eq_ok.mp h
  obtain ⟨_, w', hset, h⟩ := exec_bind_eq_ok.mp h
  obtain ⟨-, rfl⟩ := Prod.mk.inj hset
  obtain ⟨-, rfl⟩ := Prod.mk.inj h
  obtain ⟨htail, haside'⟩ := ih.pairs hpairs hwords (by omega) htokens hroom rfl hway
  exact ⟨htail, rfl, rfl, haside.trans haside'⟩

/-- **A key and its value**, as pairs have them everywhere. -/
theorem named (ih : ReadsAside fuel) {b₁ b₂ b₃ : Builder} {p : String} {key : Key} {a a' : Unit}
    {first : Token} {v : Value} (henter : exec (enterKey (p :: key)) b = (.ok a, b₁))
    (htoken : exec valueToken b₁ = (.ok first, b₂))
    (hvalue : exec (BuildM.value fuel false first) b₂ = (.ok v, b₃))
    (hset : exec (setValue b₃.currentKey v) b₃ = (.ok a', b')) (hwords : ValueWords words)
    (hfuel : 2 * words.length ≤ fuel) (htokens : b.tokens.map Token.word = words ++ tail)
    (hroom : b.tokens.length ≤ b.size) (hway : Apart (b.context ++ [p])) :
    b'.tokens.map Token.word = tail ∧ Aside b b' := by
  obtain ⟨haside₁, htokens₁, hcontext⟩ := enterKey_aside hway henter
  have hway₁ : Apart (b₁.context ++ [b₁.currentKey]) := by
    rw [hcontext, List.append_cons]
    exact hway.append key
  have hroom₁ := (Steady.enterKey _ henter).room hroom
  have hroom₂ := (Steady.valueToken htoken).room hroom₁
  obtain ⟨kind, text, rest, rfl, -⟩ := hwords.head
  rw [← htokens₁] at htokens
  obtain ⟨hword, tokens, htail, rfl⟩ := valueToken_words htoken htokens
  rw [← hword] at hwords
  obtain ⟨htail', hcontext₃, hkey₃, haside₃⟩ := ih.value hvalue hwords hfuel htail hroom₂ hway₁
  have hway₃ : Apart (b₃.context ++ [b₃.currentKey]) := by
    rw [hcontext₃, hkey₃]
    exact hway₁
  obtain ⟨haside, fields, implicits, rfl⟩ := setValue_aside hway₃ hset
  exact ⟨htail', haside₁.trans (haside₃.trans haside)⟩

theorem pairs_succ (ih : ReadsAside fuel) {context : Key} {fields v : Fields}
    (h : exec (BuildM.pairs (fuel + 1) context fields) b = (.ok v, b')) (hwords : PairWords words)
    (hfuel : 2 * words.length ≤ fuel + 1) (htokens : b.tokens.map Token.word = words ++ tail)
    (hroom : b.tokens.length ≤ b.size) (hcontext : b.context = context) (hway : Apart context) :
    b'.tokens.map Token.word = tail ∧ Aside b b' := by
  subst hcontext
  unfold BuildM.pairs at h
  obtain ⟨t, u, htoken, h⟩ := exec_bind_eq_ok.mp h
  have hroom' := (Steady.valueToken htoken).room hroom
  -- the table ends, or one more pair stands before the rest
  cases hwords with
  | stop text =>
      obtain ⟨hword, tokens, htail, rfl⟩ := valueToken_words htoken htokens
      have hkind : t.kind = .inlineEnd := congrArg Prod.fst hword
      rw [if_pos hkind] at h
      obtain ⟨-, rfl⟩ := Prod.mk.inj h
      exact ⟨htail, aside_of_fields rfl⟩
  | @pair key name value rest text hkey hne hvalue hrest =>
      rw [List.cons_append, List.append_assoc, List.append_assoc] at htokens
      obtain ⟨hword, tokens, htail, rfl⟩ := valueToken_words htoken htokens
      have hkind : t.kind = .keyStart := congrArg Prod.fst hword
      rw [if_neg (by rw [hkind]; decide)] at h
      rw [List.length_cons, List.length_append, List.length_append] at hfuel
      obtain ⟨k, u, hread, h⟩ := exec_bind_eq_ok.mp h
      have hroom₁ := (Steady.readKey _ hread).room hroom'
      obtain ⟨rfl, tokens', place, htail', rfl⟩ := readKey_words hkey hread htail hroom'
      obtain ⟨p, parts, rfl⟩ := List.exists_cons_of_ne_nil hne
      obtain ⟨_, b₁, henter, h⟩ := exec_bind_eq_ok.mp h
      obtain ⟨first, b₂, htoken', h⟩ := exec_bind_eq_ok.mp h
      obtain ⟨v', b₃, hval, h⟩ := exec_bind_eq_ok.mp h
      rw [exec_bind_ok (exec_get b₃)] at h
      dsimp only at h
      obtain ⟨_, b₄, hset, h⟩ := exec_bind_eq_ok.mp h
      obtain ⟨_, b₅, hinfo, h⟩ := exec_bind_eq_ok.mp h
      obtain ⟨-, rfl⟩ := Prod.mk.inj hinfo
      rw [exec_bind_ok (exec_modify _ _)] at h
      -- the value leaves the cursor after its words, and the remaining pairs are read from there
      obtain ⟨htail₄, haside₄⟩ :=
        ih.named henter htoken' hval hset hvalue (by omega) htail' hroom₁ (hway.append [p])
      have hroom₄ := (Steady.setValue _ _ hset).room (((Steady.values fuel).value _ _ hval).room
        ((Steady.valueToken htoken').room ((Steady.enterKey _ henter).room hroom₁)))
      obtain ⟨htail₅, haside₅⟩ := ih.pairs h hrest (by omega) htail₄ hroom₄ rfl hway
      exact ⟨htail₅, fun keys hkeys => haside₅ keys (haside₄ keys hkeys)⟩

end ReadsAside

theorem readsAside (fuel : Nat) : ReadsAside fuel := by
  induction fuel with
  | zero =>
      refine ⟨fun _ _ _ _ _ _ _ _ h => absurd h (by omega), fun _ _ _ _ words hwords h => ?_,
        fun _ _ _ _ _ _ _ h => absurd h (by omega), fun _ _ _ _ _ _ words hwords h => ?_⟩
      · have hpos := hwords.length_pos
        omega
      · cases hwords <;> simp at h
  | succ fuel ih =>
      exact ⟨fun _ _ _ _ _ h _ hwords hfuel _ => ih.value_succ h hwords hfuel,
        fun _ _ _ h _ hwords hfuel _ => ih.items_succ h hwords hfuel,
        fun _ _ _ _ h _ hwords hfuel _ => ih.inline_succ h hwords hfuel,
        fun _ _ _ _ _ h _ hwords hfuel _ => ih.pairs_succ h hwords hfuel⟩

/-! ## Further fields -/

def TokenKind.headerStart (isItem : Bool) : TokenKind :=
  if isItem then .tableItemStart else .tableStart

def TokenKind.headerEnd (isItem : Bool) : TokenKind :=
  if isItem then .tableItemEnd else .tableEnd

/-- The words of the further fields of an entry, as long as the table of the entry is open, and
after another table was opened: pairs and headers that lead past the keys of the entries. -/
inductive FieldWords : (inEntry : Bool) → List Word → Prop where
  | nil (inEntry : Bool) : FieldWords inEntry []
  | pair {inEntry : Bool} {p : String} {key : Key} {name value words : List Word} (text : String) :
      KeyWords .keyEnd (p :: key) name → (inEntry = true → p ≠ "key") → ValueWords value →
      FieldWords inEntry words →
        FieldWords inEntry ((.keyStart, text) :: (name ++ (value ++ words)))
  | header {inEntry isItem : Bool} {key : Key} {name words : List Word} (text : String) :
      KeyWords (TokenKind.headerEnd isItem) key name → Apart key → FieldWords false words →
      FieldWords inEntry ((TokenKind.headerStart isItem, text) :: (name ++ words))

/-- Where the pairs of an entry go: its own table, or one that leads past the keys. -/
def Stands (inEntry : Bool) (context : Key) : Prop :=
  if inEntry = true then context = ["symbol"] else Apart context

theorem Stands.apart {inEntry : Bool} {context : Key} (h : Stands inEntry context) {p : String}
    (hp : inEntry = true → p ≠ "key") : Apart (context ++ [p]) := by
  cases inEntry with
  | true =>
      obtain rfl : context = ["symbol"] := h
      exact .field (hp rfl)
  | false => exact Apart.append h [p]

/-- **A further pair** leaves the keys of the entries alone. -/
theorem item_pair {t : Token} (hkind : t.kind = .keyStart) {a : Unit}
    (h : exec (item t) b = (.ok a, b')) {inEntry : Bool} (hstands : Stands inEntry b.context)
    {p : String} {key : Key} {name value tail : List Word}
    (hname : KeyWords .keyEnd (p :: key) name) (hp : inEntry = true → p ≠ "key")
    (hvalue : ValueWords value) (htokens : b.tokens.map Token.word = name ++ (value ++ tail))
    (hroom : b.tokens.length ≤ b.size) :
    b'.tokens.map Token.word = tail ∧ b'.context = b.context ∧ Aside b b' := by
  unfold item at h
  rw [hkind] at h
  rw [exec_bind_ok (exec_get b)] at h
  obtain ⟨k, u, hread, h⟩ := exec_bind_eq_ok.mp h
  have hroom₁ := (Steady.readKey _ hread).room hroom
  obtain ⟨rfl, tokens, place, htail, rfl⟩ := readKey_words hname hread htokens hroom
  obtain ⟨_, b₁, henter, h⟩ := exec_bind_eq_ok.mp h
  obtain ⟨first, b₂, htoken, h⟩ := exec_bind_eq_ok.mp h
  rw [exec_bind_ok (exec_get b₂)] at h
  obtain ⟨v, b₃, hval, h⟩ := exec_bind_eq_ok.mp h
  rw [exec_bind_ok (exec_get b₃)] at h
  dsimp only at h
  obtain ⟨_, b₄, hset, h⟩ := exec_bind_eq_ok.mp h
  obtain ⟨_, b₅, hinfo, h⟩ := exec_bind_eq_ok.mp h
  obtain ⟨-, rfl⟩ := Prod.mk.inj hinfo
  obtain ⟨-, rfl⟩ := Prod.mk.inj h
  -- every token of the value was there at the start, so the allowance suffices
  have hfuel : 2 * value.length ≤ 4 * b₂.size + 4 := by
    have hlen := congrArg List.length htokens
    have hsize :=
      ((Steady.readKey _ hread).trans
        ((Steady.enterKey _ henter).trans (Steady.valueToken htoken))).size
    rw [List.length_map, List.length_append, List.length_append] at hlen
    omega
  obtain ⟨htail₄, haside⟩ :=
    (readsAside _).named henter htoken hval hset hvalue hfuel htail hroom₁ (hstands.apart hp)
  exact ⟨htail₄, rfl, haside⟩

/-- **A further header** opens a table that leads past the keys of the entries. -/
theorem openTable_apart {key : Key} {isItem : Bool} (hkey : Apart key) {a : Unit}
    (h : exec (openTable key isItem) b = (.ok a, b')) :
    b'.tokens = b.tokens ∧ b'.context = key ∧ Aside b b' := by
  obtain rfl | ⟨way, name, rfl⟩ := List.eq_nil_or_concat' key
  · cases hkey
  · obtain ⟨haside, fields, implicits, rfl⟩ := openTable_aside hkey h
    exact ⟨rfl, rfl, haside⟩

/-- A header opens the table of its key, whatever that does. -/
theorem item_header_ok {isItem : Bool} {t : Token} (hkind : t.kind = TokenKind.headerStart isItem)
    {a : Unit} (h : exec (item t) b = (.ok a, b')) {key : Key} {name tail : List Word}
    (hname : KeyWords (TokenKind.headerEnd isItem) key name)
    (htokens : b.tokens.map Token.word = name ++ tail) (hroom : b.tokens.length ≤ b.size) :
    ∃ tokens place b₁, tokens.map Token.word = tail ∧
      exec (openTable key isItem) { b with tokens, place } = (.ok (), b₁) ∧
      b'.tokens = b₁.tokens ∧ b'.context = b₁.context ∧ b'.fields = b₁.fields := by
  have hrun : exec (do
      let key ← readKey (TokenKind.headerEnd isItem)
      openTable key isItem
      setInfo "" false t.place
      addKey key) b = (.ok a, b') := by
    unfold item at h
    cases isItem <;> rw [hkind] at h <;> exact h
  obtain ⟨k, u, hread, hrun⟩ := exec_bind_eq_ok.mp hrun
  obtain ⟨rfl, tokens, place, htail, rfl⟩ := readKey_words hname hread htokens hroom
  obtain ⟨_, b₁, hopen, hrun⟩ := exec_bind_eq_ok.mp hrun
  obtain ⟨_, b₂, hinfo, hrun⟩ := exec_bind_eq_ok.mp hrun
  obtain ⟨-, rfl⟩ := Prod.mk.inj hinfo
  obtain ⟨-, rfl⟩ := Prod.mk.inj hrun
  exact ⟨tokens, place, b₁, htail, hopen, rfl, rfl, rfl⟩

theorem item_header {isItem : Bool} {t : Token} (hkind : t.kind = TokenKind.headerStart isItem)
    {a : Unit} (h : exec (item t) b = (.ok a, b')) {key : Key} {name tail : List Word}
    (hname : KeyWords (TokenKind.headerEnd isItem) key name) (hkey : Apart key)
    (htokens : b.tokens.map Token.word = name ++ tail) (hroom : b.tokens.length ≤ b.size) :
    b'.tokens.map Token.word = tail ∧ b'.context = key ∧ Aside b b' := by
  obtain ⟨tokens, place, b₁, htail, hopen, htokens', hcontext, hfields⟩ :=
    item_header_ok hkind h hname htokens hroom
  obtain ⟨htokens₁, hcontext₁, haside⟩ := openTable_apart hkey hopen
  refine ⟨?_, hcontext.trans hcontext₁, fun keys hkeys => hfields ▸ haside keys hkeys⟩
  rw [htokens', htokens₁]
  exact htail

/-! ## Reading on -/

/-- A document that is still to be read to its end, with some words left. -/
structure ReadOn (a : Unit) (c : Builder) (words : List Word) (fuel : Nat) (b : Builder) :
    Prop where
  run : exec (all fuel) b = (.ok a, c)
  tokens : b.tokens.map Token.word = words
  bound : b.tokens.length < fuel
  room : b.tokens.length ≤ b.size

variable {a : Unit} {c : Builder} {tail : List Word} {fuel : Nat}

theorem ReadOn.next {w : Word} (h : ReadOn a c (w :: tail) fuel b) :
    ∃ fuel' t tokens b', exec (item t) { b with tokens } = (.ok (), b') ∧ t.word = w ∧
      tokens.map Token.word = tail ∧ tokens.length ≤ b.size ∧
      ∀ words, b'.tokens.map Token.word = words → ReadOn a c words fuel' b' := by
  obtain ⟨hrun, htokens, hbound, hroom⟩ := h
  obtain ⟨fuel, rfl⟩ := Nat.exists_eq_add_one.mpr (Nat.zero_lt_of_lt hbound)
  unfold all at hrun
  obtain ⟨r, u, hnext, hrun⟩ := exec_bind_eq_ok.mp hrun
  have hroom' := (Steady.next? hnext).room hroom
  have hlen := congrArg List.length htokens
  obtain ⟨t, tokens, rfl, hword, htail, rfl⟩ := next?_words hnext htokens
  obtain ⟨_, b', hitem, hrun⟩ := exec_bind_eq_ok.mp hrun
  have hlater := Steady.item t hitem
  have hle : b'.tokens.length ≤ tokens.length := hlater.tokens.length_le
  have htailLen := congrArg List.length htail
  rw [List.length_map] at hlen htailLen
  rw [List.length_cons] at hlen
  exact ⟨fuel, t, tokens, b', hitem, hword, htail, hroom',
    fun words hwords => ⟨hrun, hwords, by omega, hlater.room hroom'⟩⟩

theorem ReadOn.end (h : ReadOn a c [] fuel b) : c = b := by
  obtain ⟨hrun, htokens, hbound, -⟩ := h
  obtain ⟨fuel, rfl⟩ := Nat.exists_eq_add_one.mpr (Nat.zero_lt_of_lt hbound)
  unfold all at hrun
  obtain ⟨r, u, hnext, hrest⟩ := exec_bind_eq_ok.mp hrun
  rcases next?_ok hnext with ⟨t, tokens, hcons, -⟩ | ⟨-, -, rfl, rfl⟩
  · rw [hcons] at htokens
    cases htokens
  · obtain ⟨-, rfl⟩ := Prod.mk.inj hrest
    rfl

/-- **Further fields** leave the keys of the entries alone. -/
theorem ReadOn.fieldWords {inEntry : Bool} {words : List Word} (hwords : FieldWords inEntry words)
    (h : ReadOn a c (words ++ tail) fuel b) (hstands : Stands inEntry b.context) :
    ∃ fuel' b', ReadOn a c tail fuel' b' ∧ Aside b b' := by
  induction hwords generalizing fuel b with
  | nil => exact ⟨fuel, b, h, aside_of_fields rfl⟩
  | @pair inEntry p key name value words text hname hp hvalue _ ih =>
      rw [List.cons_append, List.append_assoc, List.append_assoc] at h
      obtain ⟨fuel', t, tokens, b', hitem, hword, htail, hroom, hon⟩ := h.next
      obtain ⟨htail', hcontext, haside⟩ :=
        item_pair (congrArg Prod.fst hword) hitem hstands hname hp hvalue htail hroom
      obtain ⟨fuel'', b'', hon', haside'⟩ := ih (hon _ htail') (hcontext ▸ hstands)
      exact ⟨fuel'', b'', hon', fun keys hkeys => haside' keys (haside keys hkeys)⟩
  | @header inEntry isItem key name words text hname hkey _ ih =>
      rw [List.cons_append, List.append_assoc] at h
      obtain ⟨fuel', t, tokens, b', hitem, hword, htail, hroom, hon⟩ := h.next
      obtain ⟨htail', hcontext, haside⟩ :=
        item_header (congrArg Prod.fst hword) hitem hname hkey htail hroom
      obtain ⟨fuel'', b'', hon', haside'⟩ := ih (hon _ htail') (hcontext ▸ hkey)
      exact ⟨fuel'', b'', hon', fun keys hkeys => haside' keys (haside keys hkeys)⟩

/-! ## Entries -/

/-- The keys of the entries so far; before the first one there is nothing yet. -/
def Held (fields : Fields) (keys : List (Option Value)) : Prop :=
  (keys = [] ∧ fields = []) ∨ Listed fields keys

/-- **A header adds an entry**, which has no key yet. -/
theorem Held.addTable {fields fields' : Fields} {keys : List (Option Value)} (h : Held fields keys)
    (hadd : addTable ["symbol"] "symbol" fields = .ok fields') :
    Listed fields' (keys ++ [none]) := by
  unfold BuildM.addTable at hadd
  rcases h with ⟨rfl, rfl⟩ | ⟨items, hitems, rfl⟩
  · obtain rfl := Except.ok.inj hadd
    exact ⟨[[]], Fields.lookup_set_self, rfl⟩
  · rw [hitems] at hadd
    cases hadd
    exact ⟨items ++ [[]], Fields.lookup_set_self, by simp⟩

/-- **The key is set** in the last entry. -/
theorem Listed.setKey {fields fields' : Fields} {keys : List (Option Value)}
    (h : Listed fields (keys ++ [none])) {value : Value} {isArray isImplicit : Bool}
    (hupdate : BuildM.updateAt (assign ["symbol", "key"] "key" value isArray isImplicit)
      ["symbol"] [] fields = .ok fields') :
    Listed fields' (keys ++ [some value]) := by
  obtain ⟨v, inner, inner', hv, hinner, hchange, rfl⟩ := updateAt_cons_ok hupdate
  obtain ⟨items, hitems, hkeys⟩ := h
  rw [hitems] at hv
  obtain rfl := Option.some.inj hv
  have hsplit := List.dropLast_append_getLast? inner hinner
  rw [← hsplit, List.map_append] at hkeys
  obtain ⟨hbefore, hlast⟩ := List.append_inj' hkeys rfl
  have hfree : inner.lookup "key" = none := List.singleton_inj.mp hlast
  have hset : inner' = Fields.set inner "key" value := by
    unfold BuildM.updateAt assign at hchange
    rw [if_neg (by rw [Fields.any_eq_isSome, hfree]; decide)] at hchange
    exact (Except.ok.inj hchange).symm
  refine ⟨items.dropLast ++ [inner'], Fields.lookup_set_self, ?_⟩
  rw [List.map_append, hbefore, hset, List.map_singleton, Fields.lookup_set_self]

/-- A header takes its words and opens the table of the new entry. -/
theorem ReadOn.header {keys : List (Option Value)} (h : ReadOn a c (headerWords ++ tail) fuel b)
    (hkeys : Held b.fields keys) : ∃ fuel' b', ReadOn a c tail fuel' b' ∧ b'.context = ["symbol"] ∧
      Listed b'.fields (keys ++ [none]) := by
  have hname : KeyWords (TokenKind.headerEnd true) ["symbol"] [(.bare, "symbol"),
      (.tableItemEnd, "]]")] :=
    .part (by decide) rfl (.stop _)
  obtain ⟨fuel', t, tokens, b', hitem, hword, htail, hroom, hon⟩ := ReadOn.next h
  obtain ⟨tokens', place, b₁, htail', hopen, htokens, hcontext, hfields⟩ :=
    item_header_ok (congrArg Prod.fst hword : t.kind = TokenKind.headerStart true) hitem hname
      htail hroom
  obtain ⟨made, opened, change, fields, implicits, hway, -, hchange, hupdate, rfl⟩ :=
    @openTable_ok _ _ [] "symbol" _ _ hopen
  obtain ⟨-, rfl⟩ := Prod.mk.inj (Except.ok.inj hway)
  refine ⟨fuel', b', hon _ ((congrArg (List.map Token.word) htokens).trans htail'), hcontext, ?_⟩
  rw [hfields]
  rw [hchange rfl] at hupdate
  exact hkeys.addTable hupdate

theorem ReadOn.key {keys : List (Option Value)} {key : String}
    (h : ReadOn a c (keyWords key ++ tail) fuel b) (hcontext : b.context = ["symbol"])
    (hkeys : Listed b.fields (keys ++ [none]))
    (hkey : Literal.string .string key = .ok key) : ∃ fuel' b', ReadOn a c tail fuel' b' ∧
      b'.context = ["symbol"] ∧ Listed b'.fields (keys ++ [some (.text key)]) := by
  have hname : KeyWords .keyEnd ["key"] [(.bare, "key"), (.keyEnd, "=")] :=
    .part (by decide) rfl (.stop _)
  obtain ⟨fuel', t, tokens, b', hitem, hword, htail, hroom, hon⟩ := ReadOn.next h
  have hkind : t.kind = .keyStart := congrArg Prod.fst hword
  unfold item at hitem
  rw [hkind, exec_bind_ok (exec_get _)] at hitem
  obtain ⟨k, u, hread, hitem⟩ := exec_bind_eq_ok.mp hitem
  obtain ⟨rfl, tokens₁, place, htail₁, rfl⟩ := readKey_words hname hread htail hroom
  -- a key of one part passes through no table
  obtain ⟨_, b₁, henter, hitem⟩ := exec_bind_eq_ok.mp hitem
  obtain ⟨-, rfl⟩ := Prod.mk.inj henter
  obtain ⟨first, b₂, htoken, hitem⟩ := exec_bind_eq_ok.mp hitem
  obtain ⟨hfirst, tokens₂, htail₂, rfl⟩ := valueToken_words htoken htail₁
  rw [exec_bind_ok (exec_get _)] at hitem
  obtain ⟨v, b₃, hvalue, hitem⟩ := exec_bind_eq_ok.mp hitem
  obtain ⟨hfirstKind, hfirstText⟩ := Prod.mk.inj hfirst
  unfold value literal at hvalue
  rw [hfirstKind, hfirstText] at hvalue
  dsimp only at hvalue
  rw [if_neg (by decide), if_neg (by decide), hkey] at hvalue
  obtain ⟨hv, rfl⟩ := Prod.mk.inj hvalue
  obtain rfl := Except.ok.inj hv
  rw [exec_bind_ok (exec_get _)] at hitem
  obtain ⟨_, b₄, hset, hitem⟩ := exec_bind_eq_ok.mp hitem
  obtain ⟨_, b₅, hinfo, hitem⟩ := exec_bind_eq_ok.mp hitem
  obtain ⟨-, rfl⟩ := Prod.mk.inj hinfo
  obtain ⟨-, rfl⟩ := Prod.mk.inj hitem
  obtain ⟨isArray, isImplicit, fields, implicits, hupdate, rfl⟩ := setValue_ok hset
  dsimp only at hupdate
  rw [hcontext] at hupdate
  exact ⟨fuel', _, hon _ htail₂, hcontext, hkeys.setKey hupdate⟩

/-- The words of a document of entries, with the keys of the entries. -/
inductive EntryWords : List String → List Word → Prop where
  | nil : EntryWords [] []
  | entry {key : String} {keys : List String} {fields words : List Word} :
      Literal.string .string key = .ok key → FieldWords true fields → EntryWords keys words →
      EntryWords (key :: keys) (headerWords ++ (keyWords key ++ (fields ++ words)))

/-- **Reading a document of entries** adds their keys, in order, to those before. -/
theorem ReadOn.entryWords {keys : List String} {words : List Word} (hwords : EntryWords keys words)
    {before : List (Option Value)} (h : ReadOn a c words fuel b) (hheld : Held b.fields before) :
    Held c.fields (before ++ keys.map fun key => some (.text key)) := by
  induction hwords generalizing fuel b before with
  | nil =>
      rw [List.map_nil, List.append_nil, h.end]
      exact hheld
  | @entry key keys fields words hkey hfields _ ih =>
      obtain ⟨_, b₁, h₁, hcontext₁, hlisted₁⟩ := h.header hheld
      obtain ⟨_, b₂, h₂, hcontext₂, hlisted₂⟩ := h₁.key hcontext₁ hlisted₁ hkey
      obtain ⟨_, b₃, h₃, haside⟩ := h₂.fieldWords hfields hcontext₂
      rw [List.map_cons, List.append_cons]
      exact ih h₃ (Or.inr (haside _ hlisted₂))

/-- **A text with the words of entries** makes a document whose entries have their keys. -/
theorem parse_entryWords {bytes : List UInt8} (hmark : Document.dropMark bytes = bytes)
    {keys : List String} {words : List Word} (hwords : EntryWords keys words)
    (hpasses : Passes [] (Text.Utf8.decode bytes) words)
    {d : Document} (h : Document.parse bytes = .ok d) :
    Held d.fields (keys.map fun key => some (.text key)) := by
  unfold Document.parse at h
  rw [hmark] at h
  dsimp only at h
  split at h
  · cases h
  rcases hscan : scan (Text.Utf8.decode bytes) with ⟨tokens, failure⟩
  rw [hscan] at h
  dsimp only at h
  rcases hrun :
    (all (tokens.length + 1)).run.run { size := tokens.length, tokens, failure } with ⟨result, c⟩
  rw [hrun] at h
  cases result with
  | error e => cases h
  | ok a =>
      obtain rfl := Except.ok.inj h
      have hall : exec (all (tokens.length + 1)) { size := tokens.length, tokens, failure }
        = (.ok a, c) := hrun
      -- a failure behind the tokens would have come up
      obtain rfl : failure = none := all_failure (Nat.lt_succ_self _) hall
      have hon : ReadOn a c words (tokens.length + 1)
          { size := tokens.length, tokens, failure := none } :=
        ⟨hall, hpasses.scan hscan, Nat.lt_succ_self _, le_rfl⟩
      exact hon.entryWords hwords (Or.inl ⟨rfl, rfl⟩)

theorem Held.texts {fields : Fields} {keys : List String}
    (h : Held fields (keys.map fun key => some (.text key))) :
    (fields.tables "symbol").map (·.text "key") = keys := by
  rcases h with ⟨hnil, rfl⟩ | ⟨items, hitems, hkeys⟩
  · rw [List.map_eq_nil_iff] at hnil
    rw [hnil]
    rfl
  · unfold Fields.tables
    rw [Fields.get?_of_lookup hitems]
    clear hitems
    induction items generalizing keys with
    | nil =>
        obtain rfl := List.map_eq_nil_iff.mp hkeys.symm
        rfl
    | cons item items ih =>
        obtain ⟨key, rest, rfl, hkey, hrest⟩ := List.map_eq_cons_iff.mp hkeys.symm
        have htext : item.text "key" = key := by
          unfold Fields.text
          rw [Fields.get?_of_lookup hkey.symm]
        exact congrArg₂ List.cons htext (ih hrest.symm)

end SymbolAtlas.Toml
