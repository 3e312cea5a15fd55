import SymbolAtlas.Cache.Payload
import SymbolAtlas.Proofs.Utf8Text

set_option autoImplicit false

/-! # Packed records

A packed value is read from the front of the bytes and what follows is left over. `Reads` says so of
a reader, and it passes from the parts of a value to the whole, as the readers are put together. The
head of a value gives its length back if that fits 32 bits, a map gives back its pairs if their keys
are distinct, and a record gives back the fields that it names. So a payload of fitting sizes is
read back as it was written (`decode?_encode`). -/

namespace SymbolAtlas.Cache

open Text

/-! ## Numbers of double precision

The bits of a number are its sign, its exponent and its mantissa, and only one pattern of bits
stands for what is no number. So taking the number apart and packing it again gives the bits
back. -/

namespace Double

open Float.Model Float.Model.UnpackedFloat

theorem toBitVec_ofBitVec (v : BitVec 1) : (Sign.ofBitVec v).toBitVec = v := by
  obtain rfl | rfl : v = 0#1 ∨ v = 1#1 := by
    have hlt := v.isLt
    rcases Nat.lt_succ_iff_lt_or_eq.mp hlt with h | h
    · left
      apply BitVec.eq_of_toNat_eq
      simp
      omega
    · right
      apply BitVec.eq_of_toNat_eq
      simpa using h
  · rfl
  · rfl

/-- The sign, the exponent and the mantissa make up the bits. -/
theorem packComponents_of_parts {b : BitVec Format.binary64.numBits}
    {e : BitVec Format.binary64.exponentBits}
    {m : BitVec Format.binary64.mantissaBitsWithoutImplicit} (he : unpackExponent b = e)
    (hm : unpackMantissa b = m) :
    packComponents .binary64 (Sign.ofBitVec (unpackSign b)) e m = b := by
  subst he hm
  unfold packComponents
  rw [toBitVec_ofBitVec]
  apply BitVec.eq_of_getElem_eq
  intro i hi
  have hbit : b[i] = b.getLsbD i := (BitVec.getLsbD_eq_getElem hi).symm
  rw [hbit]
  unfold unpackSign unpackExponent unpackMantissa
  simp only [BitVec.getElem_append, BitVec.getElem_cast]
  split
  · simp
  · split
    · simp
      congr 1
      omega
    · simp
      congr 1
      omega

/-- A number below the normal ones has no leading bit. -/
theorem pack_unpack_below {b : BitVec Format.binary64.numBits} (hzero : unpackExponent b = 0#11)
    (hman : unpackMantissa b ≠ 0#52) :
    UnpackedFloat.pack .binary64 (UnpackedFloat.unpack .binary64 b) = b := by
  have hm : (unpackMantissa b).toNat < 2 ^ 52 := (unpackMantissa b).isLt
  have hbias : ((Format.binary64.exponentBias : Nat) : Int) = 1023 := rfl
  have hpos : (unpackMantissa b).toNat ≠ 0 :=
    fun hz => hman (BitVec.eq_of_toNat_eq (by simpa using hz))
  have hlog := (Nat.log2_lt hpos).mpr hm
  have hbits : Format.binary64.mantissaBits = 53 := rfl
  have hbiased : (((unpackExponent b).toNat : Int) - (Format.binary64.exponentBias + (52 : Nat)) + 1
      + Format.binary64.exponentBias + (52 : Nat)).toNat = 1 := by
    rw [hzero, hbias]
    rfl
  unfold UnpackedFloat.unpack
  dsimp only
  rw [if_neg (by rw [hzero]; decide), if_pos hzero, dif_neg hman]
  unfold UnpackedFloat.pack
  dsimp only
  rw [hbiased, if_neg (by decide), if_neg (by omega), BitVec.ofNat_toNat, BitVec.setWidth_eq]
  exact packComponents_of_parts hzero rfl

/-- A normal number has a leading bit in front of its mantissa. -/
theorem pack_unpack_normal {b : BitVec Format.binary64.numBits} (hexp : unpackExponent b ≠ -1#11)
    (hzero : unpackExponent b ≠ 0#11) :
    UnpackedFloat.pack .binary64 (UnpackedFloat.unpack .binary64 b) = b := by
  have hm : (unpackMantissa b).toNat < 2 ^ 52 := (unpackMantissa b).isLt
  have he : (unpackExponent b).toNat < 2 ^ 11 := (unpackExponent b).isLt
  have hbits : Format.binary64.mantissaBits = 53 := rfl
  have hnormal : (unpackExponent b).toNat + 1 < 2 ^ 11 := by
    by_contra hle
    exact hexp (BitVec.eq_of_toNat_eq (by simp; omega))
  -- the leading bit stands above the 52 bits of the mantissa
  have hlead : (1#1 ++ unpackMantissa b).toNat = 2 ^ 52 + (unpackMantissa b).toNat := by
    rw [BitVec.toNat_append, ← Nat.shiftLeft_add_eq_or_of_lt hm]
    rfl
  have hlog : (1#1 ++ unpackMantissa b).toNat.log2 = 52 := by
    rw [hlead, Nat.log2_eq_iff (by omega)]
    omega
  have hbiased : (((unpackExponent b).toNat : Int) - (Format.binary64.exponentBias + (52 : Nat))
      + Format.binary64.exponentBias + (52 : Nat)).toNat = (unpackExponent b).toNat := by
    omega
  have hexact : BitVec.ofNat 52 (1#1 ++ unpackMantissa b).toNat = unpackMantissa b := by
    apply BitVec.eq_of_toNat_eq
    rw [BitVec.toNat_ofNat, hlead]
    omega
  unfold UnpackedFloat.unpack
  dsimp only
  rw [if_neg hexp, if_neg hzero]
  unfold UnpackedFloat.pack
  dsimp only
  rw [hbiased, if_neg (by omega), if_pos (by rw [hlog, hbits]), BitVec.ofNat_toNat,
    BitVec.setWidth_eq, hexact]
  exact packComponents_of_parts rfl rfl

/-- Bits that stand for a number are those of the number. -/
theorem pack_unpack {b : BitVec Format.binary64.numBits} (h : Format.binary64.Valid b) :
    UnpackedFloat.pack .binary64 (UnpackedFloat.unpack .binary64 b) = b := by
  by_cases hexp : unpackExponent b = -1#11
  · unfold UnpackedFloat.unpack
    dsimp only
    rw [if_pos hexp]
    by_cases hman : unpackMantissa b = 0#52
    · rw [if_pos hman]
      exact packComponents_of_parts hexp hman
    · rw [if_neg hman]
      exact (h.eq_packedNaN hexp hman).symm
  · by_cases hzero : unpackExponent b = 0#11
    · by_cases hman : unpackMantissa b = 0#52
      · unfold UnpackedFloat.unpack
        dsimp only
        rw [if_neg hexp, if_pos hzero, dif_pos hman]
        exact packComponents_of_parts hzero hman
      · exact pack_unpack_below hzero hman
    · exact pack_unpack_normal hexp hzero

theorem ofBits_toBits (x : Float) : Float.ofBits x.toBits = x := by
  obtain ⟨⟨bits, hvalid⟩⟩ := x
  have hpack : UnpackedFloat.pack .binary64 (UnpackedFloat.unpack .binary64 bits.toBitVec)
      = bits.toBitVec := pack_unpack hvalid
  unfold Float.ofBits Float.toBits Float.Model.ofBits Float.Model.pack
  dsimp only
  congr 1
  congr 1
  exact UInt64.eq_of_toBitVec_eq hpack

end Double

/-! ## Readers -/

namespace Unpack

variable {α β : Type}

/-- **The reader takes these bytes from the front and gives the value.** -/
def Reads (m : Unpack α) (bytes : List UInt8) (x : α) : Prop :=
  ∀ rest, m.run (bytes ++ rest) = some (x, rest)

theorem Reads.pure (x : α) : Reads (pure x) [] x :=
  fun _ => rfl

theorem Reads.bind {m : Unpack α} {f : α → Unpack β} {front back : List UInt8} {x : α} {y : β}
    (h : Reads m front x) (h' : Reads (f x) back y) : Reads (m >>= f) (front ++ back) y := by
  intro rest
  rw [StateT.run_bind, List.append_assoc, h]
  exact h' rest

/-- What comes after a reader that needs no bytes. -/
theorem Reads.bind_nil {m : Unpack α} {f : α → Unpack β} {bytes : List UInt8} {x : α} {y : β}
    (h : Reads m [] x) (h' : Reads (f x) bytes y) : Reads (m >>= f) bytes y :=
  h.bind h'

theorem Reads.bind_pure {m : Unpack α} {f : α → Unpack β} {bytes : List UInt8} {x : α} {y : β}
    (h : Reads m bytes x) (h' : Reads (f x) [] y) : Reads (m >>= f) bytes y := by
  have hboth := h.bind h'
  rw [List.append_nil] at hboth
  exact hboth

theorem Reads.map {m : Unpack α} {bytes : List UInt8} {x : α} (h : Reads m bytes x) (f : α → β) :
    Reads (f <$> m) bytes (f x) := by
  intro rest
  rw [StateT.run_map, h]
  rfl

theorem reads_byte (b : UInt8) : Reads byte [b] b :=
  fun _ => rfl

theorem reads_take (bytes : List UInt8) : Reads (take bytes.length) bytes bytes := by
  intro rest
  show take bytes.length (bytes ++ rest) = _
  unfold take
  simp

/-- **Steps one after the other read one item after the other**, if each takes the state that the
items before it leave to the next one. -/
theorem reads_times {step : α → Unpack α} {pack : β → List UInt8} (state : List β → α)
    (items : List β)
    (hstep : ∀ done item rest, items = done ++ item :: rest →
      Reads (step (state done)) (pack item) (state (done ++ [item]))) :
    Reads (times step items.length (state [])) (items.flatMap pack) (state items) := by
  suffices hall : ∀ rest done, items = done ++ rest →
      Reads (times step rest.length (state done)) (rest.flatMap pack) (state items)
      from hall items [] rfl
  intro rest
  induction rest with
  | nil =>
      rintro done rfl
      rw [List.append_nil]
      exact Reads.pure _
  | cons item rest ih =>
      intro done hsplit
      rw [List.flatMap_cons]
      exact (hstep done item rest hsplit).bind (ih (done ++ [item]) (by simpa using hsplit))

/-! ## Numbers -/

theorem length_bigEndian (width n : Nat) : (Packed.bigEndian width n).length = width := by
  induction width with
  | zero => rfl
  | succ width ih => simp [Packed.bigEndian, ih]

/-- The digits of a number, each worth 256 times the next one, add up to it. -/
theorem foldl_bigEndian (width n : Nat) : ∀ acc : Nat,
    (Packed.bigEndian width n).foldl (fun n b => 256 * n + b.toNat) acc
      = acc * 256 ^ width + n % 256 ^ width := by
  induction width with
  | zero => intro acc; simp [Packed.bigEndian, Nat.mod_one]
  | succ width ih =>
      intro acc
      have hdigit : (UInt8.ofNat (n / Nat.pow 256 width)).toNat = n / 256 ^ width % 256 :=
        UInt8.toNat_ofNat'
      rw [Packed.bigEndian, List.foldl_cons, ih, hdigit, Nat.mod_pow_succ]
      ring

theorem reads_number {width n : Nat} (hn : n < 256 ^ width) :
    Reads (number width) (Packed.bigEndian width n) n := by
  have htake := reads_take (Packed.bigEndian width n)
  rw [length_bigEndian] at htake
  refine htake.bind_pure ?_
  rw [foldl_bigEndian, Nat.zero_mul, Nat.zero_add, Nat.mod_eq_of_lt hn]
  exact Reads.pure n

theorem reads_float (x : Float) : Reads float (Packed.ofFloat x) x := by
  have hbits : x.toBits.toNat < 256 ^ 8 := x.toBits.toNat_lt
  have hnumber : Reads (do return Float.ofBits (UInt64.ofNat (← number 8)))
      (Packed.bigEndian 8 x.toBits.toNat) x := by
    refine (reads_number hbits).bind_pure ?_
    rw [UInt64.ofNat_toNat, Double.ofBits_toBits]
    exact Reads.pure x
  exact (reads_byte 0xCB).bind hnumber

theorem reads_integer (n : UInt16) : Reads integer (Packed.ofUInt16 n) (n.toNat : Int) := by
  have hnumber : Reads (integerAfter 0xCD) (Packed.bigEndian 2 n.toNat) (n.toNat : Int) :=
    (reads_number n.toNat_lt).map fun (n : Nat) => (n : Int)
  exact (reads_byte 0xCD).bind hnumber

/-! ## Heads of values -/

/-- How the heads of one sort of value are read: one byte for a short value, and else a mark with
the length after it. `good` is what else is known of first bytes. -/
structure HeadForm (count : UInt8 → Unpack (Option Nat)) (good : UInt8 → Prop) (base short : Nat)
    (mark8 : Option UInt8) (mark16 mark32 : UInt8) : Prop where
  brief : ∀ n < short, good (UInt8.ofNat (base + n)) ∧
    Reads (count (UInt8.ofNat (base + n))) [] (some n)
  one : ∀ mark, mark8 = some mark → good mark ∧ count mark = some <$> number 1
  two : good mark16 ∧ count mark16 = some <$> number 2
  four : good mark32 ∧ count mark32 = some <$> number 4

/-- **The head of a value gives its length back.** -/
theorem HeadForm.exists_head {count : UInt8 → Unpack (Option Nat)} {good : UInt8 → Prop}
    {base short : Nat} {mark8 : Option UInt8} {mark16 mark32 : UInt8}
    (h : HeadForm count good base short mark8 mark16 mark32) {n : Nat} (hn : n < 2 ^ 32) :
    ∃ head tail, Packed.lengthHead base short mark8 mark16 mark32 n = head :: tail ∧ good head ∧
      Reads (count head) tail (some n) := by
  -- numbers that need more than one byte
  have hwide : ∃ head tail, (if n < 0x10000 then mark16 :: Packed.bigEndian 2 n
      else mark32 :: Packed.bigEndian 4 n) = head :: tail ∧ good head ∧
        Reads (count head) tail (some n) := by
    by_cases hsmall : n < 0x10000
    · rw [if_pos hsmall]
      exact ⟨_, _, rfl, h.two.1, h.two.2 ▸ (reads_number hsmall).map some⟩
    · rw [if_neg hsmall]
      exact ⟨_, _, rfl, h.four.1, h.four.2 ▸ (reads_number hn).map some⟩
  unfold Packed.lengthHead
  by_cases hs : n < short
  · rw [if_pos hs]
    exact ⟨_, _, rfl, h.brief n hs⟩
  · rw [if_neg hs]
    cases mark8 with
    | none => exact hwide
    | some mark =>
        dsimp only
        by_cases hsmall : n < 0x100
        · rw [if_pos hsmall]
          obtain ⟨hgood, hcount⟩ := h.one mark rfl
          exact ⟨_, _, rfl, hgood, hcount ▸ (reads_number hsmall).map some⟩
        · rw [if_neg hsmall]
          exact hwide

theorem textForm : HeadForm byteCount (fun _ => True) 0xA0 32 (some 0xD9) 0xDA 0xDB where
  brief := by
    intro n hn
    have hbyte : (UInt8.ofNat (0xA0 + n)).toNat = 0xA0 + n := Utf8.toNat_byte (by omega)
    refine ⟨trivial, ?_⟩
    unfold byteCount
    simp only [hbyte, Bool.and_eq_true, decide_eq_true_eq]
    rw [if_neg (by omega), if_pos (by omega), Nat.add_sub_cancel_left]
    exact Reads.pure _
  one := by
    rintro _ ⟨⟩
    exact ⟨trivial, rfl⟩
  two := ⟨trivial, rfl⟩
  four := ⟨trivial, rfl⟩

theorem binaryForm : HeadForm byteCount (fun _ => True) 0 0 (some 0xC4) 0xC5 0xC6 where
  brief := by
    intro n hn
    omega
  one := by
    rintro _ ⟨⟩
    exact ⟨trivial, rfl⟩
  two := ⟨trivial, rfl⟩
  four := ⟨trivial, rfl⟩

theorem listForm : HeadForm listCount (fun _ => True) 0x90 16 none 0xDC 0xDD where
  brief := by
    intro n hn
    have hbyte : (UInt8.ofNat (0x90 + n)).toNat = 0x90 + n := Utf8.toNat_byte (by omega)
    refine ⟨trivial, ?_⟩
    unfold listCount
    simp only [hbyte, Bool.and_eq_true, decide_eq_true_eq]
    rw [if_neg (by omega), if_pos (by omega), Nat.add_sub_cancel_left]
    exact Reads.pure _
  one := by
    rintro _ ⟨⟩
  two := ⟨trivial, rfl⟩
  four := ⟨trivial, rfl⟩

/-- The first byte of a map starts neither a list nor an extension. -/
def StartsMap (head : UInt8) : Prop :=
  isList head = false ∧ pastExtension head = pure head

theorem mapForm : HeadForm mapCount StartsMap 0x80 16 none 0xDE 0xDF where
  brief := by
    intro n hn
    have hbyte : (UInt8.ofNat (0x80 + n)).toNat = 0x80 + n := Utf8.toNat_byte (by omega)
    refine ⟨⟨?_, ?_⟩, ?_⟩
    · unfold isList
      simp only [hbyte]
      simp
      omega
    · unfold pastExtension
      simp only [hbyte, Bool.and_eq_true, decide_eq_true_eq]
      rw [if_neg (by omega), if_neg (by omega)]
    · unfold mapCount
      simp only [hbyte, Bool.and_eq_true, decide_eq_true_eq]
      rw [if_neg (by omega), if_pos (by omega), Nat.add_sub_cancel_left]
      exact Reads.pure _
  one := by
    rintro _ ⟨⟩
  two := ⟨⟨rfl, rfl⟩, rfl⟩
  four := ⟨⟨rfl, rfl⟩, rfl⟩

/-! ## Texts -/

theorem reads_bytes? {bytes : List UInt8} {head : List UInt8}
    (h : ∃ first tail, head = first :: tail ∧ Reads (byteCount first) tail (some bytes.length)) :
    Reads bytes? (head ++ bytes) (some bytes) := by
  obtain ⟨first, tail, rfl, hcount⟩ := h
  rw [List.cons_append]
  refine (reads_byte first).bind (hcount.bind ?_)
  exact (reads_take bytes).bind_pure (Reads.pure _)

theorem reads_text {bytes : List UInt8} (h : bytes.length < 2 ^ 32) :
    Reads text (Packed.ofText bytes) bytes := by
  obtain ⟨first, tail, hhead, -, hcount⟩ := textForm.exists_head h
  have hbytes := reads_bytes? ⟨first, tail, hhead, hcount⟩
  exact hbytes.bind_pure (Reads.pure _)

theorem reads_texts {items : Option (List (List UInt8))}
    (h : ∀ texts, items = some texts → texts.length < 2 ^ 32 ∧ ∀ t ∈ texts, t.length < 2 ^ 32) :
    Reads texts (Payload.packTexts items) items := by
  cases items with
  | none => exact (reads_byte 0xC0).bind_pure (Reads.bind_nil (Reads.pure none) (Reads.pure _))
  | some items =>
      obtain ⟨hcount, hsmall⟩ := h items rfl
      obtain ⟨first, tail, hhead, -, hlength⟩ := listForm.exists_head hcount
      have hitems : Reads (times (fun items => do return (← text) :: items) items.length [])
          (items.flatMap Packed.ofText) items.reverse := by
        refine reads_times List.reverse items ?_
        intro done item rest hsplit
        rw [List.reverse_append, List.reverse_singleton, List.singleton_append]
        exact (reads_text (hsmall item (by simp [hsplit]))).bind_pure (Reads.pure _)
      show Reads texts (Packed.lengthHead 0x90 16 none 0xDC 0xDD items.length ++ _) _
      rw [hhead, List.cons_append]
      refine (reads_byte first).bind (hlength.bind (hitems.bind_pure ?_))
      rw [List.reverse_reverse]
      exact Reads.pure _

/-! ## Maps -/

theorem insertKey_new {α : Type} {pairs : List (List UInt8 × α)} {pair : List UInt8 × α}
    (h : pair.1 ∉ pairs.map Prod.fst) : insertKey pairs pair = pairs ++ [pair] := by
  unfold insertKey
  rw [if_neg]
  intro hany
  obtain ⟨p, hp, heq⟩ := List.any_eq_true.mp hany
  exact h (List.mem_map.mpr ⟨p, hp, beq_iff_eq.mp heq⟩)

/-- **A map gives its pairs back** if their keys are distinct. -/
theorem reads_mapInto {α : Type} {value : Unpack α} {pack : α → List UInt8}
    {map : Option (List (List UInt8 × α))}
    (h : ∀ pairs, map = some pairs → pairs.length < 2 ^ 32 ∧ (pairs.map Prod.fst).Nodup ∧
      ∀ pair ∈ pairs, pair.1.length < 2 ^ 32 ∧ Reads value (pack pair.2) pair.2) :
    Reads (mapInto value none) (Payload.packMap pack map) map := by
  cases map with
  | none =>
      have hnone : Reads (pastExtension 0xC0) [] 0xC0 := Reads.pure _
      exact (reads_byte 0xC0).bind_pure (hnone.bind_nil ((Reads.pure none).bind_nil (Reads.pure _)))
  | some pairs =>
      obtain ⟨hcount, hnodup, hpairs⟩ := h pairs rfl
      obtain ⟨first, tail, hhead, ⟨-, hplain⟩, hlength⟩ := mapForm.exists_head hcount
      have hstart : Reads (pastExtension first) [] first := hplain ▸ Reads.pure first
      show Reads (mapInto value none) (Packed.lengthHead 0x80 16 none 0xDE 0xDF pairs.length ++ _) _
      rw [hhead, List.cons_append]
      refine (reads_byte first).bind
        (hstart.bind_nil (hlength.bind (Reads.bind_pure ?_ (Reads.pure _))))
      refine reads_times (fun done => done) pairs ?_
      rintro done ⟨k, v⟩ rest hsplit
      obtain ⟨hkey, hvalue⟩ := hpairs (k, v) (by simp [hsplit])
      -- the key is none of those before it
      have hnew : k ∉ done.map Prod.fst := by
        rw [hsplit, List.map_append, List.map_cons] at hnodup
        intro hmem
        exact List.disjoint_of_nodup_append hnodup hmem List.mem_cons_self
      refine (reads_text hkey).bind (hvalue.bind_pure ?_)
      have hinsert : insertKey done (k, v) = done ++ [(k, v)] := insertKey_new hnew
      rw [hinsert]
      exact Reads.pure _

/-! ## Records -/

/-- **Reading some fields, one after the other, leads from one value to another.** A field is its
name and the bytes of its value. -/
inductive Fills {α : Type} (fields : List (String × (α → Unpack α))) :
    List (String × List UInt8) → α → α → Prop
  | done {x} : Fills fields [] x x
  | next {name bytes rest x y z read} (hname : name.utf8ByteSize < 2 ^ 32)
      (hread : fields.lookup name = some read) (hvalue : Reads (read x) bytes y)
      (hrest : Fills fields rest y z) : Fills fields ((name, bytes) :: rest) x z

def packField (field : String × List UInt8) : List UInt8 :=
  Packed.ofString field.1 ++ field.2

def packFields (named : List (String × List UInt8)) : List UInt8 :=
  Packed.mapHead named.length ++ named.flatMap packField

/-- A step that reads one field with its name reads all of them. -/
theorem Fills.reads_times {α : Type} {fields : List (String × (α → Unpack α))} {step : α → Unpack α}
    {x y : α} {named : List (String × List UInt8)} (h : Fills fields named x y)
    (hstep : ∀ name read bytes x y, name.utf8ByteSize < 2 ^ 32 → fields.lookup name = some read →
      Reads (read x) bytes y → Reads (step x) (packField (name, bytes)) y) :
    Reads (times step named.length x) (named.flatMap packField) y := by
  induction h with
  | done => exact Reads.pure _
  | next hname hread hvalue _ ih => exact (hstep _ _ _ _ _ hname hread hvalue).bind ih

/-- **A record gives back the fields that it names.** -/
theorem Fills.reads {α : Type} {fields : List (String × (α → Unpack α))} {blank x y : α}
    {named : List (String × List UInt8)} (h : Fills fields named x y) (hn : named.length < 2 ^ 32) :
    Reads (record fields blank x) (packFields named) y := by
  obtain ⟨first, tail, hhead, ⟨hlist, -⟩, hlength⟩ := mapForm.exists_head hn
  show Reads (record fields blank x) (Packed.lengthHead 0x80 16 none 0xDE 0xDF named.length ++ _) _
  rw [hhead, List.cons_append]
  refine (reads_byte first).bind ?_
  rw [hlist]
  refine hlength.bind (h.reads_times ?_)
  intro name read bytes x y hname hread hvalue
  rw [← Utf8.length_encode] at hname
  refine (reads_text hname).bind ?_
  rw [Utf8.toText_encode, hread]
  exact hvalue

end Unpack

/-! ## Payloads -/

namespace Payload

open Unpack

/-- The sizes of a map of texts fit, and its keys are distinct. -/
structure FitsMap {α : Type} (value : α → Prop) (map : Option (List (List UInt8 × α))) : Prop where
  count : ∀ pairs, map = some pairs → pairs.length < 2 ^ 32
  nodup : ∀ pairs, map = some pairs → (pairs.map Prod.fst).Nodup
  key : ∀ pairs, map = some pairs → ∀ pair ∈ pairs, pair.1.length < 2 ^ 32
  value : ∀ pairs, map = some pairs → ∀ pair ∈ pairs, value pair.2

/-- The sizes of a list of texts fit. -/
def FitsTexts (items : Option (List (List UInt8))) : Prop :=
  ∀ texts, items = some texts → texts.length < 2 ^ 32 ∧ ∀ t ∈ texts, t.length < 2 ^ 32

/-- **The payload can be stored**: every length fits 32 bits, the digest has its size, and the keys
of each map are distinct. -/
structure Fits (p : StoredPayload) : Prop where
  manifest : p.manifest.length < 2 ^ 32
  hash : p.hash.length = 32
  closures : FitsMap FitsTexts p.closures
  kinds : FitsMap (fun v => v.length < 2 ^ 32) p.kinds
  flags : FitsMap (fun v => v.length < 2 ^ 32) p.flags
  phases : p.phases.length < 2 ^ 32
  phase : ∀ t ∈ p.phases, t.name.length < 2 ^ 32 ∧ t.note.length < 2 ^ 32

theorem FitsMap.reads {α : Type} {fit : α → Prop} {map : Option (List (List UInt8 × α))}
    (h : FitsMap fit map) {value : Unpack α} {pack : α → List UInt8}
    (hvalue : ∀ v, fit v → Reads value (pack v) v) :
    Reads (mapInto value none) (packMap pack map) map :=
  reads_mapInto fun pairs hpairs => ⟨h.count pairs hpairs, h.nodup pairs hpairs, fun pair hpair =>
    ⟨h.key pairs hpairs pair hpair, hvalue _ (h.value pairs hpairs pair hpair)⟩⟩

/-- **A phase is read back.** An empty note is left out, and the blank phase has none. -/
theorem reads_phase {t : PhaseTime (List UInt8)} (hname : t.name.length < 2 ^ 32)
    (hnote : t.note.length < 2 ^ 32) : Reads (readPhase blankPhase) (packPhase t) t := by
  obtain ⟨name, milliseconds, note⟩ := t
  dsimp only at hname hnote
  by_cases hempty : note = []
  · subst hempty
    -- an empty note is not written, and the blank phase stands for it
    have hbytes : packPhase ⟨name, milliseconds, []⟩ = packFields
        [("name", Packed.ofText name), ("duration_ms", Packed.ofFloat milliseconds)] := by
      simp [packPhase, packFields, packField]
    rw [hbytes]
    refine Fills.reads (.next (by decide) rfl ((reads_text hname).bind_pure (Reads.pure _)) ?_)
      (by simp)
    exact .next (by decide) rfl ((reads_float milliseconds).bind_pure (Reads.pure _)) .done
  · have hfull : note.isEmpty = false := by simpa using hempty
    have hbytes : packPhase ⟨name, milliseconds, note⟩ = packFields [("name", Packed.ofText name),
        ("duration_ms", Packed.ofFloat milliseconds), ("note", Packed.ofText note)] := by
      simp [packPhase, packFields, packField, hfull]
    rw [hbytes]
    refine Fills.reads (.next (by decide) rfl ((reads_text hname).bind_pure (Reads.pure _)) ?_)
      (by simp)
    refine .next (by decide) rfl ((reads_float milliseconds).bind_pure (Reads.pure _)) ?_
    exact .next (by decide) rfl ((reads_text hnote).bind_pure (Reads.pure _)) .done

/-- The phases are read into a draft that has none yet. -/
theorem reads_phases {phases : List (PhaseTime (List UInt8))} (hcount : phases.length < 2 ^ 32)
    (hphase : ∀ t ∈ phases, t.name.length < 2 ^ 32 ∧ t.note.length < 2 ^ 32) {d : Draft}
    (hhidden : d.hidden = []) (hnone : d.payload.phases = []) :
    Reads d.readPhases (packPhases phases)
      { payload := { d.payload with phases }, hidden := [] } := by
  by_cases hempty : phases = []
  · subst hempty
    exact (reads_byte 0xC0).bind_pure ((Reads.pure none).bind_nil (Reads.pure _))
  · obtain ⟨first, tail, hhead, -, hlength⟩ := listForm.exists_head hcount
    have hbytes : packPhases phases
        = Packed.lengthHead 0x90 16 none 0xDC 0xDD phases.length ++ phases.flatMap packPhase := by
      unfold packPhases
      rw [if_neg (by simpa using hempty)]
      rfl
    rw [hbytes, hhead, List.cons_append]
    unfold Draft.readPhases
    rw [hhidden, hnone]
    -- phases are read in front of those read before, and the list is turned round at the end
    refine (reads_byte first).bind (hlength.bind
      ((reads_times (fun done => (done.reverse, [])) phases ?_).bind_pure ?_))
    · intro done t rest hsplit
      obtain ⟨hname, hnote⟩ := hphase t (by simp [hsplit])
      rw [List.reverse_append, List.reverse_singleton, List.singleton_append]
      exact (reads_phase hname hnote).bind_pure (Reads.pure _)
    · dsimp only
      rw [List.reverse_reverse]
      exact Reads.pure _

/-- The timing is read into a draft without phases. -/
theorem reads_timing {total : Float} {phases : List (PhaseTime (List UInt8))}
    (hcount : phases.length < 2 ^ 32)
    (hphase : ∀ t ∈ phases, t.name.length < 2 ^ 32 ∧ t.note.length < 2 ^ 32) {d : Draft}
    (hhidden : d.hidden = []) (hnone : d.payload.phases = []) :
    Reads d.readTiming
      (packFields [("total_ms", Packed.ofFloat total), ("phases", packPhases phases)])
      { payload := { d.payload with total, phases }, hidden := [] } := by
  refine Fills.reads (.next (by decide) rfl ((reads_float total).bind_pure (Reads.pure _)) ?_)
    (by simp)
  refine .next (by decide) rfl (reads_phases hcount hphase ?_ ?_) .done
  · exact hhidden
  · exact hnone

theorem reads_hash {hash : List UInt8} (hlength : hash.length = 32) {d : Draft}
    (hold : d.payload.hash.length = 32) :
    Reads d.readHash (Packed.binaryHead hash.length ++ hash) (d.set { d.payload with hash }) := by
  obtain ⟨first, tail, hhead, -, hcount⟩ := binaryForm.exists_head (n := hash.length) (by omega)
  have hbytes := reads_bytes? ⟨first, tail, hhead, hcount⟩
  have hwhole : hash ++ d.payload.hash.drop hash.length = hash := by
    rw [List.drop_eq_nil_of_le (by omega), List.append_nil]
  refine hbytes.bind_pure ?_
  dsimp only
  rw [if_neg (by omega), hwhole]
  exact Reads.pure _

/-- The version is read as an integer and cut to its width. -/
theorem reads_schema (schema : UInt16) (d : Draft) :
    Reads (do
        let n := Int.emod (← integer) 65536
        return d.set { d.payload with schema := UInt16.ofNat n.toNat })
      (Packed.ofUInt16 schema) (d.set { d.payload with schema }) := by
  have hsame : UInt16.ofNat ((schema.toNat : Int).emod 65536).toNat = schema := by
    have hlt : schema.toNat < 65536 := schema.toNat_lt
    have hmod : ((schema.toNat : Int).emod 65536).toNat = schema.toNat := by
      have hcast : (schema.toNat : Int).emod 65536 = (schema.toNat : Int) :=
        Int.emod_eq_of_lt (by omega) (by omega)
      rw [hcast, Int.toNat_natCast]
    rw [hmod, UInt16.ofNat_toNat]
  refine (reads_integer schema).bind_pure ?_
  dsimp only
  rw [hsame]
  exact Reads.pure _

/-- **What is stored is read back.** -/
theorem decode?_encode {p : StoredPayload} (h : Fits p) : decode? p.encode = some p := by
  have hbytes : p.encode = packFields [
      ("schema", Packed.ofUInt16 p.schema), ("manifest", Packed.ofText p.manifest),
      ("hash", Packed.binaryHead p.hash.length ++ p.hash),
        ("closures", packMap packTexts p.closures),
      ("kinds", packMap Packed.ofText p.kinds), ("flags", packMap Packed.ofText p.flags),
      ("timing", packFields [("total_ms", Packed.ofFloat p.total),
          ("phases", packPhases p.phases)])] := by
    unfold encode packFields packField
    simp only [List.length_cons, List.length_nil, Nat.reduceAdd, List.flatMap_cons,
      List.flatMap_nil, List.append_assoc, List.append_nil]
  have hread : Reads Draft.read p.encode { payload := p } := by
    rw [hbytes]
    -- field by field, in the order in which they are written
    refine Fills.reads (.next (by decide) rfl (reads_schema p.schema _) ?_) (by simp)
    refine .next (by decide) rfl ((reads_text h.manifest).bind_pure (Reads.pure _)) ?_
    refine .next (by decide) rfl (reads_hash h.hash (List.length_replicate ..)) ?_
    refine .next (by decide) rfl
      ((h.closures.reads fun v hv => reads_texts hv).bind_pure (Reads.pure _)) ?_
    refine .next (by decide) rfl
      ((h.kinds.reads fun v hv => reads_text hv).bind_pure (Reads.pure _)) ?_
    refine .next (by decide) rfl
      ((h.flags.reads fun v hv => reads_text hv).bind_pure (Reads.pure _)) ?_
    exact .next (by decide) rfl (reads_timing h.phases h.phase rfl rfl) .done
  have hall := hread []
  rw [List.append_nil] at hall
  unfold decode?
  rw [hall]
  rfl

end Payload

end SymbolAtlas.Cache
