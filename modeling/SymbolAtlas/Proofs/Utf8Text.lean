import SymbolAtlas.Text.Bytes
import SymbolAtlas.Text.Columns
import SymbolAtlas.Text.Utf8
import Mathlib.Data.List.TakeWhile
import Mathlib.Tactic

set_option autoImplicit false

/-! # Texts as bytes

The bytes of a text are read back as the text: every character announces its length, the bytes after
the first one continue it, and together they are the character again (`encoded_char`). So a text and
its bytes look the same in a table (`ofBytes_encode`), and different texts have different bytes
(`encode_injective`). -/

namespace SymbolAtlas.Text.Utf8

/-! ## Bytes as numbers -/

section Byte

variable {n : Nat} (h : n < 256) (k : UInt8)

include h

theorem toNat_byte : (UInt8.ofNat n).toNat = n :=
  UInt8.toNat_ofNat_of_lt h

theorem byte_lt_iff : UInt8.ofNat n < k ↔ n < k.toNat := by
  rw [UInt8.lt_iff_toNat_lt, toNat_byte h]

theorem byte_le_iff : UInt8.ofNat n ≤ k ↔ n ≤ k.toNat := by
  rw [UInt8.le_iff_toNat_le, toNat_byte h]

theorem le_byte_iff : k ≤ UInt8.ofNat n ↔ k.toNat ≤ n := by
  rw [UInt8.le_iff_toNat_le, toNat_byte h]

theorem byte_eq_iff : UInt8.ofNat n = k ↔ n = k.toNat := by
  rw [← UInt8.toNat_inj, toNat_byte h]

end Byte

theorem isTail_byte {n : Nat} (h : n < 64) : isTail (UInt8.ofNat (n + 128)) = true := by
  have hlt : n + 128 < 256 := by omega
  unfold isTail
  simp only [Bool.and_eq_true, decide_eq_true_eq, le_byte_iff hlt, byte_le_iff hlt]
  show 128 ≤ n + 128 ∧ n + 128 ≤ 191
  omega

theorem tailBits_byte {n : Nat} (h : n < 64) : tailBits (UInt8.ofNat (n + 128)) = n := by
  unfold tailBits
  rw [toNat_byte (by omega)]
  omega

/-- The lower end of a second byte's range depends on the first byte. -/
theorem low_le_byte {n k : Nat} (hn : n < 256) (hk : k < 256) {a low low' : UInt8}
    (h : n = a.toNat → low.toNat ≤ k) (h' : low'.toNat ≤ k) :
    (if UInt8.ofNat n = a then low else low') ≤ UInt8.ofNat k := by
  rw [le_byte_iff hk]
  split
  · rename_i ha
    exact h ((byte_eq_iff hn a).mp ha)
  · exact h'

/-- The upper end of a second byte's range depends on the first byte. -/
theorem byte_le_high {n k : Nat} (hn : n < 256) (hk : k < 256) {a high high' : UInt8}
    (h : n = a.toNat → k ≤ high.toNat) (h' : k ≤ high'.toNat) :
    UInt8.ofNat k ≤ (if UInt8.ofNat n = a then high else high') := by
  rw [byte_le_iff hk]
  split
  · rename_i ha
    exact h ((byte_eq_iff hn a).mp ha)
  · exact h'

/-! ## One character -/

/-- What the bytes of a character are: a first byte that announces the others, which continue it. -/
structure Spells (c : Char) (a : UInt8) (tail : List UInt8) : Prop where
  announced : announcedLength a = tail.length + 1
  continues : ∀ b ∈ tail, isTail b = true
  char : ∀ rest, charAt? a (tail ++ rest) = some (c, tail.length + 1)

theorem spells_one {v : Nat} (h : v ≤ 127) : Spells (Char.ofNat v) (UInt8.ofNat v) [] := by
  have hlt : v < 256 := by omega
  refine ⟨?_, by simp, ?_⟩
  · unfold announcedLength
    simp only [byte_lt_iff hlt, UInt8.reduceToNat]
    rw [if_pos (by omega)]
    rfl
  · intro rest
    unfold charAt?
    simp only [byte_lt_iff hlt, UInt8.reduceToNat, toNat_byte hlt]
    rw [if_pos (by omega)]
    rfl

theorem spells_two {v : Nat} (h : 127 < v) (h' : v ≤ 2047) : Spells (Char.ofNat v)
    (UInt8.ofNat (v / 64 % 32 + 192)) [UInt8.ofNat (v % 64 + 128)] := by
  have hlt : v / 64 % 32 + 192 < 256 := by omega
  have htail : v % 64 < 64 := by omega
  have hv : (v / 64 % 32 + 192 - 192) * 64 + v % 64 = v := by omega
  refine ⟨?_, ?_, ?_⟩
  · unfold announcedLength
    simp only [byte_lt_iff hlt, UInt8.reduceToNat]
    rw [if_neg (by omega), if_pos (by omega)]
    rfl
  · intro b hb
    rw [List.mem_singleton.mp hb]
    exact isTail_byte htail
  · intro rest
    unfold charAt?
    simp only [byte_lt_iff hlt, byte_le_iff hlt, le_byte_iff hlt, Bool.and_eq_true,
      decide_eq_true_eq, UInt8.reduceToNat, List.cons_append]
    rw [if_neg (by omega), if_pos (by omega), if_pos (isTail_byte htail), tailBits_byte htail,
      toNat_byte hlt, hv]
    rfl

theorem spells_three {v : Nat} (h : 2047 < v) (h' : v ≤ 65535) (hrange : v < 0xD800 ∨ 0xDFFF < v) :
    Spells (Char.ofNat v) (UInt8.ofNat (v / 4096 % 16 + 224))
      [UInt8.ofNat (v / 64 % 64 + 128), UInt8.ofNat (v % 64 + 128)] := by
  have hlt : v / 4096 % 16 + 224 < 256 := by omega
  have hlt' : v / 64 % 64 + 128 < 256 := by omega
  have hmid : v / 64 % 64 < 64 := by omega
  have htail : v % 64 < 64 := by omega
  have hv : (v / 4096 % 16 + 224 - 224) * 4096 + v / 64 % 64 * 64 + v % 64 = v := by omega
  refine ⟨?_, ?_, ?_⟩
  · unfold announcedLength
    simp only [byte_lt_iff hlt, UInt8.reduceToNat]
    rw [if_neg (by omega), if_neg (by omega), if_pos (by omega)]
    rfl
  · intro b hb
    rcases List.mem_pair.mp hb with rfl | rfl
    · exact isTail_byte hmid
    · exact isTail_byte htail
  · intro rest
    -- the range of the second byte keeps overlong forms and surrogates out
    have hlow : (if UInt8.ofNat (v / 4096 % 16 + 224) = 224 then (160 : UInt8) else 128)
        ≤ UInt8.ofNat (v / 64 % 64 + 128) :=
      low_le_byte hlt hlt' (fun (h : _ = 224) => show 160 ≤ _ by omega) (show 128 ≤ _ by omega)
    have hhigh : UInt8.ofNat (v / 64 % 64 + 128)
        ≤ (if UInt8.ofNat (v / 4096 % 16 + 224) = 237 then (159 : UInt8) else 191) :=
      byte_le_high hlt hlt' (fun (h : _ = 237) => show _ ≤ 159 by omega) (show _ ≤ 191 by omega)
    unfold charAt?
    simp only [byte_lt_iff hlt, byte_le_iff hlt, le_byte_iff hlt, Bool.and_eq_true,
      decide_eq_true_eq, UInt8.reduceToNat, List.cons_append, beq_iff_eq]
    rw [if_neg (by omega), if_neg (by omega), if_pos (by omega),
      if_pos ⟨⟨hlow, hhigh⟩, isTail_byte htail⟩, tailBits_byte hmid, tailBits_byte htail,
      toNat_byte hlt, hv]
    rfl

theorem spells_four {v : Nat} (h : 65535 < v) (h' : v < 0x110000) :
    Spells (Char.ofNat v) (UInt8.ofNat (v / 262144 % 8 + 240)) [UInt8.ofNat (v / 4096 % 64 + 128),
      UInt8.ofNat (v / 64 % 64 + 128), UInt8.ofNat (v % 64 + 128)] := by
  have hlt : v / 262144 % 8 + 240 < 256 := by omega
  have hlt' : v / 4096 % 64 + 128 < 256 := by omega
  have hsecond : v / 4096 % 64 < 64 := by omega
  have hthird : v / 64 % 64 < 64 := by omega
  have htail : v % 64 < 64 := by omega
  have hv : (v / 262144 % 8 + 240 - 240) * 262144 + v / 4096 % 64 * 4096 + v / 64 % 64 * 64 + v % 64
      = v := by omega
  refine ⟨?_, ?_, ?_⟩
  · unfold announcedLength
    simp only [byte_lt_iff hlt, UInt8.reduceToNat]
    rw [if_neg (by omega), if_neg (by omega), if_neg (by omega), if_pos (by omega)]
    rfl
  · intro b hb
    simp only [List.mem_cons, List.not_mem_nil, or_false] at hb
    rcases hb with rfl | rfl | rfl
    · exact isTail_byte hsecond
    · exact isTail_byte hthird
    · exact isTail_byte htail
  · intro rest
    -- here it keeps overlong forms and values past the last code point out
    have hlow : (if UInt8.ofNat (v / 262144 % 8 + 240) = 240 then (144 : UInt8) else 128)
        ≤ UInt8.ofNat (v / 4096 % 64 + 128) :=
      low_le_byte hlt hlt' (fun (h : _ = 240) => show 144 ≤ _ by omega) (show 128 ≤ _ by omega)
    have hhigh : UInt8.ofNat (v / 4096 % 64 + 128)
        ≤ (if UInt8.ofNat (v / 262144 % 8 + 240) = 244 then (143 : UInt8) else 191) :=
      byte_le_high hlt hlt' (fun (h : _ = 244) => show _ ≤ 143 by omega) (show _ ≤ 191 by omega)
    unfold charAt?
    simp only [byte_lt_iff hlt, byte_le_iff hlt, le_byte_iff hlt, Bool.and_eq_true,
      decide_eq_true_eq, UInt8.reduceToNat, List.cons_append, beq_iff_eq]
    rw [if_neg (by omega), if_neg (by omega), if_neg (by omega), if_pos (by omega),
      if_pos ⟨⟨⟨hlow, hhigh⟩, isTail_byte hthird⟩, isTail_byte htail⟩, tailBits_byte hsecond,
      tailBits_byte hthird, tailBits_byte htail, toNat_byte hlt, hv]
    rfl

/-- **The bytes of a character spell it.** Code points stay clear of the surrogates and end below
`0x110000`. -/
theorem encoded_char (c : Char) :
    ∃ a tail, String.utf8EncodeChar c = a :: tail ∧ Spells c a tail := by
  have hrange : c.toNat < 0xD800 ∨ (0xDFFF < c.toNat ∧ c.toNat < 0x110000) := c.valid
  have hself : Char.ofNat c.toNat = c := Char.ofNat_toNat c
  have hval : c.val.toNat = c.toNat := rfl
  rw [String.utf8EncodeChar.eq_1, hval]
  -- the branches of the encoder are the ranges of the four lengths
  by_cases h1 : c.toNat ≤ 127
  · rw [if_pos h1]
    have hspells := spells_one h1
    rw [hself] at hspells
    exact ⟨_, _, rfl, hspells⟩
  · rw [if_neg h1]
    by_cases h2 : c.toNat ≤ 2047
    · rw [if_pos h2]
      have hspells := spells_two (by omega) h2
      rw [hself] at hspells
      exact ⟨_, _, rfl, hspells⟩
    · rw [if_neg h2]
      by_cases h3 : c.toNat ≤ 65535
      · rw [if_pos h3]
        have hspells := spells_three (by omega) h3 (by omega)
        rw [hself] at hspells
        exact ⟨_, _, rfl, hspells⟩
      · rw [if_neg h3]
        have hspells := spells_four (v := c.toNat) (by omega) (by omega)
        rw [hself] at hspells
        exact ⟨_, _, rfl, hspells⟩

/-! ## Texts -/

/-- The bytes of an array are collected from the front. -/
theorem toList_loop (bytes : ByteArray) (i : Nat) (done : List UInt8) :
    ByteArray.toList.loop bytes i done = done.reverse ++ bytes.data.toList.drop i := by
  have hsize : bytes.data.toList.length = bytes.size := Array.length_toList
  induction hleft : bytes.size - i generalizing i done with
  | zero =>
      rw [ByteArray.toList.loop.eq_1, if_neg (by omega), List.drop_eq_nil_of_le (by omega),
        List.append_nil]
  | succ left ih =>
      have hlt : i < bytes.data.toList.length := by omega
      have hbyte : bytes.get! i = bytes.data.toList[i] := by
        obtain ⟨data⟩ := bytes
        exact getElem!_pos data i (by simpa using hlt)
      rw [ByteArray.toList.loop.eq_1, if_pos (by omega), ih _ _ (by omega), List.reverse_cons,
        List.append_assoc, List.drop_eq_getElem_cons hlt, hbyte]
      rfl

/-- The bytes of a text are those of its characters, one after the other. -/
theorem encode_eq_flatMap (s : String) : encode s = s.toList.flatMap String.utf8EncodeChar := by
  unfold encode ByteArray.toList
  rw [toList_loop, String.toUTF8_eq_toByteArray, ← String.utf8Encode_toList, List.utf8Encode.eq_1,
    List.toList_data_toByteArray]
  rfl

theorem encode_empty : encode "" = [] := by
  rw [encode_eq_flatMap]
  rfl

theorem encode_append (s t : String) : encode (s ++ t) = encode s ++ encode t := by
  rw [encode_eq_flatMap, encode_eq_flatMap, encode_eq_flatMap, String.toList_append,
    List.flatMap_append]

/-- The byte of a newline is part of no other character. -/
theorem newline_not_mem_char {c : Char} (hc : c ≠ '\n') :
    Bytes.newline ∉ String.utf8EncodeChar c := by
  have hrange : c.toNat < 0xD800 ∨ (0xDFFF < c.toNat ∧ c.toNat < 0x110000) := c.valid
  have hne : c.toNat ≠ 10 := fun h => hc (Char.toNat_inj.mp h)
  have hbyte : ∀ n : Nat, n < 256 ∧ n ≠ 10 → Bytes.newline ≠ UInt8.ofNat n := by
    rintro n ⟨hlt, hn⟩ heq
    refine hn ?_
    rw [← toNat_byte hlt, ← heq]
    rfl
  rw [String.utf8EncodeChar.eq_1, show c.val.toNat = c.toNat from rfl]
  intro hmem
  split_ifs at hmem
  all_goals simp only [List.mem_cons, List.not_mem_nil, or_false] at hmem
  · exact hbyte _ (by omega) hmem
  · rcases hmem with h | h
    all_goals exact hbyte _ (by omega) h
  · rcases hmem with h | h | h
    all_goals exact hbyte _ (by omega) h
  · rcases hmem with h | h | h | h
    all_goals exact hbyte _ (by omega) h

theorem newline_not_mem_encode {s : String} (hs : '\n' ∉ s.toList) : Bytes.newline ∉ encode s := by
  rw [encode_eq_flatMap]
  intro hmem
  obtain ⟨c, hc, hbyte⟩ := List.mem_flatMap.mp hmem
  exact newline_not_mem_char (fun heq => hs (heq ▸ hc)) hbyte

theorem length_encode (s : String) : (encode s).length = s.utf8ByteSize := by
  unfold encode ByteArray.toList
  rw [toList_loop]
  simp

/-- A text of characters of one byte has as many bytes as characters. -/
theorem utf8ByteSize_of_ascii {s : String} (h : ∀ c ∈ s.toList, c.utf8Size = 1) :
    s.utf8ByteSize = s.length := by
  have hone : s.toList.map (fun c => (String.utf8EncodeChar c).length) = s.toList.map fun _ => 1 :=
    List.map_congr_left fun c hc => by rw [String.length_utf8EncodeChar, h c hc]
  rw [← length_encode, encode_eq_flatMap, List.length_flatMap, hone, List.map_const',
    List.sum_replicate, smul_eq_mul, mul_one, String.length_toList]

/-- The bytes of a character that was read are passed over. -/
theorem decodeFrom_skip (tail rest : List UInt8) :
    decodeFrom tail.length (tail ++ rest) = decodeFrom 0 rest := by
  induction tail with
  | nil => rfl
  | cons b tail ih => exact ih

/-- **The bytes of a text are read as its characters.** -/
theorem map_toChar_decode (cs : List Char) :
    (decode (cs.flatMap String.utf8EncodeChar)).map Glyph.toChar = cs := by
  induction cs with
  | nil => rfl
  | cons c cs ih =>
      obtain ⟨a, tail, hbytes, hspells⟩ := encoded_char c
      rw [List.flatMap_cons, hbytes, List.cons_append]
      unfold decode decodeFrom glyphAt
      rw [hspells.char]
      dsimp only [Glyph.width]
      rw [Nat.add_sub_cancel, decodeFrom_skip, List.map_cons]
      exact congrArg (c :: ·) ih

theorem toText_encode (s : String) : toText (encode s) = s := by
  unfold toText
  rw [encode_eq_flatMap, map_toChar_decode, String.ofList_toList]

theorem encode_injective : Function.Injective encode :=
  Function.LeftInverse.injective toText_encode

theorem measuredFrom_skip (tail rest : List UInt8) :
    measuredFrom tail.length (tail ++ rest) = measuredFrom 0 rest := by
  induction tail with
  | nil => rfl
  | cons b tail ih => exact ih

/-- Measuring the bytes of a text, no character is cut off. -/
theorem measuredFrom_encode (cs : List Char) :
    measuredFrom 0 (cs.flatMap String.utf8EncodeChar) = (cs, false) := by
  induction cs with
  | nil => rfl
  | cons c cs ih =>
      obtain ⟨a, tail, hbytes, hspells⟩ := encoded_char c
      rw [List.flatMap_cons, hbytes, List.cons_append]
      have htake : (tail ++ cs.flatMap String.utf8EncodeChar).take (announcedLength a - 1)
          = tail := by
        rw [hspells.announced, Nat.add_sub_cancel, List.take_left]
      have hwhile : tail.takeWhile isTail = tail := List.takeWhile_eq_self_iff.mpr hspells.continues
      unfold measuredFrom
      dsimp only
      rw [htake, hspells.announced, if_neg (lt_irrefl _), hwhile, measuredFrom_skip, ih]
      unfold glyphAt
      rw [hspells.char]
      rfl

end SymbolAtlas.Text.Utf8

namespace SymbolAtlas.Text.Columns

/-- **A text and its bytes look the same in a column.** -/
theorem Cell.ofBytes_encode (s : String) : Cell.ofBytes (Utf8.encode s) = Cell.ofString s := by
  unfold Cell.ofBytes Cell.ofString
  rw [Utf8.toText_encode]
  unfold byteCellWidth
  rw [Utf8.encode_eq_flatMap, Utf8.measuredFrom_encode]
  rfl

end SymbolAtlas.Text.Columns
