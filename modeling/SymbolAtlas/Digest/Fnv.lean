set_option autoImplicit false

/-! # The FNV-1a hash

A 64-bit hash of a text: every byte is first mixed in, then multiplied away. -/

namespace SymbolAtlas.Digest

/-- The hash of the empty text. -/
def fnvOffset : UInt64 := 0xcbf29ce484222325

/-- The multiplier of a step. -/
def fnvPrime : UInt64 := 0x100000001b3

def fnv1a (bytes : List UInt8) : UInt64 :=
  bytes.foldl (fun h b => (h ^^^ b.toUInt64) * fnvPrime) fnvOffset

end SymbolAtlas.Digest
