import SymbolAtlas.Text.Ranges

set_option autoImplicit false

/-! # Lower case

The simple lower-case mapping takes one character to one character, whatever stands around it. -/

namespace SymbolAtlas.Text

/-- How the characters of a range are lowered: the code point that the range's first character maps
to, and the distance between the range's members. -/
structure Lowering where
  target : Nat
  step : Nat

/-- Reads a range: `C0-D6>E0` maps every code point from C0 on, `100/12E>101` every second one. -/
def Lowering.entry? (word : List Char) : Option (Nat × Nat × Lowering) :=
  match word.splitOn '>' with
  | [range, target] => do
    let target ← Hex.number? target
    match range.splitOn '/' with
    | [first, last] => return (← Hex.number? first, ← Hex.number? last, ⟨target, 2⟩)
    | _ =>
      let (first, last) ← Ranges.bounds? range
      return (first, last, ⟨target, 1⟩)
  | _ => none

def loweringRanges : Ranges (Nat × Lowering) where
  entries := ((Ranges.words "
C0-D6>E0 D8-DE>F8 100/12E>101 130>69 132/136>133 139/147>13A 14A/176>14B 178>FF 179/17D>17A
181>253 182/184>183 186>254 187>188 189-18A>256 18B>18C 18E>1DD 18F>259 190>25B 191>192
193>260 194>263 196>269 197>268 198>199 19C>26F 19D>272 19F>275 1A0/1A4>1A1 1A6>280 1A7>1A8
1A9>283 1AC>1AD 1AE>288 1AF>1B0 1B1-1B2>28A 1B3/1B5>1B4 1B7>292 1B8>1B9 1BC>1BD 1C4>1C6
1C5>1C6 1C7>1C9 1C8>1C9 1CA>1CC 1CB/1DB>1CC 1DE/1EE>1DF 1F1>1F3 1F2/1F4>1F3 1F6>195 1F7>1BF
1F8/21E>1F9 220>19E 222/232>223 23A>2C65 23B>23C 23D>19A 23E>2C66 241>242 243>180 244>289
245>28C 246/24E>247 370/372>371 376>377 37F>3F3 386>3AC 388-38A>3AD 38C>3CC 38E-38F>3CD
391-3A1>3B1 3A3-3AB>3C3 3CF>3D7 3D8/3EE>3D9 3F4>3B8 3F7>3F8 3F9>3F2 3FA>3FB 3FD-3FF>37B
400-40F>450 410-42F>430 460/480>461 48A/4BE>48B 4C0>4CF 4C1/4CD>4C2 4D0/52E>4D1 531-556>561
10A0-10C5>2D00 10C7>2D27 10CD>2D2D 13A0-13EF>AB70 13F0-13F5>13F8 1C89>1C8A 1C90-1CBA>10D0
1CBD-1CBF>10FD 1E00/1E94>1E01 1E9E>DF 1EA0/1EFE>1EA1 1F08-1F0F>1F00 1F18-1F1D>1F10
1F28-1F2F>1F20 1F38-1F3F>1F30 1F48-1F4D>1F40 1F59/1F5F>1F51 1F68-1F6F>1F60 1F88-1F8F>1F80
1F98-1F9F>1F90 1FA8-1FAF>1FA0 1FB8-1FB9>1FB0 1FBA-1FBB>1F70 1FBC>1FB3 1FC8-1FCB>1F72 1FCC>1FC3
1FD8-1FD9>1FD0 1FDA-1FDB>1F76 1FE8-1FE9>1FE0 1FEA-1FEB>1F7A 1FEC>1FE5 1FF8-1FF9>1F78
1FFA-1FFB>1F7C 1FFC>1FF3 2126>3C9 212A>6B 212B>E5 2132>214E 2160-216F>2170 2183>2184
24B6-24CF>24D0 2C00-2C2F>2C30 2C60>2C61 2C62>26B 2C63>1D7D 2C64>27D 2C67/2C6B>2C68 2C6D>251
2C6E>271 2C6F>250 2C70>252 2C72>2C73 2C75>2C76 2C7E-2C7F>23F 2C80/2CE2>2C81 2CEB/2CED>2CEC
2CF2>2CF3 A640/A66C>A641 A680/A69A>A681 A722/A72E>A723 A732/A76E>A733 A779/A77B>A77A A77D>1D79
A77E/A786>A77F A78B>A78C A78D>265 A790/A792>A791 A796/A7A8>A797 A7AA>266 A7AB>25C A7AC>261
A7AD>26C A7AE>26A A7B0>29E A7B1>287 A7B2>29D A7B3>AB53 A7B4/A7C2>A7B5 A7C4>A794 A7C5>282
A7C6>1D8E A7C7/A7C9>A7C8 A7CB>264 A7CC/A7DA>A7CD A7DC>19B A7F5>A7F6 FF21-FF3A>FF41
10400-10427>10428 104B0-104D3>104D8 10570-1057A>10597 1057C-1058A>105A3 1058C-10592>105B3
10594-10595>105BB 10C80-10CB2>10CC0 10D50-10D65>10D70 118A0-118BF>118C0 16E40-16E5F>16E60
16EA0-16EB8>16EBB 1E900-1E921>1E922").filterMap fun w =>
    (Lowering.entry? w).map fun (a, b, l) => (a, b, a, l)).toArray

/-- The lower case of a character, itself if it has none. -/
def lowerChar (c : Char) : Char :=
  if c.toNat < 0x80 then c.toLower
  else
    match loweringRanges.find? c.toNat with
    | none => c
    | some (first, l) =>
      let offset := c.toNat - first
      if offset % l.step == 0 then Char.ofNat (l.target + offset) else c

def lower (s : String) : String :=
  s.map lowerChar

end SymbolAtlas.Text
