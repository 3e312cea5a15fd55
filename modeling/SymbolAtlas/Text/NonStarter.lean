import SymbolAtlas.Text.Ranges

set_option autoImplicit false

/-! # Non-starters of a character

How many marks a character begins and ends with once it is taken apart. The counts bound how long a
run of marks may grow before a joiner breaks it. -/

namespace SymbolAtlas.Text

/-- The number of marks at the start and at the end of a character's parts. -/
structure MarkCount where
  leading : Nat
  trailing : Nat
  deriving DecidableEq, Repr

/-- Two digits: the marks at the start, the marks at the end. -/
def MarkCount.label? : List Char → Option MarkCount
  | [a, b] => do return ⟨← Hex.digit? a, ← Hex.digit? b⟩
  | _ => none

/-- Characters with marks at either end. -/
def markRanges : Ranges MarkCount := .ofLabelled MarkCount.label? "
A8:01 AF:01 B4:01 B8:01 C0-C5:01 C7-CF:01 D1-D6:01 D9-DD:01 E0-E5:01 E7-EF:01 F1-F6:01
F9-FD:01 FF-10F:01 112-125:01 128-130:01 134-137:01 139-13E:01 143-148:01 14C-151:01
154-165:01 168-17E:01 1A0-1A1:01 1AF-1B0:01 1C4-1C6:01 1CD-1D4:01 1D5-1DC:02 1DE-1E1:02
1E2-1E3:01 1E6-1EB:01 1EC-1ED:02 1EE-1F0:01 1F4-1F5:01 1F8-1F9:01 1FA-1FB:02 1FC-21B:01
21E-21F:01 226-229:01 22A-22D:02 22E-22F:01 230-231:02 232-233:01 2D8-2DD:01 300-343:11 344:22
345-34E:11 350-36F:11 37A:01 384:01 385:02 386:01 388-38A:01 38C:01 38E-38F:01 390:02
3AA-3AF:01 3B0:02 3CA-3CE:01 3D3-3D4:01 400-401:01 403:01 407:01 40C-40E:01 419:01 439:01
450-451:01 453:01 457:01 45C-45E:01 476-477:01 483-487:11 4C1-4C2:01 4D0-4D3:01 4D6-4D7:01
4DA-4DF:01 4E2-4E7:01 4EA-4F5:01 4F8-4F9:01 591-5BD:11 5BF:11 5C1-5C2:11 5C4-5C5:11 5C7:11
610-61A:11 622-626:01 64B-65F:11 670:11 6C0:01 6C2:01 6D3:01 6D6-6DC:11 6DF-6E4:11 6E7-6E8:11
6EA-6ED:11 711:11 730-74A:11 7EB-7F3:11 7FD:11 816-819:11 81B-823:11 825-827:11 829-82D:11
859-85B:11 898-89F:11 8CA-8E1:11 8E3-8FF:11 929:01 931:01 934:01 93C:11 94D:11 951-954:11
958-95F:01 9BC:11 9BE:11 9CB-9CC:01 9CD:11 9D7:11 9DC-9DD:01 9DF:01 9FE:11 A33:01 A36:01
A3C:11 A4D:11 A59-A5B:01 A5E:01 ABC:11 ACD:11 B3C:11 B3E:11 B48:01 B4B-B4C:01 B4D:11
B56-B57:11 B5C-B5D:01 B94:01 BBE:11 BCA-BCC:01 BCD:11 BD7:11 C3C:11 C48:01 C4D:11 C55-C56:11
CBC:11 CC0:01 CC2:11 CC7-CC8:01 CCA:01 CCB:02 CCD:11 CD5-CD6:11 D3B-D3C:11 D3E:11 D4A-D4C:01
D4D:11 D57:11 DCA:11 DCF:11 DDA:01 DDC:01 DDD:02 DDE:01 DDF:11 E38-E3A:11 E48-E4B:11
EB8-EBA:11 EC8-ECB:11 F18-F19:11 F35:11 F37:11 F39:11 F71-F72:11 F73:22 F74:11 F75:22 F76:01
F77:02 F78:01 F79:02 F7A-F7D:11 F80:11 F81:22 F82-F84:11 F86-F87:11 FC6:11 1026:01 102E:11
1037:11 1039-103A:11 108D:11 1161-1175:11 11A8-11C2:11 135D-135F:11 1714-1715:11 1734:11
17D2:11 17DD:11 18A9:11 1939-193B:11 1A17-1A18:11 1A60:11 1A75-1A7C:11 1A7F:11 1AB0-1ABD:11
1ABF-1ACE:11 1B06:01 1B08:01 1B0A:01 1B0C:01 1B0E:01 1B12:01 1B34-1B35:11 1B3B:01 1B3D:01
1B40-1B41:01 1B43:01 1B44:11 1B6B-1B73:11 1BAA-1BAB:11 1BE6:11 1BF2-1BF3:11 1C37:11
1CD0-1CD2:11 1CD4-1CE0:11 1CE2-1CE8:11 1CED:11 1CF4:11 1CF8-1CF9:11 1DC0-1DFF:11 1E00-1E07:01
1E08-1E09:02 1E0A-1E13:01 1E14-1E17:02 1E18-1E1B:01 1E1C-1E1D:02 1E1E-1E2D:01 1E2E-1E2F:02
1E30-1E37:01 1E38-1E39:02 1E3A-1E4B:01 1E4C-1E53:02 1E54-1E5B:01 1E5C-1E5D:02 1E5E-1E63:01
1E64-1E69:02 1E6A-1E77:01 1E78-1E7B:02 1E7C-1E99:01 1E9B:01 1EA0-1EA3:01 1EA4-1EB7:02
1EB8-1EBD:01 1EBE-1EC7:02 1EC8-1ECF:01 1ED0-1EE3:02 1EE4-1EE7:01 1EE8-1EF1:02 1EF2-1EF9:01
1F00-1F01:01 1F02-1F07:02 1F08-1F09:01 1F0A-1F0F:02 1F10-1F11:01 1F12-1F15:02 1F18-1F19:01
1F1A-1F1D:02 1F20-1F21:01 1F22-1F27:02 1F28-1F29:01 1F2A-1F2F:02 1F30-1F31:01 1F32-1F37:02
1F38-1F39:01 1F3A-1F3F:02 1F40-1F41:01 1F42-1F45:02 1F48-1F49:01 1F4A-1F4D:02 1F50-1F51:01
1F52-1F57:02 1F59:01 1F5B:02 1F5D:02 1F5F:02 1F60-1F61:01 1F62-1F67:02 1F68-1F69:01
1F6A-1F6F:02 1F70-1F7D:01 1F80-1F81:02 1F82-1F87:03 1F88-1F89:02 1F8A-1F8F:03 1F90-1F91:02
1F92-1F97:03 1F98-1F99:02 1F9A-1F9F:03 1FA0-1FA1:02 1FA2-1FA7:03 1FA8-1FA9:02 1FAA-1FAF:03
1FB0-1FB1:01 1FB2:02 1FB3:01 1FB4:02 1FB6:01 1FB7:02 1FB8-1FBD:01 1FBF-1FC0:01 1FC1-1FC2:02
1FC3:01 1FC4:02 1FC6:01 1FC7:02 1FC8-1FCC:01 1FCD-1FCF:02 1FD0-1FD1:01 1FD2-1FD3:02 1FD6:01
1FD7:02 1FD8-1FDB:01 1FDD-1FDF:02 1FE0-1FE1:01 1FE2-1FE3:02 1FE4-1FE6:01 1FE7:02 1FE8-1FEC:01
1FED-1FEE:02 1FF2:02 1FF3:01 1FF4:02 1FF6:01 1FF7:02 1FF8-1FFE:01 2017:01 203E:01 20D0-20DC:11
20E1:11 20E5-20F0:11 212B:01 219A-219B:01 21AE:01 21CD-21CF:01 2204:01 2209:01 220C:01 2224:01
2226:01 2241:01 2244:01 2247:01 2249:01 2260:01 2262:01 226D-2271:01 2274-2275:01 2278-2279:01
2280-2281:01 2284-2285:01 2288-2289:01 22AC-22AF:01 22E0-22E3:01 22EA-22ED:01 2ADC:01
2CEF-2CF1:11 2D7F:11 2DE0-2DFF:11 302A-302F:11 304C:01 304E:01 3050:01 3052:01 3054:01 3056:01
3058:01 305A:01 305C:01 305E:01 3060:01 3062:01 3065:01 3067:01 3069:01 3070-3071:01
3073-3074:01 3076-3077:01 3079-307A:01 307C-307D:01 3094:01 3099-309A:11 309B-309C:01 309E:01
30AC:01 30AE:01 30B0:01 30B2:01 30B4:01 30B6:01 30B8:01 30BA:01 30BC:01 30BE:01 30C0:01
30C2:01 30C5:01 30C7:01 30C9:01 30D0-30D1:01 30D3-30D4:01 30D6-30D7:01 30D9-30DA:01
30DC-30DD:01 30F4:01 30F7-30FA:01 30FE:01 3133:11 3135-3136:11 313A-313F:11 314F-3163:11
326E-327E:01 3304:01 3307:01 3310:01 331E:01 3321:01 3332:01 333B:01 3340:01 334B:01 334E:01
A66F:11 A674-A67D:11 A69E-A69F:11 A6F0-A6F1:11 A806:11 A82C:11 A8C4:11 A8E0-A8F1:11
A92B-A92D:11 A953:11 A9B3:11 A9C0:11 AAB0:11 AAB2-AAB4:11 AAB7-AAB8:11 AABE-AABF:11 AAC1:11
AAF6:11 ABED:11 FB1D:01 FB1E:11 FB1F:01 FB2A-FB2B:01 FB2C-FB2D:02 FB2E-FB36:01 FB38-FB3C:01
FB3E:01 FB40-FB41:01 FB43-FB44:01 FB46-FB4E:01 FBA4-FBA5:01 FBB0-FBB1:01 FC5B-FC5D:01
FC5E-FC63:02 FC90:01 FCD9:01 FCF2-FCF4:02 FD3C-FD3D:01 FE20-FE2F:11 FE49-FE4C:01 FE70-FE72:01
FE74:01 FE76-FE7F:01 FE81-FE8C:01 FEF5-FEFA:01 FF9E-FF9F:11 FFA3:11 FFA5-FFA6:11 FFAA-FFAF:11
FFC2-FFC7:11 FFCA-FFCF:11 FFD2-FFD7:11 FFDA-FFDC:11 FFE3:01 101FD:11 102E0:11 10376-1037A:11
10A0D:11 10A0F:11 10A38-10A3A:11 10A3F:11 10AE5-10AE6:11 10D24-10D27:11 10EAB-10EAC:11
10EFD-10EFF:11 10F46-10F50:11 10F82-10F85:11 11046:11 11070:11 1107F:11 1109A:01 1109C:01
110AB:01 110B9-110BA:11 11100-11102:11 11127:11 1112E-1112F:01 11133-11134:11 11173:11
111C0:11 111CA:11 11235-11236:11 112E9-112EA:11 1133B-1133C:11 1133E:11 1134B-1134C:01
1134D:11 11357:11 11366-1136C:11 11370-11374:11 11442:11 11446:11 1145E:11 114B0:11 114BA:11
114BB-114BC:01 114BD:11 114BE:01 114C2-114C3:11 115AF:11 115BA-115BB:01 115BF-115C0:11
1163F:11 116B6-116B7:11 1172B:11 11839-1183A:11 11930:11 11938:01 1193D-1193E:11 11943:11
119E0:11 11A34:11 11A47:11 11A99:11 11C3F:11 11D42:11 11D44-11D45:11 11D97:11 11F41-11F42:11
16AF0-16AF4:11 16B30-16B36:11 16FF0-16FF1:11 1BC9E:11 1D15E-1D15F:01 1D160-1D164:02
1D165-1D169:11 1D16D-1D172:11 1D17B-1D182:11 1D185-1D18B:11 1D1AA-1D1AD:11 1D1BB-1D1BC:01
1D1BD-1D1C0:02 1D242-1D244:11 1E000-1E006:11 1E008-1E018:11 1E01B-1E021:11 1E023-1E024:11
1E026-1E02A:11 1E08F:11 1E130-1E136:11 1E2AE:11 1E2EC-1E2EF:11 1E4EC-1E4EF:11 1E8D0-1E8D6:11
1E944-1E94A:11 1F213:01"

/-- The marks at the ends of a character. A Hangul syllable ends with its vowel and its final. -/
def markCount (c : Char) : MarkCount :=
  let n := c.toNat
  if n < 0xA0 then ⟨0, 0⟩
  else if 0xAC00 ≤ n && n ≤ 0xD7A3 then ⟨0, if (n - 0xAC00) % 28 = 0 then 1 else 2⟩
  else (markRanges.find? n).getD ⟨0, 0⟩

end SymbolAtlas.Text
