import Mathlib.Data.List.Basic

/-!
# Octets

Texts on the wire are lists of octets.  The octets that some grammar of this
development gives a meaning to are named here, so that the grammars read as
their specifications do.
-/

namespace Wire

/-- A text as it is sent or stored. -/
abbrev Bytes := List UInt8

namespace Ascii

@[match_pattern] abbrev tab : UInt8 := 0x09
@[match_pattern] abbrev lf : UInt8 := 0x0A
@[match_pattern] abbrev cr : UInt8 := 0x0D
@[match_pattern] abbrev space : UInt8 := 0x20
@[match_pattern] abbrev quote : UInt8 := 0x22
@[match_pattern] abbrev plus : UInt8 := 0x2B
@[match_pattern] abbrev comma : UInt8 := 0x2C
@[match_pattern] abbrev minus : UInt8 := 0x2D
@[match_pattern] abbrev dot : UInt8 := 0x2E
@[match_pattern] abbrev slash : UInt8 := 0x2F
@[match_pattern] abbrev zero : UInt8 := 0x30
@[match_pattern] abbrev colon : UInt8 := 0x3A
@[match_pattern] abbrev lbracket : UInt8 := 0x5B
@[match_pattern] abbrev backslash : UInt8 := 0x5C
@[match_pattern] abbrev rbracket : UInt8 := 0x5D
@[match_pattern] abbrev lbrace : UInt8 := 0x7B
@[match_pattern] abbrev rbrace : UInt8 := 0x7D

/-- `0` to `9`. -/
def isDigit (b : UInt8) : Bool := 0x30 ≤ b && b ≤ 0x39

/-- `0` to `9`, `A` to `F`, `a` to `f`. -/
def isHex (b : UInt8) : Bool :=
  isDigit b || (0x41 ≤ b && b ≤ 0x46) || (0x61 ≤ b && b ≤ 0x66)

/-- The number a hexadecimal digit stands for; zero for any other octet. -/
def hexValue (b : UInt8) : Nat :=
  if isDigit b then b.toNat - 0x30
  else if 0x41 ≤ b ∧ b ≤ 0x46 then b.toNat - 0x37
  else if 0x61 ≤ b ∧ b ≤ 0x66 then b.toNat - 0x57
  else 0

end Ascii

/-- The octets of a string in UTF-8. -/
def utf8 (s : String) : Bytes := s.toByteArray.data.toList

/-- The string an octet sequence is the UTF-8 encoding of, if it is one. -/
def utf8? (bs : Bytes) : Option String := String.fromUTF8? ⟨bs.toArray⟩

@[simp] theorem utf8?_utf8 (s : String) : utf8? (utf8 s) = some s := by
  have valid : ByteArray.IsValidUTF8 ⟨(utf8 s).toArray⟩ := by
    simpa only [utf8, Array.toArray_toList] using s.isValidUTF8
  simp only [utf8?, String.fromUTF8?, valid, ↓reduceDIte]
  rfl

/-- A string is encoded character by character. -/
theorem utf8_eq (s : String) : utf8 s = s.toList.flatMap String.utf8EncodeChar := by
  rw [utf8, ← String.utf8Encode_toList, List.utf8Encode, List.data_toByteArray, List.toList_toArray]

end Wire
