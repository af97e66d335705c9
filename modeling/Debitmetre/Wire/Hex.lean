import Debitmetre.Wire.Decoding

/-!
# Hexadecimal texts

Octets written with two digits in lower case each.  The texts of so many digits are
those of half as many octets.
-/

namespace Wire

open Ascii

/-- `0` to `9`, `a` to `f`. -/
def Ascii.isLowerHex (b : UInt8) : Bool := isDigit b || (0x61 ≤ b && b ≤ 0x66)

namespace Hex

/-- The digit of a number below sixteen. -/
def digit (n : Nat) : UInt8 := (utf8 "0123456789abcdef").getD n zero

/-- The digits of some octets. -/
def digits (octets : Bytes) : Bytes :=
  octets.flatMap fun b => [digit (b.toNat / 16), digit (b.toNat % 16)]

/-- `hex::encode`. -/
def encode (octets : Bytes) : String := asciiText (digits octets)

theorem isLowerHex_digit {n : Nat} (small : n < 16) : isLowerHex (digit n) = true := by
  have every : (List.range 16).all (fun n => isLowerHex (digit n)) = true := rfl
  exact List.all_eq_true.mp every n (List.mem_range.mpr small)

/-- Every digit is that of its value. -/
theorem digit_hexValue {b : UInt8} (lower : isLowerHex b = true) :
    hexValue b < 16 ∧ digit (hexValue b) = b := by
  have every : (List.range 256).all (fun n =>
      !isLowerHex (UInt8.ofNat n) || decide (hexValue (UInt8.ofNat n) < 16) &&
        digit (hexValue (UInt8.ofNat n)) == UInt8.ofNat n) = true := by decide +kernel
  have own := List.all_eq_true.mp every b.toNat (List.mem_range.mpr b.toNat_lt)
  rw [UInt8.ofNat_toNat, lower, Bool.not_true, Bool.false_or, Bool.and_eq_true,
    decide_eq_true_eq, beq_iff_eq] at own
  exact own

theorem ascii_of_isLowerHex {b : UInt8} (lower : isLowerHex b = true) : b < 0x80 := by
  simp only [isLowerHex, isDigit, Bool.or_eq_true, Bool.and_eq_true, decide_eq_true_eq,
    UInt8.le_iff_toNat_le, UInt8.lt_iff_toNat_lt] at lower ⊢
  rcases lower with ⟨-, below⟩ | ⟨-, below⟩
  · exact Nat.lt_of_le_of_lt below (by decide)
  · exact Nat.lt_of_le_of_lt below (by decide)

theorem length_digits (octets : Bytes) : (digits octets).length = 2 * octets.length := by
  induction octets with
  | nil => rfl
  | cons b octets ih =>
      have rest : (digits (b :: octets)).length = (digits octets).length + 2 := rfl
      rw [rest, ih, List.length_cons, Nat.mul_succ]

theorem isLowerHex_of_mem_digits {octets : Bytes} {b : UInt8} (member : b ∈ digits octets) :
    isLowerHex b = true := by
  obtain ⟨octet, -, member⟩ := List.mem_flatMap.mp member
  have small : octet.toNat / 16 < 16 := Nat.div_lt_of_lt_mul octet.toNat_lt
  rcases List.mem_cons.mp member with rfl | member
  · exact isLowerHex_digit small
  · rw [List.mem_singleton.mp member]
    exact isLowerHex_digit (Nat.mod_lt _ (by decide))

@[simp] theorem utf8_encode (octets : Bytes) : utf8 (encode octets) = digits octets :=
  utf8_asciiText fun _ member => ascii_of_isLowerHex (isLowerHex_of_mem_digits member)

/-- Digits are those of some octets if there are two for each. -/
theorem exists_digits {text : Bytes} (lower : text.all isLowerHex = true) (n : Nat)
    (length : text.length = 2 * n) : ∃ octets, octets.length = n ∧ digits octets = text := by
  induction n generalizing text with
  | zero => exact ⟨[], rfl, (List.length_eq_zero_iff.mp length).symm⟩
  | succ n ih =>
      obtain ⟨high, low, rest, rfl⟩ : ∃ high low rest, text = high :: low :: rest := by
        match text, length with
        | high :: low :: rest, _ => exact ⟨high, low, rest, rfl⟩
      rw [List.all_cons, List.all_cons, Bool.and_eq_true, Bool.and_eq_true] at lower
      obtain ⟨highSmall, highDigit⟩ := digit_hexValue lower.1
      obtain ⟨lowSmall, lowDigit⟩ := digit_hexValue lower.2.1
      obtain ⟨octets, halved, read⟩ := ih lower.2.2 (by simpa [Nat.mul_succ] using length)
      refine ⟨UInt8.ofNat (hexValue high * 16 + hexValue low) :: octets, by rw [← halved]; rfl, ?_⟩
      have value : (UInt8.ofNat (hexValue high * 16 + hexValue low)).toNat =
          hexValue high * 16 + hexValue low := UInt8.toNat_ofNat_of_lt' (by
        change _ < 256
        omega)
      have first : (hexValue high * 16 + hexValue low) / 16 = hexValue high := by omega
      have second : (hexValue high * 16 + hexValue low) % 16 = hexValue low := by omega
      rw [digits, List.flatMap_cons, value, first, second, highDigit, lowDigit]
      exact congrArg (high :: low :: ·) read

/-- **The texts of digits in lower case are the encodings**, two digits for each
octet. -/
theorem exists_encode_iff {text : String} (n : Nat) :
    (∃ octets, octets.length = n ∧ encode octets = text) ↔
      (utf8 text).length = 2 * n ∧ (utf8 text).all isLowerHex = true := by
  constructor
  · rintro ⟨octets, rfl, rfl⟩
    rw [utf8_encode, length_digits]
    exact ⟨rfl, List.all_eq_true.mpr fun _ => isLowerHex_of_mem_digits⟩
  · rintro ⟨length, lower⟩
    obtain ⟨octets, halved, read⟩ := exists_digits lower n length
    refine ⟨octets, halved, ?_⟩
    have same : utf8? (utf8 (encode octets)) = utf8? (utf8 text) := by rw [utf8_encode, read]
    rw [utf8?_utf8, utf8?_utf8] at same
    exact Option.some.inj same

end Hex

end Wire
