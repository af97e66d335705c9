import Debitmetre.Wire.Ascii

/-!
# Texts that are cut off

A cut may go through the encoding of a character.  What can be decoded of the
octets before it is the longest first part that is UTF-8; of two texts that
octets start with, one starts with the other.
-/

namespace Wire

/-- The longest text of at most so many octets that some octets start with. -/
def decodedUpTo (octets : Bytes) : Nat → String
  | 0 => ""
  | n + 1 => (utf8? (octets.take (n + 1))).getD (decodedUpTo octets n)

/-- The longest text that some octets start with. -/
def decoded (octets : Bytes) : String := decodedUpTo octets octets.length

theorem utf8_of_utf8? {octets : Bytes} {text : String} (decodes : utf8? octets = some text) :
    utf8 text = octets := by
  unfold utf8? String.fromUTF8? at decodes
  split at decodes
  · cases decodes
    rfl
  · cases decodes

/-- A text starts with another one if its octets do. -/
theorem utf8_prefix_iff {first text : String} :
    utf8 first <+: utf8 text ↔ first.toList <+: text.toList := by
  constructor
  · rintro ⟨rest, joined⟩
    apply List.isPrefix_of_utf8Encode_append_eq_utf8Encode ⟨rest.toArray⟩
    rw [String.utf8Encode_toList, String.utf8Encode_toList]
    apply ByteArray.ext
    rw [ByteArray.data_append, ← Array.toList_inj, Array.toList_append]
    exact joined
  · rintro ⟨rest, joined⟩
    rw [utf8_eq, utf8_eq, ← joined, List.flatMap_append]
    exact List.prefix_append _ _

theorem decodedUpTo_starts (octets : Bytes) (n : Nat) : utf8 (decodedUpTo octets n) <+: octets := by
  induction n with
  | zero => exact List.nil_prefix
  | succ n ih =>
      rw [decodedUpTo]
      cases decodes : utf8? (octets.take (n + 1)) with
      | none => exact ih
      | some text =>
          rw [Option.getD_some, utf8_of_utf8? decodes]
          exact List.take_prefix _ _

theorem le_decodedUpTo {octets : Bytes} {text : String} (starts : utf8 text <+: octets) (n : Nat)
    (short : (utf8 text).length ≤ n) :
    (utf8 text).length ≤ (utf8 (decodedUpTo octets n)).length := by
  induction n with
  | zero => exact Nat.le_trans short (Nat.zero_le _)
  | succ n ih =>
      rw [decodedUpTo]
      cases decodes : utf8? (octets.take (n + 1)) with
      | some longer =>
          rw [Option.getD_some, utf8_of_utf8? decodes, List.length_take]
          exact Nat.le_min.mpr ⟨short, starts.length_le⟩
      | none =>
          apply ih
          by_contra long
          have whole : octets.take (n + 1) = utf8 text := by
            rw [List.prefix_iff_eq_take.mp starts]
            exact congrArg octets.take (by omega)
          rw [whole, utf8?_utf8] at decodes
          cases decodes

/-- What octets start with can be decoded. -/
theorem decoded_starts (octets : Bytes) : utf8 (decoded octets) <+: octets :=
  decodedUpTo_starts octets octets.length

/-- What octets start with is not longer than what is decoded. -/
theorem prefix_decoded {octets : Bytes} {text : String} (starts : utf8 text <+: octets) :
    text.toList <+: (decoded octets).toList := by
  apply utf8_prefix_iff.mp
  apply List.prefix_of_prefix_length_le starts (decoded_starts octets)
  exact le_decodedUpTo starts octets.length starts.length_le

/-- A whole text is decoded. -/
@[simp] theorem decoded_utf8 (text : String) : decoded (utf8 text) = text := by
  apply String.toList_inj.mp
  apply List.IsPrefix.eq_of_length_le
  · exact utf8_prefix_iff.mp (decoded_starts (utf8 text))
  · exact (prefix_decoded (List.prefix_refl _)).length_le

/-- What is decoded before a cut starts what is decoded without it. -/
theorem decoded_starts_of_cut {octets : Bytes} {text : String} (cut : octets <+: utf8 text) :
    (decoded octets).toList <+: text.toList :=
  utf8_prefix_iff.mp ((decoded_starts octets).trans cut)

/-- The text of octets in the range of ASCII. -/
def asciiText (octets : Bytes) : String := String.ofList (octets.map Char.ofUInt8)

theorem utf8EncodeChar_ofUInt8 {b : UInt8} (ascii : b < 0x80) :
    String.utf8EncodeChar (Char.ofUInt8 b) = [b] := by
  have small : (Char.ofUInt8 b).val ≤ 127 := by
    rw [UInt32.le_iff_toNat_le]
    exact Nat.le_of_lt_succ (UInt8.lt_iff_toNat_lt.mp ascii)
  rw [String.utf8EncodeChar_eq_singleton (Char.utf8Size_eq_one_iff.mpr small)]
  exact congrArg (List.cons · []) (UInt8.toUInt8_toUInt32 b)

theorem utf8_asciiText {octets : Bytes} (ascii : ∀ b ∈ octets, b < 0x80) :
    utf8 (asciiText octets) = octets := by
  rw [utf8_eq, asciiText, String.toList_ofList, List.flatMap_map]
  induction octets with
  | nil => rfl
  | cons b octets ih =>
      obtain ⟨first, rest⟩ := List.forall_mem_cons.mp ascii
      rw [List.flatMap_cons, utf8EncodeChar_ofUInt8 first, ih rest]
      rfl

end Wire
