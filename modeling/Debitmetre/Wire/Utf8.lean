import Debitmetre.Wire.Decoding
import Debitmetre.Wire.Lines

/-!
# Encoded texts

Which octets are UTF-8, and where octets that are can be cut so that they still are:
between characters, before the first octet of one.
-/

namespace Wire

open Ascii

/-- The octets of some text. -/
def IsUtf8 (octets : Bytes) : Prop := ∃ text, utf8 text = octets

/-- UTF-8 is what can be decoded. -/
theorem isSome_utf8? {octets : Bytes} : (utf8? octets).isSome = true ↔ IsUtf8 octets := by
  rw [Option.isSome_iff_exists]
  constructor
  · rintro ⟨text, decodes⟩
    exact ⟨text, utf8_of_utf8? decodes⟩
  · rintro ⟨text, rfl⟩
    exact ⟨text, utf8?_utf8 text⟩

/-- Texts are encoded one after the other. -/
theorem utf8_append (first second : String) :
    utf8 (first ++ second) = utf8 first ++ utf8 second := by
  rw [utf8_eq, utf8_eq, utf8_eq, String.toList_append, List.flatMap_append]

/-- What a text is encoded as is UTF-8. -/
theorem isUtf8_utf8 (text : String) : IsUtf8 (utf8 text) := ⟨text, rfl⟩

/-- UTF-8 can be put together. -/
theorem IsUtf8.append {first second : Bytes} (left : IsUtf8 first) (right : IsUtf8 second) :
    IsUtf8 (first ++ second) := by
  obtain ⟨text, rfl⟩ := left
  obtain ⟨text', rfl⟩ := right
  exact ⟨text ++ text', utf8_append text text'⟩

/-- ASCII is UTF-8. -/
theorem isUtf8_of_ascii {octets : Bytes} (ascii : ∀ b ∈ octets, b < 0x80) : IsUtf8 octets :=
  ⟨asciiText octets, utf8_asciiText ascii⟩

theorem isUtf8_of_all {octets : Bytes} (ascii : (octets.all fun b => b < 0x80) = true) :
    IsUtf8 octets :=
  isUtf8_of_ascii fun b member => of_decide_eq_true (List.all_eq_true.mp ascii b member)

/-- A list is UTF-8 if each of its items is. -/
theorem isUtf8_flatMap {α : Type} {items : List α} {octets : α → Bytes}
    (each : ∀ item ∈ items, IsUtf8 (octets item)) : IsUtf8 (items.flatMap octets) := by
  induction items with
  | nil => exact ⟨"", rfl⟩
  | cons item items ih =>
      obtain ⟨first, rest⟩ := List.forall_mem_cons.mp each
      rw [List.flatMap_cons]
      exact first.append (ih rest)

theorem isUtf8_utf8EncodeChar (c : Char) : IsUtf8 (String.utf8EncodeChar c) := by
  refine ⟨String.ofList [c], ?_⟩
  rw [utf8_eq, String.toList_ofList, List.flatMap_singleton]

/-- The library's notion of UTF-8 is the same. -/
theorem isUtf8_iff (octets : Bytes) :
    IsUtf8 octets ↔ ByteArray.IsValidUTF8 ⟨octets.toArray⟩ := by
  constructor
  · rintro ⟨text, rfl⟩
    exact text.isValidUTF8
  · intro valid
    exact ⟨String.ofByteArray _ valid, List.toList_toArray⟩

/-- **A text can be cut before the first octet of a character** and nowhere else. -/
theorem isUtf8_take_iff (text : String) (n : Nat) :
    IsUtf8 ((utf8 text).take n) ↔ ∀ b ∈ (utf8 text)[n]?, b.IsUTF8FirstByte := by
  by_cases inside : n < (utf8 text).length
  · have before : (⟨n⟩ : String.Pos.Raw) < text.rawEndPos := inside
    have taken : (⟨((utf8 text).take n).toArray⟩ : ByteArray) = text.toByteArray.extract 0 n := by
      apply ByteArray.ext
      rw [ByteArray.data_extract, ← Array.toList_inj, Array.toList_extract, List.toList_toArray]
      rfl
    have valid : IsUtf8 ((utf8 text).take n) ↔ String.Pos.Raw.IsValid text ⟨n⟩ := by
      rw [isUtf8_iff, taken, String.Pos.Raw.isValid_iff_isValidUTF8_extract_zero]
      exact ⟨fun valid => ⟨Nat.le_of_lt before, valid⟩, fun valid => valid.2⟩
    rw [valid, String.Pos.Raw.isValid_iff_isUTF8FirstByte, List.getElem?_eq_getElem inside]
    constructor
    · rintro (ended | ⟨_, first⟩) b same
      · exact absurd (congrArg String.Pos.Raw.byteIdx ended) (Nat.ne_of_lt inside)
      · cases same
        exact first
    · intro first
      exact .inr ⟨before, first _ rfl⟩
  · rw [List.take_of_length_le (Nat.le_of_not_lt inside),
      List.getElem?_eq_none (Nat.le_of_not_lt inside)]
    exact ⟨fun _ => nofun, fun _ => isUtf8_utf8 text⟩

theorem high_or {x y : UInt8} (high : 0x80 ≤ y) : 0x80 ≤ x ||| y := by
  rw [UInt8.le_iff_toNat_le] at high ⊢
  rw [UInt8.toNat_or]
  exact Nat.le_trans high Nat.right_le_or

/-- An octet of ASCII is a character of its own. -/
theorem utf8EncodeChar_of_mem {c : Char} {b : UInt8} (member : b ∈ String.utf8EncodeChar c)
    (ascii : b < 0x80) : String.utf8EncodeChar c = [b] := by
  have low : ∀ x y : UInt8, 0x80 ≤ y → b ≠ x ||| y := by
    rintro x y high rfl
    exact UInt8.not_le.mpr ascii (high_or high)
  match size : c.utf8Size, c.utf8Size_pos, c.utf8Size_le_four with
  | 1, _, _ =>
      rw [String.utf8EncodeChar_eq_singleton size] at member ⊢
      rw [List.mem_singleton.mp member]
  | 2, _, _ =>
      simp only [String.utf8EncodeChar_eq_cons_cons size, List.mem_cons, List.not_mem_nil,
        or_false] at member
      rcases member with same | same <;> exact absurd same (low _ _ (by decide))
  | 3, _, _ =>
      simp only [String.utf8EncodeChar_eq_cons_cons_cons size, List.mem_cons, List.not_mem_nil,
        or_false] at member
      rcases member with same | same | same <;> exact absurd same (low _ _ (by decide))
  | 4, _, _ =>
      simp only [String.utf8EncodeChar_eq_cons_cons_cons_cons size, List.mem_cons,
        List.not_mem_nil, or_false] at member
      rcases member with same | same | same | same <;> exact absurd same (low _ _ (by decide))

/-- Characters are told apart by their octets. -/
theorem utf8EncodeChar_inj {c c' : Char}
    (same : String.utf8EncodeChar c = String.utf8EncodeChar c') : c = c' := by
  have texts : utf8 (String.ofList [c]) = utf8 (String.ofList [c']) := by
    rw [utf8_eq, utf8_eq, String.toList_ofList, String.toList_ofList, List.flatMap_singleton,
      List.flatMap_singleton, same]
  have decoded := congrArg utf8? texts
  rw [utf8?_utf8, utf8?_utf8, Option.some.injEq, ← String.toList_inj, String.toList_ofList,
    String.toList_ofList, List.singleton_inj] at decoded
  exact decoded

/-- A newline is in the octets of no other character. -/
theorem lf_mem_utf8EncodeChar {c : Char} : lf ∈ String.utf8EncodeChar c ↔ c = '\n' := by
  constructor
  · intro member
    apply utf8EncodeChar_inj
    rw [utf8EncodeChar_of_mem member (by decide)]
    rfl
  · rintro rfl
    decide

theorem utf8EncodeChar_ne_nil (c : Char) : String.utf8EncodeChar c ≠ [] := by
  apply List.ne_nil_of_length_pos
  rw [String.length_utf8EncodeChar]
  exact c.utf8Size_pos

theorem eq_nil_of_utf8 {text : List Char} (none : text.flatMap String.utf8EncodeChar = []) :
    text = [] := by
  cases text with
  | nil => rfl
  | cons c text =>
      rw [List.flatMap_cons, List.append_eq_nil_iff] at none
      exact absurd none.1 (utf8EncodeChar_ne_nil c)

/-- A text is encoded character by character. -/
theorem utf8_ofList (text : List Char) :
    utf8 (String.ofList text) = text.flatMap String.utf8EncodeChar := by
  rw [utf8_eq, String.toList_ofList]

/-- The first character of a text whose first octet is one of ASCII. -/
theorem head?_of_utf8 {text : List Char} {b : UInt8} (ascii : b < 0x80)
    (starts : (text.flatMap String.utf8EncodeChar).head? = some b) :
    text.head? = some (Char.ofUInt8 b) := by
  cases text with
  | nil => cases starts
  | cons c text =>
      rw [List.flatMap_cons, List.head?_append_of_ne_nil _ (utf8EncodeChar_ne_nil c)] at starts
      rw [List.head?_cons, Option.some.injEq]
      apply utf8EncodeChar_inj
      rw [utf8EncodeChar_of_mem (List.mem_of_head? starts) ascii, utf8EncodeChar_ofUInt8 ascii]

/-- The last character of a text whose last octet is one of ASCII. -/
theorem getLast?_of_utf8 {text : List Char} {b : UInt8} (ascii : b < 0x80)
    (ends : (text.flatMap String.utf8EncodeChar).getLast? = some b) :
    text.getLast? = some (Char.ofUInt8 b) := by
  rcases List.eq_nil_or_concat text with rfl | ⟨init, c, rfl⟩
  · cases ends
  · rw [List.concat_eq_append, List.flatMap_append, List.flatMap_singleton,
      List.getLast?_append_of_ne_nil _ (utf8EncodeChar_ne_nil c)] at ends
    rw [List.concat_eq_append, List.getLast?_concat, Option.some.injEq]
    apply utf8EncodeChar_inj
    rw [utf8EncodeChar_of_mem (List.mem_of_getLast? ends) ascii, utf8EncodeChar_ofUInt8 ascii]

/-- The lines of a text are the texts of its lines. -/
theorem splitOn_utf8 (text : List Char) :
    (text.flatMap String.utf8EncodeChar).splitOn lf =
      (text.splitOn '\n').map (·.flatMap String.utf8EncodeChar) := by
  induction text with
  | nil => rfl
  | cons c text ih =>
      rw [List.flatMap_cons, List.splitOn_cons_eq_if_modifyHead]
      by_cases newline : c = '\n'
      · subst newline
        rw [if_pos (beq_self_eq_true '\n'), List.map_cons, ← ih]
        exact List.splitOn_append_cons_self [] _
      · rw [if_neg fun same => newline (eq_of_beq same),
          splitOn_append_of_notMem fun member => newline (lf_mem_utf8EncodeChar.mp member), ih]
        cases text.splitOn '\n' <;> rfl

end Wire
