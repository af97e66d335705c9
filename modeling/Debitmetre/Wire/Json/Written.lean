import Debitmetre.Wire.Json.Derive
import Debitmetre.Wire.Json.RoundTrip
import Debitmetre.Wire.Json.Value
import Debitmetre.Wire.Utf8
import Mathlib.Data.List.Forall2

/-!
# Trees that are written

The text of a tree is UTF-8 if its strings are, and those that are written for texts
are.  What is written for texts, numbers and objects of them is read as their values.
-/

namespace Wire.Json

open Ascii

/-- Octets beyond ASCII are written as they are. -/
theorem escapeByte_high {b : UInt8} (high : 0x80 ≤ b) : escapeByte b = [b] := by
  have other : ∀ c : UInt8, c < 0x80 → b ≠ c := by
    rintro c low rfl
    exact absurd low (UInt8.not_lt.mpr high)
  have control : ¬ b < 0x20 := by
    rw [UInt8.lt_iff_toNat_lt]
    rw [UInt8.le_iff_toNat_le] at high
    exact Nat.not_lt.mpr (Nat.le_trans (by decide) high)
  rw [escapeByte, if_neg (other _ (by decide)), if_neg (other _ (by decide)),
    if_neg (other _ (by decide)), if_neg (other _ (by decide)), if_neg (other _ (by decide)),
    if_neg (other _ (by decide)), if_neg (other _ (by decide)), if_neg control]

/-- Escapes are ASCII. -/
theorem ascii_escapeByte {b : UInt8} (ascii : b < 0x80) : ∀ c ∈ escapeByte b, c < 0x80 := by
  have table : ∀ n : Fin 128, ∀ c ∈ escapeByte (UInt8.ofNat n), c < 0x80 := by decide +kernel
  have entry := table ⟨b.toNat, UInt8.lt_iff_toNat_lt.mp ascii⟩
  rwa [UInt8.ofNat_toNat] at entry

/-- What is written between the quotes for a text is UTF-8. -/
theorem isUtf8_escape (text : String) : IsUtf8 (escape (utf8 text)) := by
  rw [utf8_eq, escape, List.flatMap_assoc]
  refine isUtf8_flatMap fun c _ => ?_
  by_cases single : ∃ b ∈ String.utf8EncodeChar c, b < 0x80
  · obtain ⟨b, member, ascii⟩ := single
    rw [utf8EncodeChar_of_mem member ascii, List.flatMap_singleton]
    exact isUtf8_of_ascii (ascii_escapeByte ascii)
  · have kept : (String.utf8EncodeChar c).flatMap escapeByte = String.utf8EncodeChar c := by
      conv => rhs; rw [← List.flatMap_singleton' (String.utf8EncodeChar c)]
      apply List.flatMap_congr
      intro b member
      exact escapeByte_high (UInt8.not_lt.mp fun ascii => single ⟨b, member, ascii⟩)
    rw [kept]
    exact isUtf8_utf8EncodeChar c

/-- Decimal numbers are UTF-8. -/
theorem isUtf8_decimal (n : Nat) : IsUtf8 (decimal n) := by
  refine isUtf8_of_ascii fun b member => ?_
  have digit := List.all_eq_true.mp (decimal_all_isDigit n) b member
  simp only [isDigit, Bool.and_eq_true, decide_eq_true_eq] at digit
  rw [UInt8.lt_iff_toNat_lt]
  exact Nat.lt_of_le_of_lt (UInt8.le_iff_toNat_le.mp digit.2) (by decide)

mutual

/-- All strings and numbers of a tree are UTF-8. -/
def Encoded : Json → Prop
  | .num literal => IsUtf8 literal.text
  | .str literal => IsUtf8 literal.text
  | .arr items => EncodedItems items
  | .obj members => EncodedMembers members
  | _ => True

def EncodedItems : List Json → Prop
  | [] => True
  | item :: rest => Encoded item ∧ EncodedItems rest

def EncodedMembers : List (StrLit × Json) → Prop
  | [] => True
  | (key, value) :: rest => IsUtf8 key.text ∧ Encoded value ∧ EncodedMembers rest

end

/-- An ASCII octet can stand before UTF-8. -/
theorem IsUtf8.cons {b : UInt8} {octets : Bytes} (ascii : b < 0x80) (rest : IsUtf8 octets) :
    IsUtf8 (b :: octets) := by
  have first : IsUtf8 [b] := isUtf8_of_ascii fun c member => by
    rwa [List.mem_singleton.mp member]
  exact first.append rest

/-- A string between its quotes is UTF-8. -/
theorem isUtf8_quoted {literal : StrLit} (encoded : IsUtf8 literal.text) :
    IsUtf8 (quoted literal) :=
  IsUtf8.cons (by decide) (encoded.append (isUtf8_of_all rfl))

mutual

/-- **What is written for an encoded tree** is UTF-8. -/
theorem isUtf8_print : ∀ {value : Json}, value.Encoded → IsUtf8 (print value)
  | .null, _ => isUtf8_of_all rfl
  | .bool true, _ => isUtf8_of_all rfl
  | .bool false, _ => isUtf8_of_all rfl
  | .num _, encoded => encoded
  | .str _, encoded => isUtf8_quoted encoded
  | .arr [], _ => isUtf8_of_all rfl
  | .arr (_ :: _), ⟨item, items⟩ =>
      IsUtf8.cons (by decide) ((isUtf8_print item).append (isUtf8_printMoreItems items))
  | .obj [], _ => isUtf8_of_all rfl
  | .obj (_ :: _), ⟨key, value, members⟩ =>
      IsUtf8.cons (by decide) ((isUtf8_quoted key).append
        (IsUtf8.cons (by decide) ((isUtf8_print value).append (isUtf8_printMoreMembers members))))

theorem isUtf8_printMoreItems : ∀ {items : List Json}, EncodedItems items →
    IsUtf8 (printMoreItems items)
  | [], _ => isUtf8_of_all rfl
  | _ :: _, ⟨item, items⟩ =>
      IsUtf8.cons (by decide) ((isUtf8_print item).append (isUtf8_printMoreItems items))

theorem isUtf8_printMoreMembers : ∀ {members : List (StrLit × Json)}, EncodedMembers members →
    IsUtf8 (printMoreMembers members)
  | [], _ => isUtf8_of_all rfl
  | _ :: _, ⟨key, value, members⟩ =>
      IsUtf8.cons (by decide) ((isUtf8_quoted key).append
        (IsUtf8.cons (by decide) ((isUtf8_print value).append (isUtf8_printMoreMembers members))))

end

/-- The tree of a text is encoded. -/
theorem encoded_ofString (text : String) : (ofString text).Encoded := isUtf8_escape text

/-- The tree of a number is encoded. -/
theorem encoded_ofNat (n : Nat) : (ofNat n).Encoded := isUtf8_decimal n

/-- An optional tree is encoded if every value has an encoded one. -/
theorem encoded_ofOption {α : Type} {encode : α → Json} (each : ∀ value, (encode value).Encoded)
    (value : Option α) : (ofOption encode value).Encoded := by
  cases value with
  | none => exact trivial
  | some value => exact each value

/-- An object of encoded members is encoded. -/
theorem encoded_object {members : List (String × Json)}
    (each : ∀ member ∈ members, member.2.Encoded) : (object members).Encoded := by
  induction members with
  | nil => exact trivial
  | cons member members ih =>
      obtain ⟨first, rest⟩ := List.forall_mem_cons.mp each
      exact ⟨isUtf8_escape member.1, first, ih rest⟩

variable {F : Type} (f64 : NumLit → Option F)

/-- A map of some members, in their order. -/
def mapOf (values : List (String × Value F)) : Value F :=
  .object (values.foldl (fun held member => Value.insert member.1 member.2 held) [])

/-- The last member of a name is in the map. -/
theorem get_mapOf (values : List (String × Value F)) (name : String) :
    (mapOf values).get name = values.reverse.lookup name := by
  have held : ∀ held : List (String × Value F),
      (values.foldl (fun held member => Value.insert member.1 member.2 held) held).lookup name =
        (values.reverse.lookup name).or (held.lookup name) := by
    induction values with
    | nil => exact fun held => rfl
    | cons member values ih =>
        intro held
        rw [List.foldl_cons, ih, Value.lookup_insert, List.reverse_cons, List.lookup_append,
          Option.or_assoc]
        by_cases same : name = member.1
        · rw [if_pos same, same, List.lookup_cons_self, Option.some_or]
        · rw [if_neg same, List.lookup_cons, beq_eq_false_iff_ne.mpr same]
          rfl
  exact (held []).trans Option.or_none

/-- A tree within a depth is read as a value. -/
structure ReadAs (depth : Nat) (tree : Json) (value : Value F) : Prop where
  shallow : tree.depth ≤ depth
  read : toValue f64 tree = some value

/-- Null is read as itself. -/
theorem readAs_null (depth : Nat) : ReadAs f64 depth .null .null := ⟨Nat.zero_le depth, rfl⟩

/-- The tree of a text is read as the text. -/
theorem readAs_ofString (depth : Nat) (text : String) :
    ReadAs f64 depth (ofString text) (.string text) where
  shallow := Nat.zero_le depth
  read := by rw [ofString, toValue, StrLit.string?_ofString, Option.map_some]

/-- The tree of a number below `2 ^ 64` is read as the number. -/
theorem readAs_ofNat (depth : Nat) {n : Nat} (small : n < UInt64.size) :
    ReadAs f64 depth (ofNat n) (.number (.posInt n.toUInt64)) where
  shallow := Nat.zero_le depth
  read := by
    simp only [ofNat, toValue, NumLit.number, NumLit.natural?_ofNat, small, ↓reduceIte,
      Option.map_some]

/-- An optional tree is read as its value, or as null. -/
theorem readAs_ofOption {α : Type} {depth : Nat} {encode : α → Json} {value : α → Value F}
    (each : ∀ a, ReadAs f64 depth (encode a) (value a)) (held : Option α) :
    ReadAs f64 depth (ofOption encode held) ((held.map value).getD .null) := by
  cases held with
  | none => exact readAs_null f64 depth
  | some a => exact each a

/-- Members that are read as members of the same names. -/
def MembersReadAs (depth : Nat) (members : List (String × Json))
    (values : List (String × Value F)) : Prop :=
  List.Forall₂ (fun member value => member.1 = value.1 ∧ ReadAs f64 depth member.2 value.2)
    members values

/-- Members that are read one by one are read into a map. -/
theorem toMembers_object {members : List (String × Json)} {values : List (String × Value F)}
    {depth : Nat} (each : MembersReadAs f64 depth members values)
    (held : List (String × Value F)) :
    toMembers f64 (members.map fun member => (StrLit.ofString member.1, member.2)) held =
      some (values.foldl (fun held member => Value.insert member.1 member.2 held) held) := by
  induction each generalizing held with
  | nil => rfl
  | cons own _ ih =>
      rw [List.map_cons, toMembers, StrLit.string?_ofString, Option.bind_some, own.2.read,
        Option.bind_some, ih, own.1, List.foldl_cons]

/-- An object is one level deeper than its members. -/
theorem depthMembers_object {members : List (String × Json)} {values : List (String × Value F)}
    {depth : Nat} (each : MembersReadAs f64 depth members values) :
    depthMembers (members.map fun member => (StrLit.ofString member.1, member.2)) ≤ depth := by
  induction each with
  | nil => exact Nat.zero_le depth
  | cons own _ ih =>
      rw [List.map_cons, depthMembers]
      exact Nat.max_le.mpr ⟨own.2.shallow, ih⟩

/-- An object is read as the map of its members. -/
theorem readAs_object {members : List (String × Json)} {values : List (String × Value F)}
    {depth : Nat} (each : MembersReadAs f64 depth members values) :
    ReadAs f64 (depth + 1) (object members) (mapOf values) where
  shallow := Nat.succ_le_succ (depthMembers_object f64 each)
  read := by rw [object, toValue, toMembers_object f64 each, Option.map_some, mapOf]

variable {f64} in
/-- The text of a tree is read as its value. -/
theorem ReadAs.fromSlice {depth : Nat} {tree : Json} {value : Value F}
    (read : ReadAs f64 depth tree value) (limit : depth < 128) :
    Json.fromSlice f64 (print tree) = some value := by
  rw [Json.fromSlice, parse_print, Option.bind_some,
    if_pos (Nat.lt_of_le_of_lt read.shallow limit), read.read]

end Wire.Json
