import Debitmetre.Wire.Json.Text

/-!
# Typed readers of trees

The shapes a derived deserializer accepts.  A structure is read from an object,
whose unknown members it ignores and in which none of its own may be repeated,
or from an array of all its fields in their order.  An optional field may be
null or absent.  A variant without content is named by a string or by the only
key of an object that maps it to null.
-/

namespace Wire.Json

/-- A reader of one tree. -/
abbrev Decoder (α : Type) := Json → Option α

namespace Decoder

variable {α : Type}

/-- A text is read from a string that spells one. -/
def string : Decoder String
  | .str literal => literal.string?
  | _ => none

/-- An unsigned integer below a bound. -/
def unsigned (bound : Nat) : Decoder Nat
  | .num literal => literal.natural?.filter (· < bound)
  | _ => none

def u8 : Decoder UInt8 := fun tree => (unsigned UInt8.size tree).map Nat.toUInt8

def u16 : Decoder UInt16 := fun tree => (unsigned UInt16.size tree).map Nat.toUInt16

def u64 : Decoder UInt64 := fun tree => (unsigned UInt64.size tree).map Nat.toUInt64

/-- Null is read as nothing. -/
def option (decoder : Decoder α) : Decoder (Option α)
  | .null => some none
  | tree => (decoder tree).map some

/-- A variant without data is read from its name, or from an object that has null under
it. -/
def unitVariant (variants : List (String × α)) : Decoder α
  | .str name => name.string?.bind fun read => List.lookup read variants
  | .obj [(name, .null)] => name.string?.bind fun read => List.lookup read variants
  | _ => none

end Decoder

/-- The members of an object with their keys read. -/
def named? : List (StrLit × Json) → Option (List (String × Json))
  | [] => some []
  | (key, value) :: rest =>
      key.string?.bind fun key => (named? rest).map ((key, value) :: ·)

/-- The values members of one name give its field: absent, present or, when the
name is repeated, refused. -/
def fieldOf : List Json → Option (Option Json)
  | [] => some none
  | [value] => some (some value)
  | _ => none

/-- The values of all fields of a structure. -/
def fieldsOf (members : List (String × Json)) : List String → Option (List (Option Json))
  | [] => some []
  | name :: names =>
      (fieldOf ((members.filter fun member => member.1 = name).map Prod.snd)).bind fun field =>
        (fieldsOf members names).map (field :: ·)

/-- The fields of a structure, in their order. -/
def structure? (names : List String) : Json → Option (List (Option Json))
  | .obj members => (named? members).bind fun members => fieldsOf members names
  | .arr items => if items.length = names.length then some (items.map some) else none
  | _ => none

/-- A field that must be present. -/
def required {α : Type} (decoder : Decoder α) (field : Option Json) : Option α :=
  field.bind decoder

/-- A field that may be absent. -/
def optional {α : Type} (decoder : Decoder α) : Option Json → Option (Option α)
  | none => some none
  | some tree => decoder.option tree

/-- An object whose members are written in the given order. -/
def object (members : List (String × Json)) : Json :=
  .obj (members.map fun member => (StrLit.ofString member.1, member.2))

/-- The tree of an optional value. -/
def ofOption {α : Type} (encode : α → Json) : Option α → Json
  | none => .null
  | some value => encode value

/-- The tree of a text. -/
def ofString (value : String) : Json := .str (StrLit.ofString value)

/-- The tree of a number. -/
def ofNat (n : Nat) : Json := .num (NumLit.ofNat n)

@[simp] theorem string_ofString (value : String) : Decoder.string (ofString value) = some value :=
  StrLit.string?_ofString value

/-- A number below the bound is read back. -/
theorem unsigned_ofNat {n bound : Nat} (small : n < bound) :
    Decoder.unsigned bound (ofNat n) = some n := by
  simp only [Decoder.unsigned, ofNat, NumLit.natural?_ofNat, Option.filter_some, small,
    decide_true, ↓reduceIte]

@[simp] theorem u8_ofNat (n : UInt8) : Decoder.u8 (ofNat n.toNat) = some n := by
  rw [Decoder.u8, unsigned_ofNat n.toNat_lt, Option.map_some]
  simp

@[simp] theorem u16_ofNat (n : UInt16) : Decoder.u16 (ofNat n.toNat) = some n := by
  rw [Decoder.u16, unsigned_ofNat n.toNat_lt, Option.map_some]
  simp

@[simp] theorem u64_ofNat (n : UInt64) : Decoder.u64 (ofNat n.toNat) = some n := by
  rw [Decoder.u64, unsigned_ofNat n.toNat_lt, Option.map_some]
  simp

/-- A reader that reads back what is written, and writes nothing as null. -/
structure Codec {α : Type} (decoder : Decoder α) (encode : α → Json) : Prop where
  reads : ∀ value, decoder (encode value) = some value
  present : ∀ value, encode value ≠ .null

/-- What is read back can be optional. -/
theorem Codec.option {α : Type} {decoder : Decoder α} {encode : α → Json}
    (codec : Codec decoder encode) (value : Option α) :
    decoder.option (ofOption encode value) = some value := by
  cases value with
  | none => rfl
  | some value =>
      rw [ofOption, Decoder.option, codec.reads, Option.map_some]
      exact codec.present value

/-- A required field that was written is read. -/
theorem Codec.required_bind {α β : Type} {decoder : Decoder α} {encode : α → Json}
    (codec : Codec decoder encode) (value : α) (next : α → Option β) :
    (required decoder (some (encode value)) >>= next) = next value := by
  rw [required, Option.bind_some, codec.reads]
  rfl

/-- An optional field that was written is read. -/
theorem Codec.optional_bind {α β : Type} {decoder : Decoder α} {encode : α → Json}
    (codec : Codec decoder encode) (value : Option α) (next : Option α → Option β) :
    (optional decoder (some (ofOption encode value)) >>= next) = next value := by
  rw [optional, codec.option]
  rfl

theorem Codec.string : Codec Decoder.string ofString :=
  ⟨string_ofString, fun _ same => by cases same⟩

theorem Codec.u8 : Codec Decoder.u8 (fun n => ofNat n.toNat) :=
  ⟨u8_ofNat, fun _ same => by cases same⟩

theorem Codec.u16 : Codec Decoder.u16 (fun n => ofNat n.toNat) :=
  ⟨u16_ofNat, fun _ same => by cases same⟩

theorem Codec.u64 : Codec Decoder.u64 (fun n => ofNat n.toNat) :=
  ⟨u64_ofNat, fun _ same => by cases same⟩

/-- Variants are read back if their names are told apart. -/
theorem Codec.unitVariant {α : Type} {variants : List (String × α)} {name : α → String}
    (named : ∀ value, List.lookup (name value) variants = some value) :
    Codec (Decoder.unitVariant variants) (fun value => ofString (name value)) where
  reads := fun value => by
    simp only [Decoder.unitVariant, ofString, StrLit.string?_ofString, Option.bind_some, named]
  present := fun _ same => by cases same

/-- The names of an object that is written are spelled. -/
theorem named?_object (members : List (String × Json)) :
    named? (members.map fun member => (StrLit.ofString member.1, member.2)) = some members := by
  induction members with
  | nil => rfl
  | cons member members ih =>
      rw [List.map_cons, named?, StrLit.string?_ofString, Option.bind_some, ih, Option.map_some]

/-- Of distinct names each is found once. -/
theorem filter_name_eq {members : List (String × Json)}
    (distinct : (members.map Prod.fst).Nodup) {member : String × Json} (inside : member ∈ members) :
    members.filter (fun other => other.1 = member.1) = [member] := by
  induction members with
  | nil => cases inside
  | cons first rest ih =>
      rw [List.map_cons, List.nodup_cons] at distinct
      rw [List.filter_cons]
      rcases List.mem_cons.mp inside with rfl | inside
      · have others : rest.filter (fun other => other.1 = member.1) = [] := by
          simp only [List.filter_eq_nil_iff, decide_eq_true_eq]
          intro other present same
          exact distinct.1 (List.mem_map.mpr ⟨other, present, same⟩)
        simp only [decide_true, ↓reduceIte, others]
      · have different : first.1 ≠ member.1 := by
          intro same
          exact distinct.1 (List.mem_map.mpr ⟨member, inside, same.symm⟩)
        simp only [different, decide_false, Bool.false_eq_true, ↓reduceIte]
        exact ih distinct.2 inside

/-- The fields of an object with distinct names are its members. -/
theorem fieldsOf_of_distinct (members : List (String × Json))
    (distinct : (members.map Prod.fst).Nodup) :
    ∀ selected : List (String × Json), (∀ member ∈ selected, member ∈ members) →
      fieldsOf members (selected.map Prod.fst) = some (selected.map fun member => some member.2)
  | [], _ => rfl
  | member :: rest, inside => by
      rw [List.map_cons, fieldsOf, filter_name_eq distinct (inside member (List.mem_cons_self ..)),
        List.map_cons, List.map_nil, fieldOf, Option.bind_some,
        fieldsOf_of_distinct members distinct rest
          (fun other present => inside other (List.mem_cons_of_mem _ present)),
        Option.map_some, List.map_cons]

/-- **A written structure has its fields read back.** -/
theorem structure?_object (members : List (String × Json))
    (distinct : (members.map Prod.fst).Nodup) :
    structure? (members.map Prod.fst) (object members) =
      some (members.map fun member => some member.2) := by
  rw [object, structure?, named?_object, Option.bind_some]
  exact fieldsOf_of_distinct members distinct members fun _ inside => inside

end Wire.Json
