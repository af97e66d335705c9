import Std.Data.String.ToInt
import Mathlib.Logic.Function.Basic

/-!
# Values of TOML

The values a TOML document is made of, and how a deserializer words what it cannot use
of them.  A value of the wrong type is shown, unless it is a list or a table, and so is
a key that is not a field's.  How strings and floating-point numbers are shown is a
parameter.
-/

namespace Wire

/-- A value.  The entries of a table are in the order of the document and repeat no key. -/
inductive Toml (F : Type)
  | string (value : String)
  | integer (value : Int)
  | float (value : F)
  | boolean (value : Bool)
  | datetime (text : String)
  | array (items : List (Toml F))
  | table (entries : List (String × Toml F))

/-- What was found in place of a value of another type. -/
inductive Unexpected (F : Type)
  | bool (value : Bool)
  | signed (value : Int)
  | float (value : F)
  | str (value : String)
  | seq
  | map

/-- The types that are asked for. -/
inductive Expected
  | string
  | map
  deriving DecidableEq, Repr

/-- How strings and floating-point numbers are shown. -/
structure Printing (F : Type) where
  debug : String → String
  float : F → String

/-- What is shown differs if the values do. -/
structure Printing.Lawful {F : Type} (printing : Printing F) : Prop where
  debug : Function.Injective printing.debug
  float : Function.Injective printing.float

variable {F : Type}

/-- What a visitor of another type is told of a value.  A date is visited as a table. -/
def Toml.unexpected : Toml F → Unexpected F
  | .string value => .str value
  | .integer value => .signed value
  | .float value => .float value
  | .boolean value => .bool value
  | .datetime _ => .map
  | .array _ => .seq
  | .table _ => .map

def Expected.text : Expected → String
  | .string => "a string"
  | .map => "a map"

section Messages

variable (printing : Printing F)

def Unexpected.text : Unexpected F → String
  | .bool value => "boolean `" ++ toString value ++ "`"
  | .signed value => "integer `" ++ toString value ++ "`"
  | .float value => "floating point `" ++ printing.float value ++ "`"
  | .str value => "string " ++ printing.debug value
  | .seq => "sequence"
  | .map => "map"

/-- `serde::de::Error::invalid_type`. -/
def invalidType (found : Unexpected F) (expected : Expected) : String :=
  "invalid type: " ++ found.text printing ++ ", expected " ++ expected.text

end Messages

/-- `serde::de::Error::unknown_field`. -/
def unknownField (key expected : String) : String :=
  "unknown field `" ++ key ++ "`, expected " ++ expected

/-- `serde::de::Error::missing_field`. -/
def missingField (field : String) : String := "missing field `" ++ field ++ "`"

theorem unknownField_inj {key key' expected : String} :
    unknownField key expected = unknownField key' expected ↔ key = key' := by
  unfold unknownField
  rw [String.append_left_inj, String.append_left_inj, String.append_right_inj]

theorem missingField_inj {field field' : String} :
    missingField field = missingField field' ↔ field = field' := by
  unfold missingField
  rw [String.append_left_inj, String.append_right_inj]

/-- The first two letters of what is shown. -/
def Unexpected.initials : Unexpected F → List Char
  | .bool _ => ['b', 'o']
  | .signed _ => ['i', 'n']
  | .float _ => ['f', 'l']
  | .str _ => ['s', 't']
  | .seq => ['s', 'e']
  | .map => ['m', 'a']

theorem Unexpected.take_text (printing : Printing F) (found : Unexpected F) :
    (found.text printing).toList.take 2 = found.initials := by
  unfold text initials
  cases found with
  | bool value => rw [String.toList_append, String.toList_append]; rfl
  | signed value => rw [String.toList_append, String.toList_append]; rfl
  | float value => rw [String.toList_append, String.toList_append]; rfl
  | str value => rw [String.toList_append]; rfl
  | seq => exact (by decide : "sequence".toList.take 2 = ['s', 'e'])
  | map => exact (by decide : "map".toList.take 2 = ['m', 'a'])

/-- What was found is known from how it is shown. -/
theorem Unexpected.text_injective {printing : Printing F} (lawful : printing.Lawful) :
    Function.Injective (Unexpected.text printing) := by
  intro found found' same
  have initials : found.initials = found'.initials := by
    rw [← take_text printing, ← take_text printing, same]
  cases found with
  | bool value =>
      cases found' with
      | bool value' =>
          have shown := (String.append_right_inj _).mp ((String.append_left_inj _).mp same)
          have bools : ∀ b b' : Bool, toString b = toString b' → b = b' := by decide
          rw [bools _ _ shown]
      | _ => cases initials
  | signed value =>
      cases found' with
      | signed value' =>
          have shown := (String.append_right_inj _).mp ((String.append_left_inj _).mp same)
          rw [Int.repr_inj.mp shown]
      | _ => cases initials
  | float value =>
      cases found' with
      | float value' =>
          have shown := (String.append_right_inj _).mp ((String.append_left_inj _).mp same)
          rw [lawful.float shown]
      | _ => cases initials
  | str value =>
      cases found' with
      | str value' =>
          rw [lawful.debug ((String.append_right_inj _).mp same)]
      | _ => cases initials
  | seq =>
      cases found' with
      | seq => rfl
      | _ => cases initials
  | map =>
      cases found' with
      | map => rfl
      | _ => cases initials

theorem Expected.eq_of_append {expected expected' : Expected} {text text' : String}
    (same : text ++ expected.text = text' ++ expected'.text) : expected = expected' := by
  have last : ∀ (text : String) (expected : Expected),
      (text ++ expected.text).toList.getLast? = expected.text.toList.getLast? := by
    intro text expected
    rw [String.toList_append, List.getLast?_append]
    cases expected <;> rfl
  have ends := last text expected
  rw [same, last] at ends
  cases expected <;> cases expected'
  · rfl
  · exact absurd ends (by decide)
  · exact absurd ends (by decide)
  · rfl

theorem invalidType_inj {printing : Printing F} (lawful : printing.Lawful)
    {found found' : Unexpected F} {expected expected' : Expected} :
    invalidType printing found expected = invalidType printing found' expected' ↔
      found = found' ∧ expected = expected' := by
  constructor
  · intro same
    obtain rfl := Expected.eq_of_append same
    unfold invalidType at same
    rw [String.append_left_inj, String.append_left_inj, String.append_right_inj] at same
    exact ⟨Unexpected.text_injective lawful same, rfl⟩
  · rintro ⟨rfl, rfl⟩
    rfl

end Wire
