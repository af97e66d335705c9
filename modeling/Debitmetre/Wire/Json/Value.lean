import Debitmetre.Wire.Json.Machine
import Debitmetre.Wire.Json.Text

/-!
# JSON values

What a reader that keeps a whole text makes of it.  The members of an object are
a map ordered by key, in which a repeated key keeps its last value.  A number
that is not a 64-bit integer becomes a floating-point number; how its text is
rounded is a parameter, which refuses the numbers that have no finite
approximation.
-/

namespace Wire.Json

/-- A number: an unsigned or negative 64-bit integer, or a floating-point
number. -/
inductive Number (F : Type)
  | posInt (n : UInt64)
  | negInt (n : Int)
  | float (x : F)
  deriving DecidableEq, Repr

/-- What a text is read as. -/
inductive Value (F : Type)
  | null
  | bool (value : Bool)
  | number (value : Number F)
  | string (value : String)
  | array (items : List (Value F))
  | object (members : List (String × Value F))

variable {F : Type}

namespace Value

/-- The members with one more, in the place of one of the same key. -/
def insert (key : String) (value : Value F) :
    List (String × Value F) → List (String × Value F)
  | [] => [(key, value)]
  | (other, held) :: rest =>
      match compare key other with
      | .lt => (key, value) :: (other, held) :: rest
      | .eq => (key, value) :: rest
      | .gt => (other, held) :: insert key value rest

/-- A member of an object. -/
def get (value : Value F) (key : String) : Option (Value F) :=
  match value with
  | .object members => members.lookup key
  | _ => none

/-- The members of an object. -/
def asObject : Value F → Option (List (String × Value F))
  | .object members => some members
  | _ => none

def isObject : Value F → Bool
  | .object _ => true
  | _ => false

/-- The text of a string. -/
def asStr : Value F → Option String
  | .string value => some value
  | _ => none

/-- The number that fits into 64 bits. -/
def asU64 : Value F → Option UInt64
  | .number (.posInt n) => some n
  | _ => none

end Value

/-- The magnitude a literal without fraction and exponent denotes after its
minus sign. -/
def NumLit.negated? (literal : NumLit) : Option Nat :=
  match literal.text with
  | Ascii.minus :: digits =>
      if digits.all Ascii.isDigit then
        some (digits.foldl (fun n b => 10 * n + (b.toNat - 0x30)) 0)
      else none
  | _ => none

/-- The number a literal is read as.  Negative zero is not an integer. -/
def NumLit.number (f64 : NumLit → Option F) (literal : NumLit) : Option (Number F) :=
  match literal.natural?, literal.negated? with
  | some n, _ => if n < UInt64.size then some (.posInt n.toUInt64) else (f64 literal).map .float
  | none, some n =>
      if 0 < n ∧ n ≤ 0x8000000000000000 then some (.negInt (-n)) else (f64 literal).map .float
  | none, none => (f64 literal).map .float

mutual

/-- The value of a tree. -/
def toValue (f64 : NumLit → Option F) : Json → Option (Value F)
  | .null => some .null
  | .bool value => some (.bool value)
  | .num literal => (literal.number f64).map .number
  | .str literal => literal.string?.map .string
  | .arr items => (toItems f64 items).map .array
  | .obj members => (toMembers f64 members []).map .object

/-- Items are read one by one. -/
def toItems (f64 : NumLit → Option F) : List Json → Option (List (Value F))
  | [] => some []
  | item :: rest => (toValue f64 item).bind fun value => (toItems f64 rest).map (value :: ·)

/-- The map of the members read so far and the remaining ones. -/
def toMembers (f64 : NumLit → Option F) :
    List (StrLit × Json) → List (String × Value F) → Option (List (String × Value F))
  | [], members => some members
  | (key, value) :: rest, members =>
      key.string?.bind fun key => (toValue f64 value).bind fun value =>
        toMembers f64 rest (Value.insert key value members)

end

mutual

/-- How deep arrays and objects are nested. -/
def depth : Json → Nat
  | .arr items => depthItems items + 1
  | .obj members => depthMembers members + 1
  | _ => 0

/-- The depth of the deepest item. -/
def depthItems : List Json → Nat
  | [] => 0
  | item :: rest => max (depth item) (depthItems rest)

/-- The depth of the deepest member. -/
def depthMembers : List (StrLit × Json) → Nat
  | [] => 0
  | (_, value) :: rest => max (depth value) (depthMembers rest)

end

mutual

/-- Every number of a tree is in range and every string of it spells a text. -/
def Readable (f64 : NumLit → Option F) : Json → Prop
  | .num literal => (literal.number f64).isSome
  | .str literal => literal.string?.isSome
  | .arr items => ReadableItems f64 items
  | .obj members => ReadableMembers f64 members
  | _ => True

/-- Each item can be read. -/
def ReadableItems (f64 : NumLit → Option F) : List Json → Prop
  | [] => True
  | item :: rest => Readable f64 item ∧ ReadableItems f64 rest

/-- Each key spells a text and each member can be read. -/
def ReadableMembers (f64 : NumLit → Option F) : List (StrLit × Json) → Prop
  | [] => True
  | (key, value) :: rest =>
      key.string?.isSome ∧ Readable f64 value ∧ ReadableMembers f64 rest

end

theorem ReadableMembers.of_mem {f64 : NumLit → Option F} {members : List (StrLit × Json)}
    (readable : ReadableMembers f64 members) {member : StrLit × Json} (inside : member ∈ members) :
    member.2.Readable f64 := by
  induction members with
  | nil => cases inside
  | cons first rest ih =>
      obtain ⟨-, value, others⟩ := readable
      rcases List.mem_cons.mp inside with rfl | inside
      · exact value
      · exact ih others inside

mutual

/-- The trees that have a value are the readable ones. -/
theorem isSome_toValue (f64 : NumLit → Option F) (tree : Json) :
    (toValue f64 tree).isSome ↔ tree.Readable f64 := by
  cases tree with
  | null | bool value => exact iff_of_true rfl trivial
  | num literal | str literal => rw [toValue, Option.isSome_map, Readable]
  | arr items => rw [toValue, Option.isSome_map, Readable, isSome_toItems f64 items]
  | obj members => rw [toValue, Option.isSome_map, Readable, isSome_toMembers f64 members]

/-- Items are read exactly if each of them can be. -/
theorem isSome_toItems (f64 : NumLit → Option F) (items : List Json) :
    (toItems f64 items).isSome ↔ ReadableItems f64 items := by
  cases items with
  | nil => exact iff_of_true rfl trivial
  | cons item rest =>
      rw [toItems, ReadableItems, ← isSome_toValue f64 item, ← isSome_toItems f64 rest]
      cases toValue f64 item with
      | none => exact iff_of_false Bool.false_ne_true fun both => Bool.false_ne_true both.1
      | some value =>
          rw [Option.bind_some, Option.isSome_map, Option.isSome_some, and_iff_right rfl]

/-- Members are read exactly if each of them can be. -/
theorem isSome_toMembers (f64 : NumLit → Option F) (members : List (StrLit × Json))
    (held : List (String × Value F)) :
    (toMembers f64 members held).isSome ↔ ReadableMembers f64 members := by
  cases members with
  | nil => exact iff_of_true rfl trivial
  | cons member rest =>
      obtain ⟨key, value⟩ := member
      rw [toMembers, ReadableMembers, ← isSome_toValue f64 value]
      cases key.string? with
      | none => exact iff_of_false Bool.false_ne_true fun all => Bool.false_ne_true all.1
      | some key =>
          cases toValue f64 value with
          | none => exact iff_of_false Bool.false_ne_true fun all => Bool.false_ne_true all.2.1
          | some value =>
              rw [Option.bind_some, Option.bind_some, isSome_toMembers f64 rest]
              exact ⟨fun readable => ⟨rfl, rfl, readable⟩, fun all => all.2.2⟩

end

/-- The value of a text, within the reader's nesting limit. -/
def fromSlice (f64 : NumLit → Option F) (text : Bytes) : Option (Value F) :=
  (parse text).bind fun tree => if tree.depth < 128 then toValue f64 tree else none

namespace Value

/-- An inserted member is found, and so is every other one that was there. -/
theorem lookup_insert (key name : String) (value : Value F) (members : List (String × Value F)) :
    (insert key value members).lookup name =
      if name = key then some value else members.lookup name := by
  induction members with
  | nil =>
      by_cases same : name = key
      · rw [insert, if_pos same, same, List.lookup_cons_self]
      · rw [insert, if_neg same, List.lookup_cons, beq_eq_false_iff_ne.mpr same]
  | cons member members ih =>
      obtain ⟨other, held⟩ := member
      unfold insert
      split
      · by_cases same : name = key
        · rw [if_pos same, same, List.lookup_cons_self]
        · rw [if_neg same, List.lookup_cons, beq_eq_false_iff_ne.mpr same]
      · rename_i replaced
        obtain rfl : key = other := Std.LawfulEqOrd.eq_of_compare replaced
        by_cases same : name = key
        · rw [if_pos same, same, List.lookup_cons_self]
        · simp only [List.lookup_cons, beq_eq_false_iff_ne.mpr same, same, ↓reduceIte]
      · rename_i later
        have distinct : key ≠ other := by
          rintro rfl
          rw [Std.ReflOrd.compare_self] at later
          cases later
        by_cases there : name = other
        · subst name
          rw [List.lookup_cons_self, if_neg distinct.symm, List.lookup_cons_self]
        · rw [List.lookup_cons, beq_eq_false_iff_ne.mpr there, ih, List.lookup_cons,
            beq_eq_false_iff_ne.mpr there]

/-- The members under other names. -/
def renamed (rename : String → String) (members : List (String × Value F)) :
    List (String × Value F) :=
  members.foldr (fun member renamed => insert (rename member.1) member.2 renamed) []

/-- A member under its other name, unless another member has got that name. -/
theorem lookup_renamed {rename : String → String} {members : List (String × Value F)}
    {name : String} (only : ∀ member ∈ members, rename member.1 = rename name → member.1 = name) :
    (renamed rename members).lookup (rename name) = members.lookup name := by
  induction members with
  | nil => rfl
  | cons member members ih =>
      obtain ⟨first, rest⟩ := List.forall_mem_cons.mp only
      rw [renamed, List.foldr_cons, lookup_insert, List.lookup_cons]
      by_cases same : name = member.1
      · rw [if_pos (congrArg rename same), beq_iff_eq.mpr same]
      · rw [if_neg fun named => same (first named.symm).symm, beq_eq_false_iff_ne.mpr same]
        exact ih rest

/-- No member is under a name that none has got. -/
theorem lookup_renamed_eq_none {rename : String → String} {members : List (String × Value F)}
    {name : String} (other : ∀ member ∈ members, rename member.1 ≠ name) :
    (renamed rename members).lookup name = none := by
  induction members with
  | nil => rfl
  | cons member members ih =>
      obtain ⟨first, rest⟩ := List.forall_mem_cons.mp other
      rw [renamed, List.foldr_cons, lookup_insert, if_neg first.symm]
      exact ih rest

end Value

end Wire.Json
