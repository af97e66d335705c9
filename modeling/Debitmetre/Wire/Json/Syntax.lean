import Debitmetre.Wire.Ascii
import Debitmetre.Wire.Automaton

/-!
# JSON texts

The syntax of RFC 8259 without its insignificant whitespace.  A number and the
inside of a string are kept as they were written: what they denote, and whether
they denote anything, is decided by the reader of the tree, since a reader that
ignores a member never looks at it.
-/

namespace Wire.Json

open Ascii

/-- How far a number literal has been read. -/
inductive NumPhase
  | start | minus | zero | whole | dot | frac | exp | sign | power
  deriving DecidableEq, Repr

/-- `[ minus ] int [ frac ] [ exp ]`. -/
def numStep : NumPhase → UInt8 → Option NumPhase
  | .start, b =>
      if b = minus then some .minus
      else if b = zero then some .zero
      else if isDigit b then some .whole
      else none
  | .minus, b =>
      if b = zero then some .zero
      else if isDigit b then some .whole
      else none
  | .zero, b =>
      if b = dot then some .dot
      else if b = 0x65 ∨ b = 0x45 then some .exp
      else none
  | .whole, b =>
      if isDigit b then some .whole
      else if b = dot then some .dot
      else if b = 0x65 ∨ b = 0x45 then some .exp
      else none
  | .dot, b => if isDigit b then some .frac else none
  | .frac, b =>
      if isDigit b then some .frac
      else if b = 0x65 ∨ b = 0x45 then some .exp
      else none
  | .exp, b =>
      if b = plus ∨ b = minus then some .sign
      else if isDigit b then some .power
      else none
  | .sign, b => if isDigit b then some .power else none
  | .power, b => if isDigit b then some .power else none

/-- The phases a number literal may end in. -/
def NumPhase.final : NumPhase → Bool
  | .zero | .whole | .frac | .power => true
  | .start | .minus | .dot | .exp | .sign => false

/-- Number literals. -/
def numbers : Automaton NumPhase UInt8 := ⟨.start, numStep, NumPhase.final⟩

/-- How far a character of a string has been read. -/
inductive StrPhase
  | plain
  | escape
  | hex (remaining : Fin 4)
  deriving DecidableEq, Repr

/-- `unescaped`, or a backslash and what may follow it. -/
def strStep : StrPhase → UInt8 → Option StrPhase
  | .plain, b =>
      if b = backslash then some .escape
      else if b = quote ∨ b < 0x20 then none
      else some .plain
  | .escape, b =>
      if b = 0x75 then some (.hex 3)
      else if b ∈ [quote, backslash, slash, 0x62, 0x66, 0x6E, 0x72, 0x74] then some .plain
      else none
  | .hex remaining, b =>
      if isHex b then
        if remaining = 0 then some .plain else some (.hex (remaining - 1))
      else none

/-- The texts that may stand between the quotes of a string. -/
def strings : Automaton StrPhase UInt8 := ⟨.plain, strStep, fun phase => phase == .plain⟩

/-- A number as it was written. -/
abbrev NumLit := numbers.Lexeme

/-- The inside of a string as it was written. -/
abbrev StrLit := strings.Lexeme

end Json

/-- The tree of a JSON text. -/
inductive Json
  | null
  | bool (value : Bool)
  | num (literal : Json.NumLit)
  | str (literal : Json.StrLit)
  | arr (items : List Json)
  | obj (members : List (Json.StrLit × Json))

namespace Json

open Ascii

/-- A string literal with its quotes. -/
def quoted (literal : StrLit) : Bytes := quote :: (literal.text ++ [quote])

mutual

/-- The text of a tree with no whitespace. -/
def print : Json → Bytes
  | .null => [0x6E, 0x75, 0x6C, 0x6C]
  | .bool true => [0x74, 0x72, 0x75, 0x65]
  | .bool false => [0x66, 0x61, 0x6C, 0x73, 0x65]
  | .num literal => literal.text
  | .str literal => quoted literal
  | .arr items => lbracket :: printItems items
  | .obj members => lbrace :: printMembers members

/-- The items of an array and the bracket that closes it. -/
def printItems : List Json → Bytes
  | [] => [rbracket]
  | item :: rest => print item ++ printMoreItems rest

/-- What follows an item. -/
def printMoreItems : List Json → Bytes
  | [] => [rbracket]
  | item :: rest => comma :: (print item ++ printMoreItems rest)

/-- The members of an object and the brace that closes it. -/
def printMembers : List (StrLit × Json) → Bytes
  | [] => [rbrace]
  | (key, value) :: rest => quoted key ++ colon :: (print value ++ printMoreMembers rest)

/-- What follows a member. -/
def printMoreMembers : List (StrLit × Json) → Bytes
  | [] => [rbrace]
  | (key, value) :: rest =>
      comma :: (quoted key ++ colon :: (print value ++ printMoreMembers rest))

end

end Wire.Json
