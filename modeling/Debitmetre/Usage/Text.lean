import Mathlib.Data.List.DropRight

/-!
# Texts

What the standard library takes for whitespace, what it leaves of a text that is
trimmed, and the lines of a text.
-/

namespace Debitmetre

/-- `char::is_whitespace`. -/
def isWhitespace (c : Char) : Bool :=
  (0x09 ≤ c.toNat && c.toNat ≤ 0x0D) || (0x2000 ≤ c.toNat && c.toNat ≤ 0x200A) ||
    [0x20, 0x85, 0xA0, 0x1680, 0x2028, 0x2029, 0x202F, 0x205F, 0x3000].contains c.toNat

/-- A text is empty when it is trimmed. -/
def trimIsEmpty (s : String) : Bool := s.toList.all isWhitespace

namespace Str

/-- `str::trim`. -/
def trim (text : List Char) : List Char := (text.dropWhile isWhitespace).rdropWhile isWhitespace

/-- What trimming leaves of a text that starts with another character. -/
theorem trim_of_head {text : List Char} {c : Char} (starts : text.head? = some c)
    (visible : isWhitespace c = false) : trim text = text.rdropWhile isWhitespace := by
  cases text with
  | nil => cases starts
  | cons first rest =>
      cases starts
      rw [trim, List.dropWhile_cons_of_neg (by rw [visible]; exact Bool.false_ne_true)]

/-- Whitespace at the end of a text makes no difference. -/
theorem trim_concat {text : List Char} {c : Char} (blank : isWhitespace c = true) :
    trim (text ++ [c]) = trim text := by
  rw [trim, trim, List.dropWhile_append]
  split
  case isTrue empty =>
    rw [List.isEmpty_iff.mp empty, List.dropWhile_cons_of_pos blank, List.dropWhile_nil]
  case isFalse => rw [List.rdropWhile_concat_pos _ _ _ blank]

/-- A line without the carriage return it ends in. -/
def stripCr (line : List Char) : List Char :=
  if line.getLast? = some '\r' then line.dropLast else line

theorem trim_stripCr (line : List Char) : trim (stripCr line) = trim line := by
  rw [stripCr]
  split
  case isTrue ended =>
    obtain ⟨body, rfl⟩ := List.getLast?_eq_some_iff.mp ended
    rw [List.dropLast_concat, trim_concat rfl]
  case isFalse => rfl

/-- `str::lines`. -/
def lines (text : List Char) : List (List Char) :=
  let pieces := text.splitOn '\n'
  let last := pieces.getLast (List.splitOn_ne_nil '\n' text)
  pieces.dropLast.map stripCr ++ if last = [] then [] else [last]

/-- A loop that trims its lines goes through what is between newlines. -/
theorem foldl_lines {β : Type} {step : β → List Char → β}
    (trims : ∀ state line line', trim line = trim line' → step state line = step state line')
    (empty : ∀ state, step state [] = state) (text : List Char) (state : β) :
    (lines text).foldl step state = (text.splitOn '\n').foldl step state := by
  have stripped : ∀ state line, step state (stripCr line) = step state line := fun state line =>
    trims state _ _ (trim_stripCr line)
  have split := List.dropLast_append_getLast (List.splitOn_ne_nil '\n' text)
  rw [lines]
  conv => rhs; rw [← split]
  rw [List.foldl_append, List.foldl_append, List.foldl_map, List.foldl_cons, List.foldl_nil]
  simp only [stripped]
  split
  case isTrue none => rw [none, empty, List.foldl_nil]
  case isFalse => rfl

end Str

end Debitmetre
