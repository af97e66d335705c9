import Debitmetre.Wire.Json.Syntax

/-!
# The shape of printed texts

A printed tree is one line: it holds no control character, since a string
literal escapes them and nothing else may hold them.  An object's text starts
with a brace and its first key and ends with a brace.
-/

namespace Wire.Json

open Ascii

/-- Every octet is printable or part of a character beyond ASCII. -/
def Visible (text : Bytes) : Prop := ∀ b ∈ text, 0x20 ≤ b

instance (text : Bytes) : Decidable (Visible text) :=
  List.decidableBAll (fun b => 0x20 ≤ b) text

/-- Two texts without control characters make one. -/
theorem Visible.append {first second : Bytes} (left : Visible first) (right : Visible second) :
    Visible (first ++ second) := by
  intro b member
  rcases List.mem_append.mp member with member | member
  · exact left b member
  · exact right b member

/-- A printable octet can stand before a text without control characters. -/
theorem Visible.cons {b : UInt8} {text : Bytes} (first : 0x20 ≤ b) (rest : Visible text) :
    Visible (b :: text) := by
  intro c member
  rcases List.mem_cons.mp member with rfl | member
  · exact first
  · exact rest c member

/-- The texts of an automaton that refuses control characters hold none. -/
theorem visible_of_runFrom {σ : Type} (A : Automaton σ UInt8)
    (refused : ∀ s b, b < 0x20 → A.step s b = none) :
    ∀ {s last : σ} {text : Bytes}, A.runFrom s text = some last → Visible text := by
  intro s last text read
  induction text generalizing s with
  | nil => intro b member; cases member
  | cons b text ih =>
      rw [Automaton.runFrom_cons, Option.bind_eq_some_iff] at read
      obtain ⟨next, stepped, read⟩ := read
      refine Visible.cons ?_ (ih read)
      by_contra control
      rw [refused s b (UInt8.not_le.mp control)] at stepped
      cases stepped

/-- Control characters, one by one. -/
theorem control_cases {P : UInt8 → Prop} (all : ∀ n : Fin 32, P (UInt8.ofNat n)) {b : UInt8}
    (control : b < 0x20) : P b := by
  have entry := all ⟨b.toNat, by simpa [UInt8.lt_iff_toNat_lt] using control⟩
  simpa only [UInt8.ofNat_toNat] using entry

/-- No number holds a control character. -/
theorem numStep_control (phase : NumPhase) (b : UInt8) (control : b < 0x20) :
    numStep phase b = none := by
  refine control_cases (P := fun b => numStep phase b = none) ?_ control
  cases phase <;> decide

/-- No string holds a control character that is not escaped. -/
theorem strStep_control (phase : StrPhase) (b : UInt8) (control : b < 0x20) :
    strStep phase b = none := by
  refine control_cases (P := fun b => strStep phase b = none) ?_ control
  revert phase
  rintro (_ | _ | remaining)
  · decide
  · decide
  · revert remaining
    decide

/-- Number literals hold no control characters. -/
theorem visible_number (literal : NumLit) : Visible literal.text := by
  obtain ⟨last, read, _⟩ := numbers.accepts_iff.mp literal.accepted
  exact visible_of_runFrom numbers numStep_control read

/-- String literals hold no control characters. -/
theorem visible_string (literal : StrLit) : Visible literal.text := by
  obtain ⟨last, read, _⟩ := strings.accepts_iff.mp literal.accepted
  exact visible_of_runFrom strings strStep_control read

/-- A string between its quotes holds no control characters. -/
theorem visible_quoted (literal : StrLit) : Visible (quoted literal) :=
  Visible.cons (by decide) ((visible_string literal).append (by decide))

mutual

/-- **Nothing that is written** holds a control character, so it fits on a line. -/
theorem visible_print : ∀ value : Json, Visible (print value)
  | .null => by decide
  | .bool true => by decide
  | .bool false => by decide
  | .num literal => visible_number literal
  | .str literal => visible_quoted literal
  | .arr [] => by decide
  | .arr (item :: items) =>
      Visible.cons (by decide) ((visible_print item).append (visible_printMoreItems items))
  | .obj [] => by decide
  | .obj ((key, value) :: members) =>
      Visible.cons (by decide) ((visible_quoted key).append
        (Visible.cons (by decide)
          ((visible_print value).append (visible_printMoreMembers members))))

theorem visible_printMoreItems : ∀ items : List Json, Visible (printMoreItems items)
  | [] => by decide
  | item :: items =>
      Visible.cons (by decide) ((visible_print item).append (visible_printMoreItems items))

theorem visible_printMoreMembers : ∀ members : List (StrLit × Json),
    Visible (printMoreMembers members)
  | [] => by decide
  | (key, value) :: members =>
      Visible.cons (by decide) ((visible_quoted key).append
        (Visible.cons (by decide)
          ((visible_print value).append (visible_printMoreMembers members))))

end

/-- The remaining members end in a closing brace. -/
theorem printMoreMembers_closed (members : List (StrLit × Json)) :
    ∃ body, printMoreMembers members = body ++ [rbrace] := by
  induction members with
  | nil => exact ⟨[], rfl⟩
  | cons member members ih =>
      obtain ⟨key, value⟩ := member
      obtain ⟨body, closed⟩ := ih
      refine ⟨comma :: (quoted key ++ colon :: (print value ++ body)), ?_⟩
      simp only [printMoreMembers, closed, List.append_assoc, List.cons_append]

/-- An object's text from its first key to its closing brace. -/
theorem print_object (key : StrLit) (value : Json) (members : List (StrLit × Json)) :
    ∃ body, print (.obj ((key, value) :: members)) =
      lbrace :: quote :: (key.text ++ body ++ [rbrace]) := by
  obtain ⟨body, closed⟩ := printMoreMembers_closed members
  refine ⟨quote :: colon :: (print value ++ body), ?_⟩
  simp only [print, printMembers, quoted, closed, List.append_assoc, List.cons_append,
    List.nil_append]

end Wire.Json
