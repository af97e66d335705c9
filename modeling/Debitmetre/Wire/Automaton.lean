import Mathlib.Data.List.Basic

/-!
# Partial automata over octets

An automaton reads a text one symbol at a time and refuses it at the first
symbol no text of its language can continue with.  Reading is compositional in
the text, which is what makes statements about prefixes, truncations and
concatenations of texts statements about states.
-/

namespace Wire

/-- A deterministic automaton whose step refuses by returning `none`. -/
structure Automaton (σ β : Type) where
  start : σ
  step : σ → β → Option σ
  final : σ → Bool

namespace Automaton

variable {σ β : Type} (A : Automaton σ β)

/-- The state after reading a text, unless some symbol is refused. -/
def runFrom (s : σ) (text : List β) : Option σ := text.foldlM A.step s

/-- The automaton reads the whole text and stops in a final state. -/
def accepts (text : List β) : Bool := (A.runFrom A.start text).any A.final

/-- A text is accepted if it is read to a final state. -/
theorem accepts_iff {text : List β} :
    A.accepts text = true ↔ ∃ last, A.runFrom A.start text = some last ∧ A.final last = true := by
  rw [accepts, Option.any_eq_true]

/-- A text of the automaton's language. -/
structure Lexeme where
  text : List β
  accepted : A.accepts text = true

@[ext] theorem Lexeme.ext {A : Automaton σ β} {first second : A.Lexeme}
    (same : first.text = second.text) : first = second := by
  cases first
  cases second
  cases same
  rfl

/-- The text as one of the language, if it is in the language. -/
def lexeme? (text : List β) : Option A.Lexeme :=
  if accepted : A.accepts text = true then some ⟨text, accepted⟩ else none

@[simp] theorem lexeme?_text (lexeme : A.Lexeme) : A.lexeme? lexeme.text = some lexeme := by
  simp only [lexeme?, lexeme.accepted, ↓reduceDIte]

@[simp] theorem runFrom_nil (s : σ) : A.runFrom s [] = some s := rfl

@[simp] theorem runFrom_cons (s : σ) (b : β) (text : List β) :
    A.runFrom s (b :: text) = (A.step s b).bind fun next => A.runFrom next text := by
  simp only [runFrom, List.foldlM_cons]
  rfl

/-- A text is read piece by piece. -/
theorem runFrom_append (s : σ) (first second : List β) :
    A.runFrom s (first ++ second) =
      (A.runFrom s first).bind fun middle => A.runFrom middle second := by
  simp only [runFrom, List.foldlM_append]
  rfl

theorem runFrom_append_of_eq {s middle : σ} {first : List β}
    (read : A.runFrom s first = some middle) (second : List β) :
    A.runFrom s (first ++ second) = A.runFrom middle second := by
  rw [runFrom_append, read, Option.bind_some]

/-- A text that is read has every one of its prefixes read on the way. -/
theorem runFrom_append_eq_some {s last : σ} {first second : List β}
    (read : A.runFrom s (first ++ second) = some last) :
    ∃ middle, A.runFrom s first = some middle ∧ A.runFrom middle second = some last := by
  rw [runFrom_append, Option.bind_eq_some_iff] at read
  exact read

/-- What every accepted step preserves holds after every text that is read. -/
theorem runFrom_invariant {invariant : σ → Prop}
    (preserved : ∀ s b next, invariant s → A.step s b = some next → invariant next)
    {s last : σ} {text : List β} (initially : invariant s)
    (read : A.runFrom s text = some last) : invariant last := by
  induction text generalizing s with
  | nil =>
      cases read
      exact initially
  | cons b text ih =>
      rw [runFrom_cons, Option.bind_eq_some_iff] at read
      obtain ⟨next, stepped, read⟩ := read
      exact ih (preserved s b next initially stepped) read

end Automaton

end Wire
