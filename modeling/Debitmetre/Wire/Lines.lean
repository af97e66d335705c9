import Debitmetre.Wire.Ascii

/-!
# Newline-terminated lines

A text is a sequence of lines that end in a newline, followed by a tail that
does not.  Appending to a text whose tail is empty adds lines and changes none;
appending to any other text continues its tail.
-/

namespace Wire

open Ascii

/-- The lines of a text that end in a newline, without their newlines. -/
def lines (text : Bytes) : List Bytes := (text.splitOn lf).dropLast

/-- What follows the last newline of a text. -/
def tail (text : Bytes) : Bytes := (text.splitOn lf).getLast (List.splitOn_ne_nil lf text)

/-- Every line of a text ends in a newline. -/
def Terminated (text : Bytes) : Prop := ∀ b ∈ text.getLast?, b = lf

@[simp] theorem lines_nil : lines [] = [] := rfl

@[simp] theorem tail_nil : tail [] = [] := rfl

/-- A text is its lines and what comes after the last newline. -/
theorem splitOn_lf (text : Bytes) : text.splitOn lf = lines text ++ [tail text] :=
  (List.dropLast_append_getLast (List.splitOn_ne_nil lf text)).symm

/-- Without a newline there is no line. -/
theorem lines_of_notMem {text : Bytes} (single : lf ∉ text) : lines text = [] := by
  rw [lines, List.splitOn_eq_singleton single]
  rfl

/-- Without a newline all of a text is its tail. -/
theorem tail_of_notMem {text : Bytes} (single : lf ∉ text) : tail text = text := by
  simp only [tail, List.splitOn_eq_singleton single, List.getLast_singleton]

/-- A text up to a newline and what follows it are split on their own. -/
theorem splitOn_append_lf (first second : Bytes) :
    (first ++ lf :: second).splitOn lf = first.splitOn lf ++ second.splitOn lf :=
  List.splitOn_append_cons_self first second

/-- A newline ends the line that the text before it left open. -/
theorem lines_append_lf (first second : Bytes) :
    lines (first ++ lf :: second) = lines first ++ tail first :: lines second := by
  rw [lines, splitOn_append_lf, List.dropLast_append_of_ne_nil (List.splitOn_ne_nil lf second),
    splitOn_lf first, ← lines, List.append_assoc, List.singleton_append]

/-- The tail comes after the last newline. -/
theorem tail_append_lf (first second : Bytes) : tail (first ++ lf :: second) = tail second := by
  simp only [tail, splitOn_append_lf]
  exact List.getLast_append_of_ne_nil _ (List.splitOn_ne_nil lf second)

theorem lines_cons {piece : Bytes} (single : lf ∉ piece) (rest : Bytes) :
    lines (piece ++ lf :: rest) = piece :: lines rest := by
  rw [lines_append_lf, lines_of_notMem single, tail_of_notMem single, List.nil_append]

/-- A text in front of another belongs to its first line. -/
theorem splitOn_append_of_notMem {α : Type} [DecidableEq α] {separator : α} {first : List α}
    (apart : separator ∉ first) (rest : List α) :
    (first ++ rest).splitOn separator = (rest.splitOn separator).modifyHead (first ++ ·) := by
  induction first with
  | nil =>
      rw [List.nil_append]
      exact (congrFun List.modifyHead_id _).symm
  | cons a first ih =>
      rw [List.mem_cons, not_or] at apart
      have other : ¬ (a == separator) = true := fun same => apart.1 (eq_of_beq same).symm
      rw [List.cons_append, List.splitOn_cons_eq_if_modifyHead, if_neg other, ih apart.2,
        List.modifyHead_modifyHead]
      rfl

/-- Induction over the lines of a text. -/
theorem lines_induction {motive : Bytes → Prop}
    (last : ∀ text, lf ∉ text → motive text)
    (line : ∀ piece rest, lf ∉ piece → motive rest → motive (piece ++ lf :: rest)) :
    ∀ text, motive text := by
  have parts : ∀ text piece : Bytes, lf ∉ piece → motive (piece ++ text) := by
    intro text
    induction text with
    | nil =>
        intro piece single
        rw [List.append_nil]
        exact last piece single
    | cons b text ih =>
        intro piece single
        by_cases newline : b = lf
        · subst newline
          exact line piece text single (ih [] (List.not_mem_nil))
        · rw [List.append_cons]
          apply ih
          simp only [List.mem_append, List.mem_singleton, not_or]
          exact ⟨single, fun same => newline same.symm⟩
  intro text
  exact parts text [] List.not_mem_nil

/-- The tail has no newline. -/
theorem notMem_tail (text : Bytes) : lf ∉ tail text := by
  induction text using lines_induction with
  | last text single => rwa [tail_of_notMem single]
  | line piece rest single ih => rwa [tail_append_lf]

/-- A text has no tail exactly if its last line is ended. -/
theorem tail_eq_nil_iff {text : Bytes} : tail text = [] ↔ Terminated text := by
  induction text using lines_induction with
  | last text single =>
      rw [tail_of_notMem single]
      constructor
      · rintro rfl b member
        cases member
      · intro terminated
        by_contra more
        have newline := terminated _ (List.getLast?_eq_some_getLast more)
        exact single (newline ▸ List.getLast_mem more)
  | line piece rest single ih =>
      rw [tail_append_lf, ih]
      cases rest with
      | nil =>
          refine ⟨fun _ b member => ?_, fun _ b member => by cases member⟩
          rw [List.getLast?_concat] at member
          exact (Option.some.inj member).symm
      | cons b rest =>
          rw [Terminated, Terminated, List.getLast?_append_of_ne_nil _ (List.cons_ne_nil _ _),
            List.getLast?_cons_cons]

/-- What is appended to a text continues its tail. -/
theorem lines_append (first second : Bytes) :
    lines (first ++ second) = lines first ++ lines (tail first ++ second) := by
  induction first using lines_induction with
  | last text single => rw [lines_of_notMem single, tail_of_notMem single, List.nil_append]
  | line piece rest single ih =>
      rw [List.append_assoc, List.cons_append, lines_cons single, lines_cons single,
        tail_append_lf, ih, List.cons_append]

/-- Only the tail of a text matters for that of a longer one. -/
theorem tail_append (first second : Bytes) :
    tail (first ++ second) = tail (tail first ++ second) := by
  induction first using lines_induction with
  | last text single => rw [tail_of_notMem single]
  | line piece rest single ih =>
      rw [List.append_assoc, List.cons_append, tail_append_lf, tail_append_lf, ih]

/-- Lines of a text that ends in a newline stay as they are. -/
theorem Terminated.lines_append {first : Bytes} (terminated : Terminated first) (second : Bytes) :
    lines (first ++ second) = lines first ++ lines second := by
  rw [Wire.lines_append, tail_eq_nil_iff.mpr terminated, List.nil_append]

/-- Every line of what a text starts with is the start of one of its lines. -/
theorem exists_line_of_starts {first text : Bytes} (starts : first <+: text) {piece : Bytes}
    (member : piece ∈ first.splitOn lf) : ∃ line ∈ text.splitOn lf, piece <+: line := by
  obtain ⟨rest, rfl⟩ := starts
  have whole : (first ++ rest).splitOn lf = lines first ++ (tail first ++ rest).splitOn lf := by
    rw [splitOn_lf, splitOn_lf (tail first ++ rest), lines_append, tail_append, List.append_assoc]
  rw [splitOn_lf, List.mem_append, List.mem_singleton] at member
  rw [whole]
  rcases member with line | rfl
  · exact ⟨piece, List.mem_append_left _ line, List.prefix_refl piece⟩
  · rw [splitOn_append_of_notMem (notMem_tail first)]
    obtain ⟨next, others, shape⟩ := List.exists_cons_of_ne_nil (List.splitOn_ne_nil lf rest)
    rw [shape, List.modifyHead_cons]
    exact ⟨_, List.mem_append_right _ List.mem_cons_self, List.prefix_append _ _⟩

end Wire
