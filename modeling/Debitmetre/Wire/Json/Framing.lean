import Debitmetre.Wire.Json.Printed
import Debitmetre.Wire.Json.Prefix
import Debitmetre.Wire.Sse

/-!
# JSON texts are not event streams

A line feed or carriage return in a JSON text stands between two tokens, and no
token starts with a `d`.  So no line of a JSON text is a `data` field, and read
as an event stream the text dispatches no event.
-/

namespace Wire.Json

open Ascii

/-- No token that may come next starts with the first octet of a `data` field. -/
def State.RefusesData (s : State) : Prop := step s 0x64 = none

/-- What starts a `data` field cannot come after a value. -/
theorem afterValue_refuses (stack : List Frame) (value : Json) :
    afterValue stack value 0x64 = none := by
  rcases stack with _ | ⟨_ | _ | _, _⟩ <;> rfl

theorem refusesData_start : texts.start.RefusesData := rfl

/-- A blank octet leaves the state between tokens. -/
theorem afterValue_blank {stack : List Frame} {value : Json} {b : UInt8} {next : State}
    (blank : isWs b = true) (stepped : afterValue stack value b = some next) :
    next.RefusesData := by
  simp only [afterValue, blank, ↓reduceIte, Option.some.injEq] at stepped
  subst next
  exact afterValue_refuses stack value

theorem isWs_of_newline {b : UInt8} (newline : b = lf ∨ b = cr) : isWs b = true := by
  rcases newline with rfl | rfl <;> rfl

theorem newline_lt {b : UInt8} (newline : b = lf ∨ b = cr) : b < 0x20 := by
  rcases newline with rfl | rfl <;> decide

/-- After a newline no token starts with a `d`. -/
theorem refusesData_of_newline {s next : State} {b : UInt8} (newline : b = lf ∨ b = cr)
    (stepped : step s b = some next) : next.RefusesData := by
  obtain ⟨stack, mode⟩ := s
  have blank := isWs_of_newline newline
  cases mode with
  | value | firstItem | firstMember | nextMember | nameSeparator =>
      simp only [step, blank, ↓reduceIte, Option.some.injEq] at stepped
      subst next
      rfl
  | text role phase read =>
      have notQuote : b ≠ quote := by rcases newline with rfl | rfl <;> decide
      simp only [step, notQuote, and_false, ↓reduceIte,
        strStep_control phase b (newline_lt newline), Option.map_none, reduceCtorEq] at stepped
  | number phase read =>
      simp only [step, numStep_control phase b (newline_lt newline)] at stepped
      obtain ⟨literal, _, ended⟩ := Option.bind_eq_some_iff.mp stepped
      exact afterValue_blank blank ended
  | word word read =>
      simp only [step] at stepped
      split at stepped
      · rename_i spelled
        have member := List.mem_of_getElem? spelled
        have absent : Visible word.spelling := by cases word <;> decide
        exact absurd (absent b member) (UInt8.not_le.mpr (newline_lt newline))
      · cases stepped
  | done value => exact afterValue_blank blank stepped

/-- A JSON text and an event stream read side by side: no data has been read,
and no line starts as a `data` field does. -/
structure Quiet (s : State) (reader : Sse.Reader) : Prop where
  data : reader.data = []
  starting : reader.line = [] → s.RefusesData
  started : reader.line.head? ≠ some 'd'

/-- A line that does not start with the name of the field adds no data. -/
theorem addLine_of_quiet {data line : List Char} (started : line.head? ≠ some 'd') :
    Sse.addLine data line = data := by
  rw [Sse.addLine, if_neg]
  intro field
  cases line with
  | nil => cases field
  | cons c line =>
      rw [List.takeWhile_cons] at field
      split at field
      · injection field with first _
        exact started (congrArg some first)
      · cases field

/-- The end of a line keeps quiet. -/
theorem Quiet.endLine {s next : State} {reader : Sse.Reader} (quiet : Quiet s reader)
    (refuses : next.RefusesData) (afterCr : Bool) :
    Quiet next (reader.endLine afterCr).1 ∧ (reader.endLine afterCr).2 = [] := by
  obtain ⟨line, data, before⟩ := reader
  obtain ⟨empty, _, started⟩ := quiet
  change data = [] at empty
  subst empty
  unfold Sse.Reader.endLine
  split
  · exact ⟨⟨rfl, fun _ => refuses, nofun⟩, rfl⟩
  · exact ⟨⟨addLine_of_quiet started, fun _ => refuses, nofun⟩, rfl⟩

/-- A character of a JSON text keeps quiet. -/
theorem Quiet.step {s next : State} {reader : Sse.Reader} {c : Char} (quiet : Quiet s reader)
    (read : texts.runFrom s (String.utf8EncodeChar c) = some next) :
    Quiet next (reader.step c).1 ∧ (reader.step c).2 = [] := by
  have single : ∀ b, String.utf8EncodeChar c = [b] → Wire.Json.step s b = some next := by
    intro b encoded
    rw [encoded] at read
    simpa only [Automaton.runFrom_cons, Automaton.runFrom_nil, texts_step, Option.bind_fun_some]
      using read
  unfold Sse.Reader.step
  split
  · rename_i second
    have refuses := refusesData_of_newline (.inl rfl) (single lf (second.1 ▸ rfl))
    exact ⟨⟨quiet.data, fun _ => refuses, quiet.started⟩, rfl⟩
  · split
    · rename_i newline
      exact quiet.endLine (refusesData_of_newline (.inl rfl) (single lf (newline ▸ rfl))) false
    · split
      · rename_i newline
        exact quiet.endLine (refusesData_of_newline (.inr rfl) (single cr (newline ▸ rfl))) true
      · refine ⟨⟨quiet.data, fun empty => ?_, ?_⟩, rfl⟩
        · exact absurd empty (List.append_ne_nil_of_right_ne_nil _ (List.cons_ne_nil _ _))
        · cases started : reader.line with
          | cons first line =>
              have other := quiet.started
              rwa [started] at other
          | nil =>
              intro first
              have stepped := single 0x64 (Option.some.inj first ▸ rfl)
              rw [quiet.starting started] at stepped
              cases stepped

/-- **A text that is read as JSON dispatches nothing.** -/
theorem Quiet.run {text : List Char} : ∀ {s last : State} {reader : Sse.Reader}, Quiet s reader →
    texts.runFrom s (text.flatMap String.utf8EncodeChar) = some last →
      (reader.run text).2 = [] := by
  induction text with
  | nil => intro s last reader _ _; rfl
  | cons c text ih =>
      intro s last reader quiet read
      rw [List.flatMap_cons] at read
      obtain ⟨next, first, read⟩ := texts.runFrom_append_eq_some read
      obtain ⟨still, silent⟩ := quiet.step first
      rw [Sse.Reader.run, silent, List.nil_append]
      exact ih still read

/-- **A JSON text dispatches no event.** -/
theorem events_of_parse {text : String} {value : Json} (whole : parse (utf8 text) = some value) :
    Sse.events text = [] := by
  obtain ⟨last, read, _⟩ := Option.bind_eq_some_iff.mp whole
  rw [utf8_eq] at read
  have unmarked : Sse.stripBom text.toList = text.toList := by
    unfold Sse.stripBom
    split
    · rename_i marked
      rw [marked, List.flatMap_cons] at read
      obtain ⟨middle, first, _⟩ := texts.runFrom_append_eq_some read
      cases first
    · rfl
  rw [Sse.events, unmarked, Quiet.run ⟨rfl, fun _ => refusesData_start, by decide⟩ read,
    List.map_nil]

end Wire.Json
