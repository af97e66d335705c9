import Debitmetre.Wire.Decoding
import Debitmetre.Wire.Json.Framing

/-!
# Streams and documents that are cut off

The events of a stream that is cut off are the first events of the stream, and
octets hold an event if they reach through the blank line that dispatches it.  A
JSON text that is not a number has no other value when it is cut off, and reads
as no event stream however it is cut off.  A reader that may yet be given a line
feed does not take a carriage return that comes last for the end of a line.  A
stream whose lines are all fields reads as no JSON text, however it is cut off.
-/

namespace Wire.Sse

theorem stripBom_starts {first text : List Char} (cut : first <+: text) :
    stripBom first <+: stripBom text := by
  obtain ⟨rest, rfl⟩ := cut
  cases first with
  | nil => exact List.nil_prefix
  | cons c first =>
      rw [List.cons_append]
      by_cases mark : c = '\uFEFF'
      · subst mark
        exact List.prefix_append _ _
      · have plain (text : List Char) : stripBom (c :: text) = c :: text := by
          unfold stripBom
          split
          · rename_i same
            exact absurd (List.cons.inj same).1 mark
          · rfl
        rw [plain, plain]
        exact List.prefix_append _ _

/-- The events of a text that is cut off are the first events of the text. -/
theorem events_starts {first text : String} (cut : first.toList <+: text.toList) :
    events first <+: events text := by
  obtain ⟨rest, joined⟩ := stripBom_starts cut
  rw [events, events, ← joined, Reader.run_append, List.map_append]
  exact List.prefix_append _ _

/-- Octets reach through the blank line that dispatches an event with some data. -/
def Holds (octets : Bytes) (data : String) : Prop :=
  ∃ text : String, utf8 text <+: octets ∧ data ∈ events text

/-- The events some octets hold are those of the text that can be decoded. -/
theorem holds_iff {octets : Bytes} {data : String} :
    Holds octets data ↔ data ∈ events (decoded octets) := by
  constructor
  · rintro ⟨text, starts, member⟩
    exact (events_starts (prefix_decoded starts)).subset member
  · intro member
    exact ⟨decoded octets, decoded_starts octets, member⟩

/-- The part of a text whose lines have ended for sure: after a carriage return
that comes last a line feed may follow. -/
def settled (text : String) : String :=
  if text.toList.getLast? = some '\r' then String.ofList text.toList.dropLast else text

theorem settled_starts (text : String) : (settled text).toList <+: text.toList := by
  rw [settled]
  split
  · rw [String.toList_ofList]
    exact List.dropLast_prefix text.toList
  · exact List.prefix_refl _

/-- What is settled before a cut starts what is settled without it. -/
theorem settled_starts_of_cut {first text : String} (cut : first.toList <+: text.toList) :
    (settled first).toList <+: (settled text).toList := by
  obtain ⟨rest, joined⟩ := cut
  cases rest with
  | nil =>
      rw [List.append_nil, String.toList_inj] at joined
      subst joined
      exact List.prefix_refl _
  | cons c rest =>
      apply (settled_starts first).trans
      rw [settled]
      split
      · rw [String.toList_ofList, ← joined, List.dropLast_append_cons]
        exact List.prefix_append _ _
      · exact ⟨c :: rest, joined⟩

/-- Octets reach past the blank line that dispatches an event with some data: a
carriage return that comes last does not end it. -/
def Dispatched (octets : Bytes) (data : String) : Prop :=
  ∃ text : String, utf8 text <+: octets ∧ data ∈ events (settled text)

/-- The events that are dispatched are those of what is settled of the text that can
be decoded. -/
theorem dispatched_iff {octets : Bytes} {data : String} :
    Dispatched octets data ↔ data ∈ events (settled (decoded octets)) := by
  constructor
  · rintro ⟨text, starts, member⟩
    exact (events_starts (settled_starts_of_cut (prefix_decoded starts))).subset member
  · intro member
    exact ⟨decoded octets, decoded_starts octets, member⟩

/-- What is dispatched is held. -/
theorem Dispatched.holds {octets : Bytes} {data : String} (dispatched : Dispatched octets data) :
    Holds octets data := by
  obtain ⟨text, starts, member⟩ := dispatched
  exact ⟨text, starts, (events_starts (settled_starts text)).subset member⟩

/-- A text that a line feed ends is settled. -/
theorem settled_of_getLast {text : String} (ends : text.toList.getLast? ≠ some '\r') :
    settled text = text := by
  rw [settled, if_neg ends]

/-- The octets of a byte order mark. -/
def byteOrderMark : Bytes := utf8 "\uFEFF"

/-- The end of a line. -/
def isNewline (c : Char) : Bool := c == '\n' || c == '\r'

/-- The lines of a text.  Between a carriage return and a line feed stands one that
is blank. -/
def lines (text : String) : List (List Char) := (stripBom text.toList).splitOnP isNewline

/-- The name of the field in a line: none in a blank line or a comment. -/
def fieldName (line : List Char) : List Char := line.takeWhile (· ≠ ':')

/-- The names of the fields a stream is made of. -/
def fieldNames : List (List Char) :=
  ["event", "data", "id", "retry"].map String.toList

/-- Every line of a text is blank, a comment or a field. -/
def OnlyFields (text : String) : Prop :=
  ∀ line ∈ lines text, fieldName line = [] ∨ fieldName line ∈ fieldNames

end Wire.Sse

namespace Wire.Json

open Ascii

/-- After a value a text goes on with whitespace, and stays where it is. -/
theorem eq_of_done {value : Json} {rest : Bytes} {last : State}
    (read : texts.runFrom ⟨[], .done value⟩ rest = some last) : last = ⟨[], .done value⟩ := by
  induction rest with
  | nil => exact (Option.some.inj read).symm
  | cons b rest ih =>
      have blank := blank_of_done read b List.mem_cons_self
      have stays : step ⟨[], .done value⟩ b = some ⟨[], .done value⟩ := by
        simp only [step, afterValue, blank, ↓reduceIte]
      rw [Automaton.runFrom_cons, texts_step, stays, Option.bind_some] at read
      exact ih read

/-- A text that is a number as far as it is read. -/
def State.Numeric (s : State) : Prop :=
  s.stack = [] ∧
    ((∃ phase read, s.mode = .number phase read) ∨ ∃ literal, s.mode = .done (.num literal))

theorem numeric_step {s next : State} {b : UInt8} (numeric : s.Numeric)
    (stepped : step s b = some next) : next.Numeric := by
  have ended {literal : NumLit} (stepped : afterValue [] (.num literal) b = some next) :
      next.Numeric := by
    unfold afterValue at stepped
    by_cases blank : isWs b
    · simp only [blank, ↓reduceIte, Option.some.injEq] at stepped
      subst next
      exact ⟨rfl, .inr ⟨literal, rfl⟩⟩
    · simp only [blank, Bool.false_eq_true, ↓reduceIte, reduceCtorEq] at stepped
  obtain ⟨stack, mode⟩ := s
  obtain ⟨empty, ⟨phase, read, number⟩ | ⟨literal, done⟩⟩ := numeric
  · change stack = [] at empty
    change mode = _ at number
    subst empty number
    simp only [step] at stepped
    split at stepped
    · cases stepped
      exact ⟨rfl, .inl ⟨_, _, rfl⟩⟩
    · obtain ⟨literal, -, stepped⟩ := Option.bind_eq_some_iff.mp stepped
      exact ended stepped
  · change stack = [] at empty
    change mode = _ at done
    subst empty done
    exact ended stepped

/-- **A text that is not a number has no other value when it is cut off.** -/
theorem parse_of_cut {text before : Bytes} {value : Json} (whole : parse text = some value)
    (notNumber : ∀ literal, value ≠ .num literal) (cut : before <+: text) :
    parse before = none ∨ parse before = some value := by
  obtain ⟨rest, rfl⟩ := cut
  obtain ⟨last, read, result⟩ := Option.bind_eq_some_iff.mp whole
  obtain ⟨middle, first, second⟩ := texts.runFrom_append_eq_some read
  rw [parse, first, Option.bind_some]
  obtain ⟨stack, mode⟩ := middle
  cases stack with
  | cons top stack => exact .inl rfl
  | nil =>
      have numeric (middle : State) (second : texts.runFrom middle rest = some last)
          (numeric : middle.Numeric) : False := by
        have number := texts.runFrom_invariant
          (fun _ _ _ (before : State.Numeric _) stepped => numeric_step before stepped) numeric
          second
        obtain ⟨stack, mode⟩ := last
        obtain ⟨empty, ⟨phase, read, number⟩ | ⟨literal, done⟩⟩ := number
        · change stack = [] at empty
          change mode = _ at number
          subst empty number
          obtain ⟨literal, -, same⟩ := Option.map_eq_some_iff.mp result
          exact notNumber literal same.symm
        · change stack = [] at empty
          change mode = _ at done
          subst empty done
          exact notNumber literal (Option.some.inj result).symm
      cases mode with
      | done held =>
          have same := eq_of_done second
          subst same
          exact .inr result
      | number phase read => exact (numeric _ second ⟨rfl, .inl ⟨phase, read, rfl⟩⟩).elim
      | value | firstItem | firstMember | nextMember | nameSeparator | text | word => exact .inl rfl

/-- What a text is read as before a cut, unless that is a number, is what it is read
as without the cut. -/
theorem eq_of_parse_cut {text before : Bytes} {value first : Json} (whole : parse text = some value)
    (cut : before <+: text) (early : parse before = some first)
    (notNumber : ∀ literal, first ≠ .num literal) : first = value := by
  obtain ⟨rest, rfl⟩ := cut
  obtain ⟨middle, read, result⟩ := Option.bind_eq_some_iff.mp early
  rw [parse, texts.runFrom_append_of_eq read] at whole
  obtain ⟨last, second, final⟩ := Option.bind_eq_some_iff.mp whole
  obtain ⟨stack, mode⟩ := middle
  cases stack with
  | cons top stack => cases result
  | nil =>
      cases mode with
      | done held =>
          cases eq_of_done second
          exact Option.some.inj (result.symm.trans final)
      | number phase read =>
          obtain ⟨literal, -, same⟩ := Option.map_eq_some_iff.mp result
          exact absurd same.symm (notNumber literal)
      | value | firstItem | firstMember | nextMember | nameSeparator | text | word => cases result

/-- However a JSON text is cut off, it dispatches no event. -/
theorem events_of_cut {text first : String} {value : Json}
    (whole : parse (utf8 text) = some value) (cut : first.toList <+: text.toList) :
    Sse.events first = [] := by
  have silent := Sse.events_starts cut
  rw [events_of_parse whole] at silent
  exact List.prefix_nil.mp silent

/-- A text that goes on with what starts no value, after whitespace. -/
theorem parse_eq_none_of_refused {blanks rest octets : Bytes} (blank : ∀ b ∈ blanks, isWs b = true)
    (refused : ∀ b ∈ rest.head?, step texts.start b = none) (cut : octets <+: blanks ++ rest) :
    parse octets = none := by
  induction blanks generalizing octets with
  | nil =>
      cases octets with
      | nil => rfl
      | cons b octets =>
          obtain ⟨more, joined⟩ := cut
          have first := refused b (by rw [← List.nil_append rest, ← joined]; rfl)
          rw [parse, Automaton.runFrom_cons, texts_step, first, Option.bind_none, Option.bind_none]
  | cons w blanks ih =>
      obtain ⟨space, others⟩ := List.forall_mem_cons.mp blank
      cases octets with
      | nil => rfl
      | cons b octets =>
          rw [List.cons_append, List.cons_prefix_cons] at cut
          obtain ⟨rfl, cut⟩ := cut
          have stays : step texts.start b = some texts.start := by
            change (if isWs b = true then some texts.start else beginValue [] b) = _
            rw [if_pos space]
          have skipped : parse (b :: octets) = parse octets := by
            rw [parse, Automaton.runFrom_cons, texts_step, stays, Option.bind_some, parse]
          rw [skipped]
          exact ih others cut

/-- What comes first in a text stands in a line of its own. -/
theorem exists_line {text : List Char} {c : Char}
    (first : (text.dropWhile Sse.isNewline).head? = some c) :
    ∃ line ∈ text.splitOnP Sse.isNewline, line.head? = some c := by
  induction text with
  | nil => cases first
  | cons a text ih =>
      rw [List.splitOnP_cons_eq_if_modifyHead]
      by_cases newline : Sse.isNewline a = true
      · rw [List.dropWhile_cons_of_pos newline] at first
        obtain ⟨line, member, starts⟩ := ih first
        rw [if_pos newline]
        exact ⟨line, List.mem_cons_of_mem _ member, starts⟩
      · rw [List.dropWhile_cons_of_neg newline] at first
        obtain ⟨line, lines, shape⟩ := List.exists_cons_of_ne_nil
          (List.splitOnP_ne_nil Sse.isNewline text)
        rw [if_neg newline, shape, List.modifyHead_cons]
        exact ⟨a :: line, List.mem_cons_self, first⟩

/-- A comment or a field starts no JSON value. -/
theorem refused_of_field {line : List Char} {c : Char} (starts : line.head? = some c)
    (field : Sse.fieldName line = [] ∨ Sse.fieldName line ∈ Sse.fieldNames) :
    ∀ b ∈ (String.utf8EncodeChar c).head?, step texts.start b = none := by
  obtain ⟨rest, rfl⟩ : ∃ rest, line = c :: rest := by
    cases line with
    | nil => cases starts
    | cons first rest => exact ⟨rest, by rw [Option.some.inj starts]⟩
  have first : c ∈ [':', 'e', 'd', 'i', 'r'] := by
    unfold Sse.fieldName at field
    by_cases comment : c = ':'
    · subst comment
      exact List.mem_cons_self
    · have named : (c :: rest).takeWhile (· ≠ ':') = c :: rest.takeWhile (· ≠ ':') :=
        List.takeWhile_cons_of_pos (decide_eq_true comment)
      rw [named] at field
      rcases field with none | field
      · cases none
      · simp only [Sse.fieldNames, List.map_cons, List.map_nil, List.mem_cons, List.not_mem_nil,
          or_false] at field
        rcases field with same | same | same | same <;> rw [(List.cons.inj same).1] <;> decide
  intro b head
  simp only [List.mem_cons, List.not_mem_nil, or_false] at first
  rcases first with rfl | rfl | rfl | rfl | rfl <;> cases head <;> rfl

/-- **However a stream of fields is cut off, it is no JSON text.** -/
theorem parse_eq_none_of_onlyFields {text : String} (fields : Sse.OnlyFields text)
    {octets : Bytes} (cut : octets <+: utf8 text) : parse octets = none := by
  have split : utf8 text =
      (text.toList.takeWhile Sse.isNewline).flatMap String.utf8EncodeChar ++
        (text.toList.dropWhile Sse.isNewline).flatMap String.utf8EncodeChar := by
    rw [← List.flatMap_append, List.takeWhile_append_dropWhile, utf8_eq]
  rw [split] at cut
  apply parse_eq_none_of_refused ?_ ?_ cut
  · intro b member
    obtain ⟨c, newline, encoded⟩ := List.mem_flatMap.mp member
    have ends := List.all_eq_true.mp List.all_takeWhile c newline
    rw [Sse.isNewline, Bool.or_eq_true, beq_iff_eq, beq_iff_eq] at ends
    rcases ends with rfl | rfl <;> rw [List.mem_singleton.mp encoded] <;> rfl
  · cases first : text.toList.dropWhile Sse.isNewline with
    | nil => exact nofun
    | cons c rest =>
        have shape : ((c :: rest).flatMap String.utf8EncodeChar).head? =
            (String.utf8EncodeChar c).head? := by
          rw [List.flatMap_cons, List.head?_append]
          cases encoded : String.utf8EncodeChar c with
          | nil =>
              have length := String.length_utf8EncodeChar c
              rw [encoded] at length
              exact absurd length.symm (Nat.ne_of_gt (Char.utf8Size_pos c))
          | cons b more => rfl
        rw [shape]
        by_cases mark : c = '\uFEFF'
        · subst mark
          intro b head
          cases head
          rfl
        · have unmarked : Sse.stripBom text.toList = text.toList := by
            unfold Sse.stripBom
            split
            · rename_i rest' marked
              rw [marked] at first
              exact absurd (List.cons.inj first).1.symm mark
            · rfl
          have head : (text.toList.dropWhile Sse.isNewline).head? = some c := by rw [first]; rfl
          obtain ⟨line, member, starts⟩ := exists_line head
          apply refused_of_field starts
          exact fields line (by rw [Sse.lines, unmarked]; exact member)

end Wire.Json
