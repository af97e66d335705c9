import Debitmetre.Wire.Json.Machine

/-!
# Prefixes of JSON texts

The text of an object or array leaves a bracket open until its last visible
octet, so no shorter piece of it is a JSON text.  Nor does what follows such a
piece repair it: an object's text appended to an open state either is refused or
leaves the bracket open (`Wire.Json.open_append_object`).
-/

namespace Wire.Json

open Ascii

/-- Some array or object has been opened and not closed. -/
def State.Open (s : State) : Prop := s.stack ≠ []

theorem State.result?_of_open {s : State} (opened : s.Open) : s.result? = none := by
  obtain ⟨stack, mode⟩ := s
  obtain ⟨top, stack, rfl⟩ := List.exists_cons_of_ne_nil opened
  rfl

/-- Either a bracket is open, or the value is complete. -/
def State.Bracketed (s : State) : Prop := s.Open ∨ ∃ value, s.mode = .done value

theorem afterValue_bracketed {stack : List Frame} {value : Json} {b : UInt8} {next : State}
    (stepped : afterValue stack value b = some next) : next.Bracketed := by
  unfold afterValue at stepped
  split at stepped
  · cases stepped
    exact .inr ⟨value, rfl⟩
  · split at stepped
    · cases stepped
    · split at stepped
      · cases stepped
        exact .inl (List.cons_ne_nil _ _)
      · split at stepped
        · cases stepped
          exact .inr ⟨_, rfl⟩
        · cases stepped
    · cases stepped
    · split at stepped
      · cases stepped
        exact .inl (List.cons_ne_nil _ _)
      · split at stepped
        · cases stepped
          exact .inr ⟨_, rfl⟩
        · cases stepped

theorem beginValue_open {stack : List Frame} {b : UInt8} {next : State} (opened : stack ≠ [])
    (stepped : beginValue stack b = some next) : next.Open := by
  unfold beginValue at stepped
  repeat' split at stepped
  all_goals first
    | (cases stepped; first | exact List.cons_ne_nil _ _ | exact opened)
    | (obtain ⟨phase, _, rfl⟩ := Option.map_eq_some_iff.mp stepped; exact opened)

/-- A step keeps a bracket open or completes a value. -/
theorem step_bracketed {s next : State} {b : UInt8} (before : s.Bracketed)
    (stepped : step s b = some next) : next.Bracketed := by
  obtain ⟨stack, mode⟩ := s
  rcases before with opened | ⟨value, rfl⟩
  · cases mode with
    | done value => exact afterValue_bracketed stepped
    | number phase read =>
        simp only [step] at stepped
        split at stepped
        · cases stepped
          exact .inl opened
        · obtain ⟨literal, _, stepped⟩ := Option.bind_eq_some_iff.mp stepped
          exact afterValue_bracketed stepped
    | value =>
        simp only [step] at stepped
        split at stepped
        · cases stepped
          exact .inl opened
        · exact .inl (beginValue_open opened stepped)
    | firstItem =>
        simp only [step] at stepped
        repeat' split at stepped
        · cases stepped
          exact .inl opened
        · cases stepped
          exact .inr ⟨_, rfl⟩
        · cases stepped
        · exact .inl (beginValue_open opened stepped)
    | firstMember =>
        simp only [step] at stepped
        repeat' split at stepped
        · cases stepped
          exact .inl opened
        · cases stepped
          exact .inr ⟨_, rfl⟩
        · cases stepped
        · cases stepped
          exact .inl opened
        · cases stepped
    | nextMember =>
        simp only [step] at stepped
        repeat' split at stepped
        · cases stepped
          exact .inl opened
        · cases stepped
          exact .inl opened
        · cases stepped
    | nameSeparator key =>
        simp only [step] at stepped
        repeat' split at stepped
        · cases stepped
          exact .inl opened
        · cases stepped
          exact .inl (List.cons_ne_nil _ _)
        · cases stepped
        · cases stepped
    | text role phase read =>
        simp only [step] at stepped
        split at stepped
        · obtain ⟨literal, _, rfl⟩ := Option.map_eq_some_iff.mp stepped
          cases role <;> exact .inl opened
        · obtain ⟨phase, _, rfl⟩ := Option.map_eq_some_iff.mp stepped
          exact .inl opened
    | word word read =>
        simp only [step] at stepped
        split at stepped
        · cases stepped
          split <;> exact .inl opened
        · cases stepped
  · exact afterValue_bracketed stepped

/-- After a complete text only whitespace is read. -/
theorem blank_of_done {value : Json} {rest : Bytes} {last : State}
    (read : texts.runFrom ⟨[], .done value⟩ rest = some last) : ∀ b ∈ rest, isWs b = true := by
  induction rest with
  | nil => intro b member; cases member
  | cons b rest ih =>
      rw [Automaton.runFrom_cons, Option.bind_eq_some_iff] at read
      obtain ⟨next, stepped, read⟩ := read
      rw [texts_step, step] at stepped
      unfold afterValue at stepped
      by_cases blank : isWs b
      · simp only [blank, ↓reduceIte, Option.some.injEq] at stepped
        subst next
        intro other member
        rcases List.mem_cons.mp member with rfl | member
        · exact blank
        · exact ih read other member
      · simp only [blank, Bool.false_eq_true, ↓reduceIte, reduceCtorEq] at stepped

/-- What starts with a bracket is bracketed as far as it is read. -/
theorem bracketed_of_runFrom {b : UInt8} (bracket : b = lbrace ∨ b = lbracket) {text : Bytes}
    {last : State} (read : texts.runFrom texts.start (b :: text) = some last) :
    last.Bracketed := by
  have started : ∃ opened : State, step texts.start b = some opened ∧ opened.Bracketed := by
    rcases bracket with rfl | rfl
    · exact ⟨_, rfl, .inl (List.cons_ne_nil _ _)⟩
    · exact ⟨_, rfl, .inl (List.cons_ne_nil _ _)⟩
  obtain ⟨opened, stepped, bracketed⟩ := started
  rw [Automaton.runFrom_cons, texts_step, stepped, Option.bind_some] at read
  exact texts.runFrom_invariant (fun s c next before stepped => step_bracketed before stepped)
    bracketed read

/-- The text of an array or object keeps a bracket open until its last visible
octet. -/
theorem open_of_append {b : UInt8} (bracket : b = lbrace ∨ b = lbracket) {before rest : Bytes}
    {middle last : State} (first : texts.runFrom texts.start (b :: before) = some middle)
    (second : texts.runFrom middle rest = some last) (visible : ∃ c ∈ rest, isWs c = false) :
    middle.Open := by
  have bracketed := bracketed_of_runFrom bracket first
  obtain ⟨stack, mode⟩ := middle
  rcases bracketed with opened | ⟨value, rfl⟩
  · exact opened
  · intro closed
    change stack = [] at closed
    subst closed
    obtain ⟨c, member, visible⟩ := visible
    rw [blank_of_done second c member] at visible
    cases visible

/-- Reading the text of an array or object ends where its bracket is closed. -/
theorem done_of_parse {b : UInt8} (bracket : b = lbrace ∨ b = lbracket) {text : Bytes}
    {value : Json} (whole : parse (b :: text) = some value) :
    texts.runFrom texts.start (b :: text) = some ⟨[], .done value⟩ := by
  obtain ⟨⟨stack, mode⟩, read, result⟩ := Option.bind_eq_some_iff.mp whole
  rcases bracketed_of_runFrom bracket read with opened | ⟨held, done⟩
  · rw [State.result?_of_open opened] at result
    cases result
  · change mode = .done held at done
    subst done
    cases stack with
    | nil =>
        cases result
        exact read
    | cons top stack => cases result

/-- No proper prefix of an object's or array's text is a JSON text. -/
theorem parse_prefix_eq_none {b : UInt8} (bracket : b = lbrace ∨ b = lbracket)
    {before rest : Bytes} {value : Json} (whole : parse (b :: before ++ rest) = some value)
    (visible : ∃ c ∈ rest, isWs c = false) : parse (b :: before) = none := by
  obtain ⟨last, read, _⟩ := Option.bind_eq_some_iff.mp whole
  obtain ⟨middle, first, second⟩ := texts.runFrom_append_eq_some read
  rw [parse, first, Option.bind_some]
  exact State.result?_of_open (open_of_append bracket first second visible)

/-- Reading below an open bracket, as long as one stays open. -/
theorem runFrom_over (below : List Frame) :
    ∀ (text : Bytes) (s : State), s.Open →
      (∀ before rest middle, text = before ++ rest → rest ≠ [] →
        texts.runFrom s before = some middle → middle.Open) →
      texts.runFrom (s.over below) text = (texts.runFrom s text).map (State.over · below) := by
  intro text
  induction text with
  | nil => intro s _ _; rfl
  | cons b text ih =>
      intro s opened always
      rw [Automaton.runFrom_cons, Automaton.runFrom_cons, texts_step, texts_step,
        step_over s below b opened]
      cases stepped : step s b with
      | none => rfl
      | some next =>
          rw [Option.map_some, Option.bind_some, Option.bind_some]
          by_cases ended : text = []
          · subst ended
            rfl
          · apply ih next
            · exact always [b] text next rfl ended
                (by rw [Automaton.runFrom_cons]; exact Option.bind_eq_some_iff.mpr
                      ⟨next, stepped, rfl⟩)
            · intro before rest middle split more read
              apply always (b :: before) rest middle (by rw [split, List.cons_append]) more
              rw [Automaton.runFrom_cons]
              exact Option.bind_eq_some_iff.mpr ⟨next, stepped, read⟩

/-- An opening brace starts an object or is part of a string. -/
theorem step_lbrace {s next : State} (stepped : step s lbrace = some next) :
    next = ⟨.members [] :: s.stack, .firstMember⟩ ∨
      ∃ role read, next = ⟨s.stack, .text role .plain read⟩ := by
  obtain ⟨stack, mode⟩ := s
  cases mode with
  | value => exact .inl (Option.some.inj stepped).symm
  | firstItem => exact .inl (Option.some.inj stepped).symm
  | firstMember => cases stepped
  | nextMember => cases stepped
  | nameSeparator key => cases stepped
  | text role phase read =>
      cases phase with
      | plain => exact .inr ⟨role, _, (Option.some.inj stepped).symm⟩
      | escape => cases stepped
      | hex remaining => cases stepped
  | number phase read =>
      have ended : (numbers.lexeme? read).bind
          (fun literal => afterValue stack (.num literal) lbrace) = some next := by
        cases phase <;> exact stepped
      obtain ⟨literal, _, refused⟩ := Option.bind_eq_some_iff.mp ended
      rcases stack with _ | ⟨_ | _ | _, _⟩ <;> cases refused
  | word word read =>
      simp only [step] at stepped
      split at stepped
      · rename_i spelled
        have absent : lbrace ∉ word.spelling := by cases word <;> decide
        exact (absent (List.mem_of_getElem? spelled)).elim
      · cases stepped
  | done value => rcases stack with _ | ⟨_ | _ | _, _⟩ <;> cases stepped

/-- After the closing quote of a string no ordinary character is read. -/
theorem step_endText_eq_none (stack : List Frame) (literal : StrLit) (role : Role) {c : UInt8}
    (visible : isWs c = false) (ordinary : c ∉ [colon, comma, rbrace, rbracket]) :
    step (endText stack literal role) c = none := by
  simp only [List.mem_cons, List.not_mem_nil, or_false, not_or] at ordinary
  obtain ⟨notColon, notComma, notBrace, notBracket⟩ := ordinary
  cases role with
  | key => simp only [endText, step, visible, notColon, Bool.false_eq_true, ↓reduceIte]
  | value =>
      simp only [endText, step, afterValue, visible, Bool.false_eq_true, ↓reduceIte]
      rcases stack with _ | ⟨_ | _ | _, _⟩ <;>
        simp only [notComma, notBrace, notBracket, ↓reduceIte]

/-- **Nothing repairs an open bracket.** A piece of an object's text, read where
a bracket is already open, is refused or leaves a bracket open.  Where a value
may start, the piece is read as it would be alone, below its own brackets.
Inside a string its first quote ends the string, and the key's first character
is refused. -/
theorem open_append_object {s next last : State} {c : UInt8} {piece rest body : Bytes}
    (opened : s.Open) (visible : isWs c = false) (ordinary : c ∉ [colon, comma, rbrace, rbracket])
    (split : piece ++ rest = lbrace :: quote :: c :: (body ++ [rbrace]))
    (whole : texts.runFrom texts.start (lbrace :: quote :: c :: (body ++ [rbrace])) = some last)
    (read : texts.runFrom s piece = some next) : next.Open := by
  cases piece with
  | nil =>
      cases read
      exact opened
  | cons b piece =>
      rw [List.cons_append] at split
      injection split with first split
      subst first
      rw [Automaton.runFrom_cons, Option.bind_eq_some_iff] at read
      obtain ⟨entered, stepped, read⟩ := read
      rcases step_lbrace stepped with rfl | ⟨role, characters, rfl⟩
      · have alone := runFrom_over s.stack piece ⟨[.members []], .firstMember⟩
          (List.cons_ne_nil _ _) (by
            intro before after middle parts more first
            subst parts
            have closing : rbrace ∈ after ++ rest := by
              have ending := congrArg List.getLast? split
              rw [List.append_assoc, List.getLast?_append_of_ne_nil _
                (List.append_ne_nil_of_left_ne_nil more rest)] at ending
              apply List.mem_of_getLast?
              rw [ending, ← List.cons_append, ← List.cons_append, List.getLast?_concat]
            have second : texts.runFrom middle (after ++ rest) = some last := by
              rw [← split, List.append_assoc, ← List.cons_append] at whole
              have opening : texts.runFrom texts.start (lbrace :: before) = some middle := first
              rwa [texts.runFrom_append_of_eq opening] at whole
            exact open_of_append (.inl rfl) first second ⟨rbrace, closing, rfl⟩)
        change texts.runFrom (State.over ⟨[.members []], .firstMember⟩ s.stack) piece = _ at read
        rw [alone] at read
        obtain ⟨inner, _, rfl⟩ := Option.map_eq_some_iff.mp read
        exact List.append_ne_nil_of_right_ne_nil _ opened
      · cases piece with
        | nil =>
            cases read
            exact opened
        | cons b piece =>
            rw [List.cons_append] at split
            injection split with first split
            subst first
            rw [Automaton.runFrom_cons, Option.bind_eq_some_iff] at read
            obtain ⟨ended, stepped, read⟩ := read
            rw [texts_step, step_text_quote] at stepped
            obtain ⟨literal, _, rfl⟩ := Option.map_eq_some_iff.mp stepped
            cases piece with
            | nil =>
                cases read
                cases role <;> exact opened
            | cons b piece =>
                rw [List.cons_append] at split
                injection split with first split
                subst first
                rw [Automaton.runFrom_cons, texts_step,
                  step_endText_eq_none _ _ _ visible ordinary] at read
                cases read

end Wire.Json
