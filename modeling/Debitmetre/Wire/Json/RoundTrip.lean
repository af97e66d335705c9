import Debitmetre.Wire.Json.Machine

/-!
# Every tree is read back from its text

Reading the text of a tree where a value may start completes that tree and
leaves the stack as it was (`Wire.Json.read_print`).  A number is complete only
once the octet after it is seen, so the states reached are described by what
they do next (`Wire.Json.State.Completes`).
-/

namespace Wire.Json

open Ascii

/-- The state has read a value and nothing after it. -/
inductive State.Completes : State → List Frame → Json → Prop
  | done (stack : List Frame) (value : Json) : Completes ⟨stack, .done value⟩ stack value
  | number (stack : List Frame) (phase : NumPhase) (literal : NumLit) :
      Completes ⟨stack, .number phase literal.text⟩ stack (.num literal)

/-- The octets that may follow a value. -/
def Delimiter (b : UInt8) : Prop := isWs b = true ∨ b = comma ∨ b = rbracket ∨ b = rbrace

/-- No number continues with whitespace or a structural character. -/
theorem numStep_delimiter (phase : NumPhase) {b : UInt8} (delimiter : Delimiter b) :
    numStep phase b = none := by
  have cases : b = tab ∨ b = lf ∨ b = cr ∨ b = space ∨ b = comma ∨ b = rbracket ∨ b = rbrace := by
    rcases delimiter with blank | rfl | rfl | rfl
    · simp only [isWs, Bool.or_eq_true, beq_iff_eq] at blank
      tauto
    · tauto
    · tauto
    · tauto
  rcases cases with rfl | rfl | rfl | rfl | rfl | rfl | rfl <;> cases phase <;> rfl

/-- What follows a value is read the same way after a number as after any other
value. -/
theorem State.Completes.step {s : State} {stack : List Frame} {value : Json}
    (complete : s.Completes stack value) {b : UInt8} (delimiter : Delimiter b) :
    step s b = afterValue stack value b := by
  cases complete with
  | done stack value => rfl
  | number stack phase literal =>
      simp only [Json.step, numStep_delimiter phase delimiter, Automaton.lexeme?_text,
        Option.bind_some]

theorem State.Completes.result? {s : State} {value : Json} (complete : s.Completes [] value) :
    s.result? = some value := by
  cases complete with
  | done stack value => rfl
  | number stack phase literal =>
      simp only [State.result?, State.value?, Automaton.lexeme?_text, Option.map_some]

theorem runFrom_number (stack : List Frame) {text : Bytes} :
    ∀ {phase last : NumPhase} (read : Bytes), numbers.runFrom phase text = some last →
      texts.runFrom ⟨stack, .number phase read⟩ text =
        some ⟨stack, .number last (read ++ text)⟩ := by
  induction text with
  | nil =>
      intro phase last read accepted
      cases accepted
      rw [Automaton.runFrom_nil, List.append_nil]
  | cons b text ih =>
      intro phase last read accepted
      rw [Automaton.runFrom_cons, Option.bind_eq_some_iff] at accepted
      obtain ⟨next, stepped, accepted⟩ := accepted
      change numStep phase b = some next at stepped
      rw [Automaton.runFrom_cons, texts_step]
      simp only [step, stepped, Option.bind_some]
      rw [ih (read ++ [b]) accepted, List.append_assoc, List.singleton_append]

theorem runFrom_text (stack : List Frame) (role : Role) {text : Bytes} :
    ∀ {phase last : StrPhase} (read : Bytes), strings.runFrom phase text = some last →
      texts.runFrom ⟨stack, .text role phase read⟩ text =
        some ⟨stack, .text role last (read ++ text)⟩ := by
  induction text with
  | nil =>
      intro phase last read accepted
      cases accepted
      rw [Automaton.runFrom_nil, List.append_nil]
  | cons b text ih =>
      intro phase last read accepted
      rw [Automaton.runFrom_cons, Option.bind_eq_some_iff] at accepted
      obtain ⟨next, stepped, accepted⟩ := accepted
      change strStep phase b = some next at stepped
      have inside : ¬ (phase = .plain ∧ b = quote) := by
        rintro ⟨rfl, rfl⟩
        cases stepped
      rw [Automaton.runFrom_cons, texts_step]
      simp only [step, inside, ↓reduceIte, stepped, Option.map_some, Option.bind_some]
      rw [ih (read ++ [b]) accepted, List.append_assoc, List.singleton_append]

/-- A string literal and its closing quote. -/
theorem runFrom_quoted (stack : List Frame) (role : Role) (literal : StrLit) (rest : Bytes) :
    texts.runFrom ⟨stack, .text role .plain []⟩ (literal.text ++ [quote] ++ rest) =
      texts.runFrom (endText stack literal role) rest := by
  obtain ⟨last, read, final⟩ := strings.accepts_iff.mp literal.accepted
  have plain : last = .plain := by simpa only [strings, beq_iff_eq] using final
  subst plain
  have inside := @runFrom_text stack role literal.text .plain .plain [] read
  rw [List.append_assoc, texts.runFrom_append_of_eq inside, List.singleton_append,
    Automaton.runFrom_cons, texts_step, step_text_quote, List.nil_append,
    Automaton.lexeme?_text]
  rfl

/-- The first octet of a number literal starts a number wherever a value may
start. -/
theorem beginValue_number (stack : List Frame) {b : UInt8} {phase : NumPhase}
    (started : numStep .start b = some phase) :
    isWs b = false ∧ b ≠ rbracket ∧ beginValue stack b = some ⟨stack, .number phase [b]⟩ := by
  have notStart : ∀ c, numStep .start c = none → b ≠ c := by
    rintro c refused rfl
    rw [refused] at started
    cases started
  have blank : isWs b = false := by
    simp only [isWs, Bool.or_eq_false_iff, beq_eq_false_iff_ne]
    exact ⟨⟨⟨notStart tab rfl, notStart lf rfl⟩, notStart cr rfl⟩, notStart space rfl⟩
  refine ⟨blank, notStart rbracket rfl, ?_⟩
  simp only [beginValue, notStart lbrace rfl, notStart lbracket rfl, notStart quote rfl,
    notStart 0x6E rfl, notStart 0x74 rfl, notStart 0x66 rfl, ↓reduceIte, started, Option.map_some]

/-- A text that is read as a value where one may start, and where the first item
of an array may start. -/
def ReadsAs (text : Bytes) (value : Json) : Prop :=
  ∀ stack, (∃ s, texts.runFrom ⟨stack, .value⟩ text = some s ∧ s.Completes stack value) ∧
    texts.runFrom ⟨stack, .firstItem⟩ text = texts.runFrom ⟨stack, .value⟩ text

/-- Reading starts the same way in both places when the first octet is neither
whitespace nor the closing bracket. -/
theorem ReadsAs.of_first {b : UInt8} {text : Bytes} {value : Json} (visible : isWs b = false)
    (bracket : b ≠ rbracket)
    (read : ∀ stack, ∃ s, (beginValue stack b).bind (texts.runFrom · text) = some s ∧
      s.Completes stack value) : ReadsAs (b :: text) value := by
  intro stack
  have atValue : step ⟨stack, .value⟩ b = beginValue stack b := by
    simp only [step, visible, Bool.false_eq_true, ↓reduceIte]
  have atFirst : step ⟨stack, .firstItem⟩ b = beginValue stack b := by
    simp only [step, visible, Bool.false_eq_true, ↓reduceIte, bracket]
  simp only [Automaton.runFrom_cons, texts_step, atValue, atFirst, and_true]
  exact read stack

theorem readsAs_number (literal : NumLit) : ReadsAs literal.text (.num literal) := by
  obtain ⟨last, read, final⟩ := numbers.accepts_iff.mp literal.accepted
  obtain ⟨text, accepted⟩ := literal
  cases text with
  | nil =>
      cases read
      cases final
  | cons b text =>
      rw [Automaton.runFrom_cons, Option.bind_eq_some_iff] at read
      obtain ⟨phase, started, read⟩ := read
      obtain ⟨visible, bracket, _⟩ := beginValue_number [] started
      apply ReadsAs.of_first visible bracket
      intro stack
      rw [(beginValue_number stack started).2.2, Option.bind_some, runFrom_number stack [b] read]
      exact ⟨_, rfl, .number stack last ⟨b :: text, accepted⟩⟩

theorem readsAs_string (literal : StrLit) : ReadsAs (quoted literal) (.str literal) := by
  apply ReadsAs.of_first rfl (by decide)
  intro stack
  have read := runFrom_quoted stack .value literal []
  rw [List.append_nil] at read
  exact ⟨_, read, .done stack (.str literal)⟩

theorem readsAs_word (word : Word) : ReadsAs word.spelling word.toJson := by
  cases word <;>
    exact ReadsAs.of_first rfl (by decide) fun stack => ⟨_, rfl, .done stack _⟩

/-- A member's key, read where a member may start, up to its value. -/
theorem runFrom_member (stack : List Frame) (before : List (StrLit × Json)) (key : StrLit)
    (rest : Bytes) :
    texts.runFrom ⟨.members before :: stack, .text .key .plain []⟩
        (key.text ++ [quote] ++ colon :: rest) =
      texts.runFrom ⟨.member before key :: stack, .value⟩ rest := by
  rw [runFrom_quoted]
  rfl

mutual

/-- The text of a tree is read as that tree. -/
theorem read_print : ∀ value : Json, ReadsAs (print value) value
  | .null => readsAs_word .null
  | .bool true => readsAs_word .true
  | .bool false => readsAs_word .false
  | .num literal => readsAs_number literal
  | .str literal => readsAs_string literal
  | .arr [] => ReadsAs.of_first rfl (by decide) fun stack => ⟨_, rfl, .done stack _⟩
  | .arr (item :: items) => by
      apply ReadsAs.of_first rfl (by decide)
      intro stack
      obtain ⟨⟨s, read, complete⟩, same⟩ := read_print item (.items [] :: stack)
      change ∃ s, texts.runFrom ⟨.items [] :: stack, .firstItem⟩
        (print item ++ printMoreItems items) = some s ∧ _
      rw [← same] at read
      rw [texts.runFrom_append_of_eq read, read_moreItems items complete]
      exact ⟨_, rfl, .done stack _⟩
  | .obj [] => ReadsAs.of_first rfl (by decide) fun stack => ⟨_, rfl, .done stack _⟩
  | .obj ((key, value) :: members) => by
      apply ReadsAs.of_first rfl (by decide)
      intro stack
      obtain ⟨⟨s, read, complete⟩, _⟩ := read_print value (.member [] key :: stack)
      change ∃ s, texts.runFrom ⟨.members [] :: stack, .text .key .plain []⟩
        (key.text ++ [quote] ++ colon :: (print value ++ printMoreMembers members)) = some s ∧ _
      rw [runFrom_member, texts.runFrom_append_of_eq read, read_moreMembers members complete]
      exact ⟨_, rfl, .done stack _⟩

/-- The rest of an array is read after one of its items. -/
theorem read_moreItems : ∀ (items : List Json) {s : State} {stack : List Frame}
    {before : List Json} {item : Json}, s.Completes (.items before :: stack) item →
      texts.runFrom s (printMoreItems items) =
        some ⟨stack, .done (.arr (before ++ item :: items))⟩
  | [], s, stack, before, item, complete => by
      rw [printMoreItems, Automaton.runFrom_cons, texts_step,
        complete.step (.inr (.inr (.inl rfl)))]
      rfl
  | next :: items, s, stack, before, item, complete => by
      obtain ⟨⟨after, read, completed⟩, _⟩ := read_print next (.items (before ++ [item]) :: stack)
      rw [printMoreItems, Automaton.runFrom_cons, texts_step,
        complete.step (.inr (.inl rfl))]
      change texts.runFrom ⟨.items (before ++ [item]) :: stack, .value⟩ _ = _
      rw [texts.runFrom_append_of_eq read, read_moreItems items completed, List.append_assoc,
        List.singleton_append]

/-- The rest of an object is read after one of its members. -/
theorem read_moreMembers : ∀ (members : List (StrLit × Json)) {s : State} {stack : List Frame}
    {before : List (StrLit × Json)} {key : StrLit} {value : Json},
      s.Completes (.member before key :: stack) value →
      texts.runFrom s (printMoreMembers members) =
        some ⟨stack, .done (.obj (before ++ (key, value) :: members))⟩
  | [], s, stack, before, key, value, complete => by
      rw [printMoreMembers, Automaton.runFrom_cons, texts_step,
        complete.step (.inr (.inr (.inr rfl)))]
      rfl
  | (name, next) :: members, s, stack, before, key, value, complete => by
      obtain ⟨⟨after, read, completed⟩, _⟩ :=
        read_print next (.member (before ++ [(key, value)]) name :: stack)
      rw [printMoreMembers, Automaton.runFrom_cons, texts_step,
        complete.step (.inr (.inl rfl))]
      change texts.runFrom ⟨.members (before ++ [(key, value)]) :: stack, .text .key .plain []⟩
        (name.text ++ [quote] ++ colon :: (print next ++ printMoreMembers members)) = _
      rw [runFrom_member, texts.runFrom_append_of_eq read, read_moreMembers members completed,
        List.append_assoc, List.singleton_append]

end

/-- **A printed tree is read back.** -/
theorem parse_print (value : Json) : parse (print value) = some value := by
  obtain ⟨⟨s, read, complete⟩, _⟩ := read_print value []
  rw [parse]
  change (texts.runFrom ⟨[], .value⟩ (print value)).bind State.result? = some value
  rw [read, Option.bind_some, complete.result?]

end Wire.Json
