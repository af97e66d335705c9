import Debitmetre.Wire.Json.Syntax

/-!
# Reading JSON texts

A pushdown automaton for the syntax of RFC 8259.  Its stack holds the arrays and
objects that have been opened and not yet closed, so the states it passes
through on a text are the states it stops in on the text's prefixes: a prefix
that leaves a bracket open is no JSON text (`Wire.Json.parse_prefix_eq_none`).
-/

namespace Wire.Json

open Ascii

/-- `ws`: the whitespace allowed around structural characters. -/
def isWs (b : UInt8) : Bool := b == tab || b == lf || b == cr || b == space

/-- An array or object that has been opened and not closed. -/
inductive Frame
  | items (before : List Json)
  | members (before : List (StrLit × Json))
  | member (before : List (StrLit × Json)) (key : StrLit)

/-- What a string will be once its closing quote is read. -/
inductive Role
  | key
  | value
  deriving DecidableEq, Repr

/-- The values that are written as a word. -/
inductive Word
  | null
  | true
  | false
  deriving DecidableEq, Repr

def Word.spelling : Word → Bytes
  | .null => [0x6E, 0x75, 0x6C, 0x6C]
  | .true => [0x74, 0x72, 0x75, 0x65]
  | .false => [0x66, 0x61, 0x6C, 0x73, 0x65]

def Word.toJson : Word → Json
  | .null => .null
  | .true => .bool Bool.true
  | .false => .bool Bool.false

/-- What the next octet belongs to. -/
inductive Mode
  | value
  | firstItem
  | firstMember
  | nextMember
  | nameSeparator (key : StrLit)
  | text (role : Role) (phase : StrPhase) (read : Bytes)
  | number (phase : NumPhase) (read : Bytes)
  | word (word : Word) (read : Nat)
  | done (value : Json)

structure State where
  stack : List Frame
  mode : Mode

/-- After a value: the end of the text, the next item or member, or the end of
the array or object the value is in. -/
def afterValue (stack : List Frame) (value : Json) (b : UInt8) : Option State :=
  if isWs b then some ⟨stack, .done value⟩
  else match stack with
    | [] => none
    | .items before :: rest =>
        if b = comma then some ⟨.items (before ++ [value]) :: rest, .value⟩
        else if b = rbracket then some ⟨rest, .done (.arr (before ++ [value]))⟩
        else none
    | .members _ :: _ => none
    | .member before key :: rest =>
        if b = comma then some ⟨.members (before ++ [(key, value)]) :: rest, .nextMember⟩
        else if b = rbrace then some ⟨rest, .done (.obj (before ++ [(key, value)]))⟩
        else none

/-- The first octet of a value. -/
def beginValue (stack : List Frame) (b : UInt8) : Option State :=
  if b = lbrace then some ⟨.members [] :: stack, .firstMember⟩
  else if b = lbracket then some ⟨.items [] :: stack, .firstItem⟩
  else if b = quote then some ⟨stack, .text .value .plain []⟩
  else if b = 0x6E then some ⟨stack, .word .null 1⟩
  else if b = 0x74 then some ⟨stack, .word .true 1⟩
  else if b = 0x66 then some ⟨stack, .word .false 1⟩
  else (numStep .start b).map fun phase => ⟨stack, .number phase [b]⟩

/-- The closing quote of a string. -/
def endText (stack : List Frame) (literal : StrLit) : Role → State
  | .key => ⟨stack, .nameSeparator literal⟩
  | .value => ⟨stack, .done (.str literal)⟩

/-- One octet of a JSON text. -/
def step (s : State) (b : UInt8) : Option State :=
  match s.mode with
  | .value => if isWs b then some s else beginValue s.stack b
  | .firstItem =>
      if isWs b then some s
      else if b = rbracket then
        match s.stack with
        | .items before :: rest => some ⟨rest, .done (.arr before)⟩
        | _ => none
      else beginValue s.stack b
  | .firstMember =>
      if isWs b then some s
      else if b = rbrace then
        match s.stack with
        | .members before :: rest => some ⟨rest, .done (.obj before)⟩
        | _ => none
      else if b = quote then some ⟨s.stack, .text .key .plain []⟩
      else none
  | .nextMember =>
      if isWs b then some s
      else if b = quote then some ⟨s.stack, .text .key .plain []⟩
      else none
  | .nameSeparator key =>
      if isWs b then some s
      else if b = colon then
        match s.stack with
        | .members before :: rest => some ⟨.member before key :: rest, .value⟩
        | _ => none
      else none
  | .text role phase read =>
      if phase = .plain ∧ b = quote then
        (strings.lexeme? read).map fun literal => endText s.stack literal role
      else (strStep phase b).map fun next => ⟨s.stack, .text role next (read ++ [b])⟩
  | .number phase read =>
      match numStep phase b with
      | some next => some ⟨s.stack, .number next (read ++ [b])⟩
      | none => (numbers.lexeme? read).bind fun literal => afterValue s.stack (.num literal) b
  | .word word read =>
      if word.spelling[read]? = some b then
        some (if read + 1 = word.spelling.length then ⟨s.stack, .done word.toJson⟩
          else ⟨s.stack, .word word (read + 1)⟩)
      else none
  | .done value => afterValue s.stack value b

/-- The value a state has completed: a number ends where the text ends. -/
def State.value? (s : State) : Option Json :=
  match s.mode with
  | .done value => some value
  | .number _ read => (numbers.lexeme? read).map .num
  | _ => none

/-- The value of a whole text read as far as a state. -/
def State.result? (s : State) : Option Json :=
  match s.stack with
  | [] => s.value?
  | _ :: _ => none

/-- The automaton of JSON texts. -/
def texts : Automaton State UInt8 := ⟨⟨[], .value⟩, step, fun s => s.result?.isSome⟩

@[simp] theorem texts_step (s : State) (b : UInt8) : texts.step s b = step s b := rfl

/-- The tree of a JSON text. -/
def parse (text : Bytes) : Option Json :=
  (texts.runFrom texts.start text).bind State.result?

theorem step_text_quote (stack : List Frame) (role : Role) (read : Bytes) :
    step ⟨stack, .text role .plain read⟩ quote =
      (strings.lexeme? read).map fun literal => endText stack literal role := rfl

/-- A state's stack over a deeper one. -/
def State.over (s : State) (below : List Frame) : State := ⟨s.stack ++ below, s.mode⟩

theorem afterValue_over (top : Frame) (stack below : List Frame) (value : Json) (b : UInt8) :
    afterValue (top :: stack ++ below) value b =
      (afterValue (top :: stack) value b).map (State.over · below) := by
  unfold afterValue
  by_cases blank : isWs b
  · simp only [blank, ↓reduceIte, Option.map_some, State.over]
  · cases top <;> simp only [blank, Bool.false_eq_true, ↓reduceIte, List.cons_append]
    all_goals first
      | rfl
      | split
        · rfl
        · split <;> rfl

theorem beginValue_over (stack below : List Frame) (b : UInt8) :
    beginValue (stack ++ below) b = (beginValue stack b).map (State.over · below) := by
  unfold beginValue
  repeat' split
  all_goals first
    | rfl
    | simp only [Option.map_map, Function.comp_def, State.over]

/-- Below an open bracket the automaton does not look. -/
theorem step_over (s : State) (below : List Frame) (b : UInt8) (opened : s.stack ≠ []) :
    step (s.over below) b = (step s b).map (State.over · below) := by
  obtain ⟨stack, mode⟩ := s
  obtain ⟨top, stack, rfl⟩ := List.exists_cons_of_ne_nil opened
  cases mode with
  | value =>
      simp only [step, State.over, beginValue_over]
      split <;> rfl
  | firstItem =>
      simp only [step, State.over, beginValue_over]
      split
      · rfl
      · split
        · cases top <;> rfl
        · rfl
  | firstMember =>
      simp only [step, State.over]
      split
      · rfl
      · split
        · cases top <;> rfl
        · split <;> rfl
  | nextMember =>
      simp only [step, State.over]
      split
      · rfl
      · split <;> rfl
  | nameSeparator key =>
      simp only [step, State.over]
      split
      · rfl
      · split
        · cases top <;> rfl
        · rfl
  | text role phase read =>
      simp only [step, State.over]
      split
      · cases role <;> simp only [Option.map_map, Function.comp_def, endText]
      · simp only [Option.map_map, Function.comp_def]
  | number phase read =>
      simp only [step, State.over]
      split
      · rfl
      · cases numbers.lexeme? read with
        | none => rfl
        | some literal => exact afterValue_over top stack below (.num literal) b
  | word word read =>
      simp only [step, State.over]
      split
      · split <;> rfl
      · rfl
  | done value => exact afterValue_over top stack below value b

end Wire.Json
