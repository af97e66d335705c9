import Debitmetre.Usage.Counters
import Debitmetre.Usage.Framing
import Mathlib.Data.List.Forall2

/-!
# The facts of terminal events

Of the events of a stream only the terminal ones are told of, and of these only
their kind, the model their response names, and what stands at the places of the
counters in its `usage`.  The model and the usage are those of the last terminal
event that has any.
-/

namespace Debitmetre

open Wire Wire.Json

/-- A field that each step may overwrite keeps what was told last. -/
theorem foldl_latest {σ τ α : Type} {step : σ → τ → σ} {field : σ → Option α}
    {told : τ → Option α} (overwrites : ∀ s t, field (step s t) = (told t <|> field s)) (s : σ)
    (ts : List τ) : field (ts.foldl step s) = ((ts.filterMap told).getLast? <|> field s) := by
  induction ts generalizing s with
  | nil => rfl
  | cons t ts ih =>
      rw [List.foldl_cons, ih, overwrites]
      cases telling : told t with
      | none => rw [List.filterMap_cons_none telling]; rfl
      | some value =>
          rw [List.filterMap_cons_some telling, List.getLast?_cons]
          cases (ts.filterMap told).getLast? <;> rfl

variable {F : Type}

/-- A terminal event: its kind and its response. -/
abbrev TerminalEvent (F : Type) := String × Option (List (String × Value F))

/-- The terminal events of a body. -/
def terminals (readers : Readers F) (mirror : Bytes) : List (TerminalEvent F) :=
  (readers.eventsource mirror).filterMap (terminalOf readers)

namespace TerminalEvent

def model (terminal : TerminalEvent F) : Option String := terminal.2.bind responseModel

def usage (terminal : TerminalEvent F) : UsageMember F :=
  terminal.2.elim .missing usageMember

/-- The usage a terminal event reports. -/
def measured (terminal : TerminalEvent F) : Option (Usage × AccountingQuality) :=
  match terminal.usage with
  | .object usage => some (canonicalize (extractRawUsage usage))
  | .missing | .malformed => none

end TerminalEvent

/-- What a terminal event adds to what earlier ones told. -/
def Terminal.take (found : Terminal) (terminal : TerminalEvent F) : Terminal where
  terminalSeen := true
  terminalIncomplete := terminal.1 == "response.incomplete" || found.terminalIncomplete
  bodyModel := terminal.model <|> found.bodyModel
  usage := terminal.measured <|> found.usage
  usageMalformed := match terminal.usage with
    | .malformed => true
    | .missing | .object _ => found.usageMalformed

theorem Terminal.event_eq_take (readers : Readers F) (found : Terminal) (data : String) :
    found.event readers data = (terminalOf readers data).elim found found.take := by
  have seen (kind : String) : (if kind = "response.incomplete" then true
      else found.terminalIncomplete) =
        (kind == "response.incomplete" || found.terminalIncomplete) := by
    by_cases same : kind = "response.incomplete"
    · rw [if_pos same, beq_iff_eq.mpr same, Bool.true_or]
    · rw [if_neg same, beq_eq_false_iff_ne.mpr same, Bool.false_or]
  rw [Terminal.event_eq]
  cases terminalOf readers data with
  | none => rfl
  | some terminal =>
      obtain ⟨kind, response⟩ := terminal
      rw [Option.elim_some, Terminal.take, ← seen]
      cases response with
      | none => rfl
      | some response =>
          change (found.seen kind).response response = _
          rw [Terminal.response_eq]
          simp only [Terminal.seen, TerminalEvent.measured, TerminalEvent.usage,
            TerminalEvent.model, Option.elim_some, Option.bind_some]
          cases usageMember response <;> rfl

/-- Only the terminal events of a stream tell anything. -/
theorem foldl_event_eq (readers : Readers F) (events : List String) (found : Terminal) :
    events.foldl (Terminal.event readers) found =
      (events.filterMap (terminalOf readers)).foldl Terminal.take found := by
  induction events generalizing found with
  | nil => rfl
  | cons data events ih =>
      rw [List.foldl_cons, Terminal.event_eq_take]
      cases terminal : terminalOf readers data with
      | none => rw [List.filterMap_cons_none terminal]; exact ih found
      | some terminal' => rw [List.filterMap_cons_some terminal]; exact ih (found.take terminal')

theorem terminalSeen_foldl (found : Terminal) (ts : List (TerminalEvent F)) :
    (ts.foldl Terminal.take found).terminalSeen = (!ts.isEmpty || found.terminalSeen) := by
  induction ts generalizing found with
  | nil => rfl
  | cons t ts ih =>
      rw [List.foldl_cons, ih]
      cases ts.isEmpty <;> rfl

/-- A stream with terminal events. -/
theorem parseMirror_of_terminals {readers : Readers F} {mirror : Bytes}
    (terminal : terminals readers mirror ≠ []) (headerModel : Option String) :
    let found := (terminals readers mirror).foldl Terminal.take .start
    parseMirror readers mirror headerModel =
      ⟨found.audit headerModel, true, found.terminalIncomplete⟩ := by
  intro found
  have eq : (readers.eventsource mirror).foldl (Terminal.event readers) .start = found :=
    foldl_event_eq readers _ _
  have seen : found.terminalSeen = true := by
    rw [terminalSeen_foldl]
    cases listed : terminals readers mirror with
    | nil => exact absurd listed terminal
    | cons t ts => rfl
  simp only [parseMirror, eq, seen, ↓reduceIte]

/-- A stream without terminal events. -/
theorem parseMirror_of_unfinished {readers : Readers F} {mirror : Bytes}
    (unfinished : terminals readers mirror = []) (headerModel : Option String) :
    parseMirror readers mirror headerModel =
      if readers.eventsource mirror ≠ [] then
        { audit :=
            { AuditResult.default with model := headerModel, meteringError := some .missingUsage }
          terminalSeen := false
          incomplete := false }
      else
        { audit := (parseJsonBody readers mirror headerModel).1
          terminalSeen := true
          incomplete := (parseJsonBody readers mirror headerModel).2 } := by
  have eq : (readers.eventsource mirror).foldl (Terminal.event readers) .start = .start := by
    rw [foldl_event_eq]
    exact congrArg (List.foldl Terminal.take .start) unfinished
  have unseen : Terminal.start.terminalSeen = false := rfl
  simp only [parseMirror, eq, unseen, Bool.false_eq_true, ↓reduceIte]

/-- What stands in a place of an object. -/
def placed (usage : Value F) (place : List String) : Option (Value F) :=
  place.foldlM Value.get usage

/-- Two `usage` members are the same in kind and in the places of the counters. -/
inductive SameUsage : UsageMember F → UsageMember F → Prop
  | missing : SameUsage .missing .missing
  | malformed : SameUsage .malformed .malformed
  | object {usage usage' : Value F}
      (held : ∀ c : RawCounter, ∀ place ∈ c.places, placed usage place = placed usage' place) :
      SameUsage (.object usage) (.object usage')

/-- Two terminal events are the same in all that matters. -/
structure SameTerminal (terminal terminal' : TerminalEvent F) : Prop where
  kind : terminal.1 = terminal'.1
  model : terminal.model = terminal'.model
  usage : SameUsage terminal.usage terminal'.usage

theorem extractRawUsage_congr {usage usage' : Value F}
    (held : ∀ c : RawCounter, ∀ place ∈ c.places, placed usage place = placed usage' place) :
    extractRawUsage usage = extractRawUsage usage' := by
  have member (c : RawCounter) (name : String) (place : [name] ∈ c.places) :
      usage.get name = usage'.get name := by
    have same := held c [name] place
    simpa only [placed, List.foldlM_cons, List.foldlM_nil, Option.bind_eq_bind, Option.pure_def,
      Option.bind_fun_some] using same
  apply RawUsage.ext_counter
  intro c
  rw [extractRawUsage_counter, extractRawUsage_counter]
  cases c with
  | inputTotal =>
      change chosen usage "input_tokens" "prompt_tokens" = chosen usage' _ _
      rw [chosen, chosen, member .inputTotal "input_tokens" (by simp [RawCounter.places]),
        member .inputTotal "prompt_tokens" (by simp [RawCounter.places])]
  | outputTotal =>
      change chosen usage "output_tokens" "completion_tokens" = chosen usage' _ _
      rw [chosen, chosen, member .outputTotal "output_tokens" (by simp [RawCounter.places]),
        member .outputTotal "completion_tokens" (by simp [RawCounter.places])]
  | cacheRead | cacheWrite | reasoning | total =>
      apply firstHeld_congr
      intro place member
      exact congrArg (Option.bind · Value.asU64) (held _ place member)

theorem SameTerminal.measured {terminal terminal' : TerminalEvent F}
    (same : SameTerminal terminal terminal') : terminal.measured = terminal'.measured := by
  have usage := same.usage
  unfold TerminalEvent.measured
  generalize terminal.usage = reported at usage ⊢
  generalize terminal'.usage = reported' at usage ⊢
  cases usage with
  | missing | malformed => rfl
  | object held => simp only [extractRawUsage_congr held]

theorem SameTerminal.take {terminal terminal' : TerminalEvent F}
    (same : SameTerminal terminal terminal') (found : Terminal) :
    found.take terminal = found.take terminal' := by
  have usage := same.usage
  simp only [Terminal.take, same.kind, same.model, same.measured]
  generalize terminal.usage = reported at usage ⊢
  generalize terminal'.usage = reported' at usage ⊢
  cases usage <;> rfl

/-- Streams whose terminal events are the same in all that matters tell the same. -/
theorem foldl_take_congr {ts ts' : List (TerminalEvent F)} (same : List.Forall₂ SameTerminal ts ts')
    (found : Terminal) : ts.foldl Terminal.take found = ts'.foldl Terminal.take found := by
  induction same generalizing found with
  | nil => rfl
  | cons first rest ih => rw [List.foldl_cons, List.foldl_cons, first.take, ih]

/-- The usage of a stream is the last one reported. -/
theorem usage_foldl_take (ts : List (TerminalEvent F)) :
    (ts.foldl Terminal.take .start).usage = (ts.filterMap TerminalEvent.measured).getLast? := by
  have overwrites (found : Terminal) (terminal : TerminalEvent F) :
      (found.take terminal).usage = (terminal.measured <|> found.usage) := rfl
  rw [foldl_latest overwrites]
  cases (ts.filterMap TerminalEvent.measured).getLast? <;> rfl

/-- The model of a stream is the last one named. -/
theorem bodyModel_foldl_take (ts : List (TerminalEvent F)) :
    (ts.foldl Terminal.take .start).bodyModel = (ts.filterMap TerminalEvent.model).getLast? := by
  have overwrites (found : Terminal) (terminal : TerminalEvent F) :
      (found.take terminal).bodyModel = (terminal.model <|> found.bodyModel) := rfl
  rw [foldl_latest overwrites]
  cases (ts.filterMap TerminalEvent.model).getLast? <;> rfl

/-- **Only terminal facts are told.**  A stream with a terminal event is parsed
like every stream with the same terminal events, whatever stands between them, and
like every stream whose terminal events are the same in kind, model and the places
of the counters.  Its usage is that of the last terminal event that has one, and
then there is no metering error. -/
theorem parseMirror_facts {readers : Readers F} {mirror : Bytes}
    (terminal : terminals readers mirror ≠ []) (headerModel : Option String) :
    (∀ mirror',
        (readers.eventsource mirror').filter (fun data => (terminalOf readers data).isSome) =
          (readers.eventsource mirror).filter (fun data => (terminalOf readers data).isSome) →
        parseMirror readers mirror' headerModel = parseMirror readers mirror headerModel) ∧
      (∀ mirror', List.Forall₂ SameTerminal (terminals readers mirror') (terminals readers mirror) →
        parseMirror readers mirror' headerModel = parseMirror readers mirror headerModel) ∧
      let reported := ((terminals readers mirror).filterMap TerminalEvent.measured).getLast?
      (parseMirror readers mirror headerModel).audit.usage = reported.map Prod.fst ∧
        (parseMirror readers mirror headerModel).audit.quality =
          (reported.map Prod.snd).getD .unavailable ∧
        (reported.isSome →
          (parseMirror readers mirror headerModel).audit.meteringError = none) := by
  have alike (mirror' : Bytes)
      (same : (terminals readers mirror').foldl Terminal.take .start =
        (terminals readers mirror).foldl Terminal.take .start)
      (terminal' : terminals readers mirror' ≠ []) :
      parseMirror readers mirror' headerModel = parseMirror readers mirror headerModel := by
    rw [parseMirror_of_terminals terminal, parseMirror_of_terminals terminal', same]
  refine ⟨fun mirror' same => ?_, fun mirror' same => ?_, ?_⟩
  · have eq : terminals readers mirror' = terminals readers mirror := by
      have selected (events : List String) : events.filterMap (terminalOf readers) =
          (events.filter fun data => (terminalOf readers data).isSome).filterMap
            (terminalOf readers) := by
        rw [List.filterMap_filter]
        apply List.filterMap_congr
        intro data _
        cases terminalOf readers data <;> rfl
      rw [terminals, selected, same, ← selected, terminals]
    exact alike mirror' (by rw [eq]) (by rw [eq]; exact terminal)
  · apply alike mirror' (foldl_take_congr same _)
    intro none
    rw [none, List.forall₂_nil_left_iff] at same
    exact terminal same
  · intro reported
    have last := usage_foldl_take (terminals readers mirror)
    rw [parseMirror_of_terminals terminal]
    simp only [Terminal.audit, last]
    refine ⟨rfl, rfl, fun some => ?_⟩
    obtain ⟨usage, measured⟩ := Option.isSome_iff_exists.mp some
    rw [show ((terminals readers mirror).filterMap TerminalEvent.measured).getLast? = _
      from measured]

/-- An event that is not terminal changes nothing: the usage is that of the terminal
event after it. -/
theorem parseMirror_facts_created :
    let created := "\x7b\"type\":\"response.created\"\x7d"
    let completed := "\x7b\"type\":\"response.completed\",\"response\":" ++
      "\x7b\"model\":\"gpt-5\",\"usage\":\x7b\"input_tokens\":7\x7d\x7d\x7d"
    parseMirror decodedReaders (utf8 ("data: " ++ created ++ "\n\n" ++ Sse.event completed)) none =
        parseMirror decodedReaders (utf8 ("" ++ Sse.event completed)) none ∧
      (parseMirror decodedReaders (utf8 ("" ++ Sse.event completed)) none).audit.usage =
        some (canonicalize ⟨some 7, none, none, none, none, none⟩).1 := by
  intro created completed
  have noCr : '\r' ∉ completed.toList := by decide
  have after : decodedReaders.eventsource (utf8 ("" ++ Sse.event completed)) = [completed] :=
    eventsource_event (by decide) noCr
  have announced : Sse.events ("data: " ++ created ++ "\n\n") = [created] := by decide
  have both : decodedReaders.eventsource (utf8 ("data: " ++ created ++ "\n\n" ++
      Sse.event completed)) = [created, completed] := by
    rw [eventsource_event (by decide) noCr, announced]
    rfl
  have listed : terminals decodedReaders (utf8 ("" ++ Sse.event completed)) =
      [("response.completed", some [("model", .string "gpt-5"),
        ("usage", .object [("input_tokens", .number (.posInt 7))])])] := by
    rw [terminals, after]
    rfl
  have facts := parseMirror_facts (listed ▸ List.cons_ne_nil _ _) none
  refine ⟨facts.1 _ ?_, facts.2.2.1.trans ?_⟩
  · rw [both, after]
    rfl
  · rw [listed]
    rfl

theorem effectiveModel_eq (headerModel bodyModel : Option String) :
    effectiveModel headerModel bodyModel = (headerModel <|> bodyModel) := by
  cases headerModel <;> cases bodyModel <;> rfl

/-- The model a body names: that of the last terminal event that names one, or, if
the body is no event stream, that of its object. -/
def bodyModel (readers : Readers F) (mirror : Bytes) : Option String :=
  if readers.eventsource mirror = [] then
    ((fromSlice readers.f64 mirror).bind Value.asObject).bind responseModel
  else ((terminals readers mirror).filterMap TerminalEvent.model).getLast?

/-- **The model of the response header comes first** if and only if there is none,
or the body is an event stream or an object. -/
theorem model_parseMirror_iff (readers : Readers F) (mirror : Bytes)
    (headerModel : Option String) :
    (parseMirror readers mirror headerModel).audit.model =
        (headerModel <|> bodyModel readers mirror) ↔
      (headerModel.isSome → readers.eventsource mirror ≠ [] ∨
        ∃ root, fromSlice readers.f64 mirror = some (.object root)) := by
  by_cases framed : readers.eventsource mirror = []
  · have unfinished : terminals readers mirror = [] := by rw [terminals, framed]; rfl
    have parsed : (parseMirror readers mirror headerModel).audit =
        (parseJsonBody readers mirror headerModel).1 := by
      rw [parseMirror_of_unfinished unfinished, if_neg (not_not_intro framed)]
    rw [parsed, bodyModel, if_pos framed]
    cases read : fromSlice readers.f64 mirror with
    | none => cases headerModel <;> simp [parseJsonBody, read, framed, AuditResult.default]
    | some root =>
        cases root with
        | object root =>
            rw [parseJsonBody_of_object read, effectiveModel_eq]
            exact ⟨fun _ _ => .inr ⟨root, rfl⟩, fun _ => rfl⟩
        | null | bool | number | string | array =>
            cases headerModel <;>
              simp [parseJsonBody, read, framed, AuditResult.default, Value.asObject]
  · rw [bodyModel, if_neg framed]
    refine ⟨fun _ _ => .inl framed, fun _ => ?_⟩
    by_cases unfinished : terminals readers mirror = []
    · rw [parseMirror_of_unfinished unfinished, if_pos framed, unfinished]
      cases headerModel <;> rfl
    · rw [parseMirror_of_terminals unfinished, Terminal.audit, effectiveModel_eq,
        bodyModel_foldl_take]

end Debitmetre
