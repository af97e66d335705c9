import Debitmetre.Gateway.Audit
import Debitmetre.Usage.Facts
import Mathlib.Data.List.Permutation

/-!
# Streaming and non-streaming responses

The same response is accounted for in the same way whether it comes in the
terminal event of an event stream or as a JSON document, if the JSON reader takes
it.  A response that it refuses, for a number that is out of range or a surrogate
that stands alone, is an unreadable document, but an event that is not terminal.
The library that frames streams is assumed to follow the standard.
-/

namespace Debitmetre

open Wire Wire.Json Wire.Ascii

variable {F : Type}

/-- Events that are not terminal tell nothing. -/
theorem foldl_event_of_other {readers : Readers F} {events : List String}
    (others : ∀ data ∈ events, terminalOf readers data = none) (found : Terminal) :
    events.foldl (Terminal.event readers) found = found := by
  induction events with
  | nil => rfl
  | cons data events ih =>
      obtain ⟨first, rest⟩ := List.forall_mem_cons.mp others
      rw [List.foldl_cons, Terminal.event_eq, first]
      exact ih rest

/-- What the observer makes of a stream with one terminal event. -/
def terminalBody (kind : String) (response : List (String × Value F))
    (headerModel : Option String) : ParsedBody where
  audit := ((Terminal.start.seen kind).response response).audit headerModel
  terminalSeen := true
  incomplete := kind == "response.incomplete"

theorem parseMirror_of_events {readers : Readers F} {mirror : Bytes} {before after : List String}
    {data kind : String} {response : List (String × Value F)}
    (framed : readers.eventsource mirror = before ++ data :: after)
    (before_other : ∀ data ∈ before, terminalOf readers data = none)
    (after_other : ∀ data ∈ after, terminalOf readers data = none)
    (terminal : terminalOf readers data = some (kind, some response))
    (headerModel : Option String) :
    parseMirror readers mirror headerModel = terminalBody kind response headerModel := by
  have found : (readers.eventsource mirror).foldl (Terminal.event readers) .start =
      (Terminal.start.seen kind).response response := by
    rw [framed, List.foldl_append, List.foldl_cons, foldl_event_of_other before_other,
      Terminal.event_eq, terminal, foldl_event_of_other after_other]
  have seen : ((Terminal.start.seen kind).response response).terminalSeen = true := by
    rw [Terminal.response_eq]
    rfl
  have incomplete : ((Terminal.start.seen kind).response response).terminalIncomplete =
      (kind == "response.incomplete") := by
    rw [Terminal.response_eq]
    by_cases same : kind = "response.incomplete"
    · simp only [Terminal.seen, same, ↓reduceIte, BEq.rfl]
    · simp only [Terminal.seen, same, ↓reduceIte, Terminal.start, beq_eq_false_iff_ne.mpr same]
  simp only [parseMirror, found, seen, incomplete, ↓reduceIte, terminalBody]

/-- What the observer makes of a document whose root is an object. -/
theorem parseMirror_of_document {readers : Readers F}
    (standard : StandardFraming readers.eventsource) {document : String}
    {response : List (String × Value F)}
    (read : fromSlice readers.f64 (utf8 document) = some (.object response))
    (headerModel : Option String) :
    parseMirror readers (utf8 document) headerModel =
      { terminalBody "" response headerModel with
        incomplete := (response.lookup "status").bind Value.asStr == some "incomplete" } := by
  obtain ⟨tree, parsed, _⟩ := Option.bind_eq_some_iff.mp read
  have unframed : readers.eventsource (utf8 document) = [] := by
    rw [standard, events_of_parse parsed]
  simp only [parseMirror, unframed, List.foldl_nil, Terminal.start, Bool.false_eq_true, ↓reduceIte,
    ne_eq, not_true_eq_false, parseJsonBody_of_object read, terminalBody, Terminal.response_eq,
    Terminal.audit, Terminal.seen]
  cases usageMember response <;> cases responseModel response <;> rfl

theorem terminalBody_audit (kind other : String) (response : List (String × Value F))
    (headerModel : Option String) :
    (terminalBody kind response headerModel).audit =
      (terminalBody other response headerModel).audit := by
  simp only [terminalBody, Terminal.response_eq, Terminal.audit, Terminal.seen]

/-- The outcome of a record depends on the body only through what was seen of
its end. -/
theorem recordAudit_outcome (stamp : Stamp) (machineId : String) (operation : Operation)
    (status : UInt16) (outcome : Outcome) (headerModel reasoningEffort : Option String)
    (mirror other : Bytes) {parsed parsed' : ParsedBody}
    (incomplete : parsed.incomplete = parsed'.incomplete)
    (terminalSeen : parsed.terminalSeen = parsed'.terminalSeen) :
    (recordAudit stamp machineId operation status (isSuccess status) outcome
        ⟨headerModel, mirror, some parsed⟩ reasoningEffort).outcome =
      (recordAudit stamp machineId operation status (isSuccess status) outcome
        ⟨headerModel, other, some parsed'⟩ reasoningEffort).outcome := by
  simp only [recordAudit, StreamUsageParser.incomplete, StreamUsageParser.terminalSeen,
    Option.any_some, incomplete, terminalSeen]
  cases isSuccess status <;> rfl

/-- A member that is the string `incomplete`. -/
theorem asStr_eq_some_iff {member : Option (Value F)} {text : String} :
    member.bind Value.asStr = some text ↔ member = some (.string text) := by
  cases member with
  | none => exact ⟨nofun, nofun⟩
  | some value =>
      cases value <;> simp only [Option.bind_some, Value.asStr, reduceCtorEq, Option.some.injEq,
        Value.string.injEq]

/-- The members of an event: its kind and its response, in some order. -/
def EventMembers (kind : String) (response : Json) (members : List (StrLit × Json)) : Prop :=
  ∃ type typed responded : StrLit, type.string? = some "type" ∧ typed.string? = some kind ∧
    responded.string? = some "response" ∧
    members.Perm [(type, .str typed), (responded, response)]

/-- An event is read as its kind and what its response is read as. -/
theorem toValue_event {kind : String} {response : Json} {members : List (StrLit × Json)}
    (event : EventMembers kind response members) (f64 : NumLit → Option F) :
    toValue f64 (.obj members) = (toValue f64 response).map fun value =>
      .object [("response", value), ("type", .string kind)] := by
  obtain ⟨type, typed, responded, type_eq, typed_eq, responded_eq, order⟩ := event
  obtain rfl | rfl := List.perm_pair.mp order
  · simp only [toValue, toMembers, type_eq, typed_eq, responded_eq, Option.bind_some,
      Option.map_some, Value.insert]
    cases toValue f64 response <;> rfl
  · simp only [toValue, toMembers, type_eq, typed_eq, responded_eq, Option.bind_some,
      Option.map_some, Value.insert]
    cases toValue f64 response <;> rfl

/-- A text of an object, within the reader's nesting limit. -/
structure IsText (text : String) (members : List (StrLit × Json)) : Prop where
  parsed : parse (utf8 text) = some (.obj members)
  within : (Json.obj members).depth < 128

/-- A text within the limit is read as its tree is. -/
theorem IsText.fromSlice {text : String} {members : List (StrLit × Json)}
    (isText : IsText text members) (f64 : NumLit → Option F) :
    fromSlice f64 (utf8 text) = toValue f64 (.obj members) := by
  rw [Json.fromSlice, isText.parsed, Option.bind_some, if_pos isText.within]

/-- The data of a terminal event, over lines that newlines end. -/
structure IsTerminalEvent (text kind : String) (response : List (StrLit × Json)) : Prop where
  noCr : '\r' ∉ text.toList
  terminal : kind = "response.completed" ∨ kind = "response.incomplete"
  event : ∃ members, IsText text members ∧ EventMembers kind (.obj response) members

/-- The event is taken for a terminal one if its response can be read. -/
theorem IsTerminalEvent.terminalOf {text kind : String} {response : List (StrLit × Json)}
    (isEvent : IsTerminalEvent text kind response) (readers : Readers F) :
    terminalOf readers text =
      (toMembers readers.f64 response []).map fun members => (kind, some members) := by
  obtain ⟨members, isText, event⟩ := isEvent.event
  rw [Debitmetre.terminalOf, isText.fromSlice, toValue_event event, toValue]
  cases toMembers readers.f64 response [] with
  | none => rfl
  | some values => exact if_pos isEvent.terminal

/-- A terminal event is framed as one event between the others. -/
theorem IsTerminalEvent.framed {text kind : String} {response : List (StrLit × Json)}
    (isEvent : IsTerminalEvent text kind response) {eventsource : Bytes → List String}
    (standard : StandardFraming eventsource) {before : String} (between : Sse.EndsBetween before)
    (after : String) :
    eventsource (utf8 (before ++ Sse.event text ++ after)) =
      Sse.events before ++ text :: Sse.laterEvents after := by
  rw [standard, Sse.events_append_event between isEvent.noCr]

/-- What the observer makes of a stream whose terminal event can be read. -/
theorem parseMirror_of_readable_event {readers : Readers F}
    (standard : StandardFraming readers.eventsource) {before text after kind : String}
    {response : List (StrLit × Json)} (between : Sse.EndsBetween before)
    (before_other : ∀ data ∈ Sse.events before, terminalOf readers data = none)
    (after_other : ∀ data ∈ Sse.laterEvents after, terminalOf readers data = none)
    (isEvent : IsTerminalEvent text kind response) {members : List (String × Value F)}
    (read : toMembers readers.f64 response [] = some members) (headerModel : Option String) :
    parseMirror readers (utf8 (before ++ Sse.event text ++ after)) headerModel =
      terminalBody kind members headerModel := by
  have selected := isEvent.terminalOf readers
  rw [read, Option.map_some] at selected
  exact parseMirror_of_events (isEvent.framed standard between after) before_other after_other
    selected headerModel

/-- What the observer makes of a stream whose terminal event cannot be read. -/
theorem parseMirror_of_unreadable_event {readers : Readers F}
    (standard : StandardFraming readers.eventsource) {before text after kind : String}
    {response : List (StrLit × Json)} (between : Sse.EndsBetween before)
    (before_other : ∀ data ∈ Sse.events before, terminalOf readers data = none)
    (after_other : ∀ data ∈ Sse.laterEvents after, terminalOf readers data = none)
    (isEvent : IsTerminalEvent text kind response)
    (unread : toMembers readers.f64 response [] = none) (headerModel : Option String) :
    parseMirror readers (utf8 (before ++ Sse.event text ++ after)) headerModel =
      { audit :=
          { AuditResult.default with model := headerModel, meteringError := some .missingUsage }
        terminalSeen := false
        incomplete := false } := by
  have framed := isEvent.framed standard between after
  have refused := isEvent.terminalOf readers
  rw [unread, Option.map_none] at refused
  have unfinished : terminals readers (utf8 (before ++ Sse.event text ++ after)) = [] := by
    rw [terminals, framed]
    exact List.filterMap_eq_nil_iff.mpr (List.forall_mem_append.mpr
      ⟨before_other, List.forall_mem_cons.mpr ⟨refused, after_other⟩⟩)
  rw [parseMirror_of_unfinished unfinished, framed]
  exact if_pos (List.append_ne_nil_of_right_ne_nil _ (List.cons_ne_nil _ _))

/-- A document that cannot be read. -/
theorem parseMirror_of_unreadable {readers : Readers F}
    (standard : StandardFraming readers.eventsource) {document : String}
    {members : List (StrLit × Json)} (isText : IsText document members)
    (unread : toValue readers.f64 (.obj members) = none) (headerModel : Option String) :
    parseMirror readers (utf8 document) headerModel =
      { audit := { AuditResult.default with meteringError := some .missingUsage }
        terminalSeen := true
        incomplete := false } := by
  have unframed : readers.eventsource (utf8 document) = [] := by
    rw [standard, events_of_parse isText.parsed]
  have unfinished : terminals readers (utf8 document) = [] := by
    rw [terminals, unframed, List.filterMap_nil]
  have refused : fromSlice readers.f64 (utf8 document) = none := by
    rw [isText.fromSlice, unread]
  rw [parseMirror_of_unfinished unfinished, if_neg fun some_event => some_event unframed]
  simp only [parseJsonBody, refused]

/-- A response of which the observer has missed the end is not recorded as one of
which it saw it, unless neither is a success. -/
theorem recordAudit_outcome_ne (stamp : Stamp) (machineId : String) (operation : Operation)
    (status : UInt16) (headerModel reasoningEffort : Option String) (mirror other : Bytes)
    {parsed parsed' : ParsedBody} (complete : parsed.incomplete = false)
    (complete' : parsed'.incomplete = false) (unseen : parsed.terminalSeen = false)
    (seen : parsed'.terminalSeen = true) :
    (recordAudit stamp machineId operation status (isSuccess status) .completed
        ⟨headerModel, mirror, some parsed⟩ reasoningEffort).outcome =
      (recordAudit stamp machineId operation status (isSuccess status) .completed
        ⟨headerModel, other, some parsed'⟩ reasoningEffort).outcome ↔
      isSuccess status = false := by
  simp only [recordAudit, StreamUsageParser.incomplete, StreamUsageParser.terminalSeen,
    Option.any_some, complete, complete', unseen, seen]
  cases isSuccess status with
  | false => exact iff_of_true rfl rfl
  | true =>
      refine iff_of_false (fun same => ?_) fun failed => Bool.false_ne_true failed.symm
      change Outcome.upstreamInterrupted = .completed at same
      cases same

/-- **Both transports are accounted for alike if and only if the response can be
read.** A stream with one terminal event, whose data may be spread over several
lines, and a document of the same response give the same audit exactly if the
response can be read or no header names a model; and if the kind of the event
tells what the status of the response tells, successes are recorded with the same
outcome exactly if the response can be read. -/
theorem transports_agree_iff (readers : Readers F) (standard : StandardFraming readers.eventsource)
    (headerModel : Option String) {before text after document kind : String}
    {response object : List (StrLit × Json)} (between : Sse.EndsBetween before)
    (before_other : ∀ data ∈ Sse.events before, terminalOf readers data = none)
    (after_other : ∀ data ∈ Sse.laterEvents after, terminalOf readers data = none)
    (isEvent : IsTerminalEvent text kind response) (isText : IsText document object)
    (same : toValue readers.f64 (.obj response) = toValue readers.f64 (.obj object)) :
    ((parseMirror readers (utf8 (before ++ Sse.event text ++ after)) headerModel).audit =
        (parseMirror readers (utf8 document) headerModel).audit ↔
          (Json.obj response).Readable readers.f64 ∨ headerModel = none) ∧
      ((∀ members, toValue readers.f64 (.obj response) = some (.object members) →
          (kind = "response.incomplete" ↔
            members.lookup "status" = some (.string "incomplete"))) →
        ∀ stamp machineId operation reasoningEffort status streamed sent,
          streamed.flatten = utf8 (before ++ Sse.event text ++ after) →
          sent.flatten = utf8 document →
          ((Upstream.record readers stamp machineId operation reasoningEffort
              (.response status headerModel streamed .ended)).outcome =
            (Upstream.record readers stamp machineId operation reasoningEffort
              (.response status headerModel sent .ended)).outcome ↔
            (Json.obj response).Readable readers.f64 ∨ isSuccess status = false)) := by
  rw [← isSome_toValue readers.f64 (.obj response)]
  cases read : toMembers readers.f64 response [] with
  | some members =>
      have value : toValue readers.f64 (.obj response) = some (.object members) := by
        rw [toValue, read, Option.map_some]
      have plain : fromSlice readers.f64 (utf8 document) = some (.object members) := by
        rw [isText.fromSlice, ← same, value]
      have streamed_eq := parseMirror_of_readable_event standard between before_other after_other
        isEvent read headerModel
      have sent_eq := parseMirror_of_document standard plain headerModel
      have known : (toValue readers.f64 (.obj response)).isSome = true := by
        rw [value, Option.isSome_some]
      refine ⟨iff_of_true ?_ (.inl known), fun agreed stamp machineId operation reasoningEffort
        status streamed sent streamed_flat sent_flat => iff_of_true ?_ (.inl known)⟩
      · rw [streamed_eq, sent_eq]
        exact terminalBody_audit _ _ _ _
      · have incomplete : (kind == "response.incomplete") =
            ((members.lookup "status").bind Value.asStr == some "incomplete") := by
          rw [Bool.eq_iff_iff, beq_iff_eq, beq_iff_eq, agreed members value, asStr_eq_some_iff]
        simp only [Upstream.record, StreamUsageParser.finalize_foldl_push, streamed_flat,
          sent_flat, streamed_eq, sent_eq]
        exact recordAudit_outcome _ _ _ _ _ _ _ _ _ incomplete rfl
  | none =>
      have value : toValue readers.f64 (.obj response) = none := by
        rw [toValue, read, Option.map_none]
      have streamed_eq := parseMirror_of_unreadable_event standard between before_other
        after_other isEvent read headerModel
      have sent_eq := parseMirror_of_unreadable standard isText (same ▸ value) headerModel
      rw [value, Option.isSome_none, or_iff_right Bool.false_ne_true]
      refine ⟨?_, fun _ stamp machineId operation reasoningEffort status streamed sent
        streamed_flat sent_flat => ?_⟩
      · rw [streamed_eq, sent_eq]
        exact ⟨fun told => congrArg AuditResult.model told, fun none => by rw [none]; rfl⟩
      · rw [or_iff_right Bool.false_ne_true]
        simp only [Upstream.record, StreamUsageParser.finalize_foldl_push, streamed_flat,
          sent_flat, streamed_eq, sent_eq]
        exact recordAudit_outcome_ne _ _ _ _ _ _ _ _ rfl rfl rfl rfl

/-- A response that is announced by one event and sent by another, over two lines,
and a document with its members in another order: both tell its model, its usage and
that it is incomplete. -/
theorem transports_agree_iff_announced :
    let announcement := "\x7b\"type\":\"response.created\"\x7d"
    let usage := "\"usage\":\x7b\"input_tokens\":5\x7d"
    let text := "\x7b\"type\":\"response.incomplete\",\n\"response\":\x7b\"model\":\"gpt-5\"," ++
      "\"status\":\"incomplete\"," ++ usage ++ "\x7d\x7d"
    let stream := "data: " ++ announcement ++ "\n\n" ++ Sse.event text ++ ": bye\n\n"
    let document := "\x7b" ++ usage ++ ",\n \"status\": \"incomplete\", \"model\": \"gpt-5\"\x7d"
    let record := fun body => Upstream.record standardReaders ⟨"event", "2026-01-01T00:00:00Z"⟩
      "laptop" .response none (.response 200 none [utf8 body] .ended)
    let audit := fun body => (parseMirror standardReaders (utf8 body) none).audit
    audit stream = audit document ∧ (record stream).outcome = (record document).outcome ∧
      (audit document).model = some "gpt-5" ∧
        (audit document).usage.bind Usage.inputTotal = some 5 := by
  intro announcement usage text stream document record audit
  have announced : Sse.events ("data: " ++ announcement ++ "\n\n") = [announcement] := by decide
  have before_other : ∀ data ∈ Sse.events ("data: " ++ announcement ++ "\n\n"),
      terminalOf standardReaders data = none := by
    rw [announced]
    exact List.forall_mem_singleton.mpr rfl
  have after_other : ∀ data ∈ Sse.laterEvents ": bye\n\n",
      terminalOf standardReaders data = none := List.forall_mem_nil _
  have isEvent : IsTerminalEvent text "response.incomplete" _ :=
    ⟨by decide, .inr rfl, _, ⟨rfl, by decide⟩, _, _, _, rfl, rfl, rfl, .refl _⟩
  have isText : IsText document _ := ⟨rfl, by decide⟩
  obtain ⟨audits, outcomes⟩ := transports_agree_iff standardReaders
    standardFraming_standardReaders none (by decide) before_other after_other isEvent isText rfl
  rw [← isSome_toValue] at audits outcomes
  have plain : fromSlice standardReaders.f64 (utf8 document) = some (.object _) :=
    (isText.fromSlice _).trans rfl
  have sent := parseMirror_of_document standardFraming_standardReaders plain none
  refine ⟨audits.mpr (.inl rfl), ?_, ?_⟩
  · refine (outcomes (fun members value => ?_) _ _ _ _ _ _ _ List.flatten_singleton
      List.flatten_singleton).mpr (.inl rfl)
    cases value
    exact iff_of_true rfl rfl
  · change (parseMirror _ _ _).audit.model = _ ∧ (parseMirror _ _ _).audit.usage.bind _ = _
    rw [sent]
    exact ⟨rfl, rfl⟩

/-- A number that has no finite approximation: the stream is taken for one that was
interrupted and tells the header's model, the document for a complete one without a
model. -/
theorem not_transports_agree_outOfRange :
    let response := "\x7b\"x\":1e400\x7d"
    let text := "\x7b\"type\":\"response.completed\",\"response\":" ++ response ++ "\x7d"
    let record := fun body => Upstream.record standardReaders ⟨"event", "2026-01-01T00:00:00Z"⟩
      "laptop" .response none (.response 200 (some "gpt-5") [utf8 body] .ended)
    (record (Sse.event text)).model = some "gpt-5" ∧ (record response).model = none ∧
      (record (Sse.event text)).outcome = .upstreamInterrupted ∧
        (record response).outcome = .completed := by
  intro response text record
  have isText : IsText response _ := ⟨rfl, by decide⟩
  have isEvent : IsTerminalEvent text "response.completed" _ :=
    ⟨by decide, .inl rfl, _, ⟨rfl, by decide⟩, _, _, _, rfl, rfl, rfl, .refl _⟩
  have between : Sse.EndsBetween "" := by decide
  have no_other : ∀ data ∈ Sse.laterEvents "", terminalOf standardReaders data = none :=
    List.forall_mem_nil _
  have streamed := parseMirror_of_unreadable_event standardFraming_standardReaders between
    (List.forall_mem_nil _) no_other isEvent rfl (some "gpt-5")
  rw [String.empty_append, String.append_empty] at streamed
  have sent := parseMirror_of_unreadable standardFraming_standardReaders isText rfl (some "gpt-5")
  have told (body : String) : record body = recordAudit ⟨"event", "2026-01-01T00:00:00Z"⟩
      "laptop" .response 200 (isSuccess 200) .completed ⟨some "gpt-5", utf8 body,
        some (parseMirror standardReaders (utf8 body) (some "gpt-5"))⟩ none := by
    simp only [record, Upstream.record, StreamUsageParser.finalize_foldl_push,
      List.flatten_singleton]
    rfl
  rw [told, told, streamed, sent]
  exact ⟨rfl, rfl, rfl, rfl⟩

end Debitmetre
