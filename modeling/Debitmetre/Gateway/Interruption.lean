import Debitmetre.Gateway.Transports
import Debitmetre.Usage.Facts
import Debitmetre.Wire.Truncation

/-!
# Bodies that break off

What was mirrored when a lifecycle ends early is a first part of the body.  Its
usage is that of the whole body or none.  A stream that breaks off is told from a
document by the events it dispatched, so one that breaks off inside its first
event is not recognized.
-/

namespace Debitmetre

open Wire Wire.Json Wire.Ascii

variable {F : Type}

/-- A body that is no event stream. -/
theorem parseMirror_of_unframed {readers : Readers F} {mirror : Bytes}
    (unframed : readers.eventsource mirror = []) (headerModel : Option String) :
    parseMirror readers mirror headerModel =
      { audit := (parseJsonBody readers mirror headerModel).1
        terminalSeen := true
        incomplete := (parseJsonBody readers mirror headerModel).2 } := by
  have unfinished : terminals readers mirror = [] := by rw [terminals, unframed]; rfl
  rw [parseMirror_of_unfinished unfinished, if_neg (not_not_intro unframed)]

/-- **A JSON document is never read as an event stream**: it dispatches no event,
and is parsed as the document it is. -/
theorem parseMirror_of_document_octets {readers : Readers F}
    (standard : StandardFraming readers.eventsource) {octets : Bytes} {text : String} {value : Json}
    (encoded : utf8? octets = some text) (whole : parse octets = some value)
    (headerModel : Option String) :
    readers.eventsource octets = [] ∧
      parseMirror readers octets headerModel =
        { audit := (parseJsonBody readers octets headerModel).1
          terminalSeen := true
          incomplete := (parseJsonBody readers octets headerModel).2 } := by
  obtain rfl := utf8_of_utf8? encoded
  have unframed : readers.eventsource (utf8 text) = [] := by
    rw [standard, events_of_parse whole]
  exact ⟨unframed, parseMirror_of_unframed unframed headerModel⟩

/-- A document with a blank line and the text of a field dispatches no event. -/
theorem parseMirror_of_document_blank :
    standardReaders.eventsource (utf8 "[\n\n\"data: 1\"\r]") = [] := by
  have encoded : utf8? (utf8 "[\n\n\"data: 1\"\r]") = some "[\n\n\"data: 1\"\r]" := utf8?_utf8 _
  exact (parseMirror_of_document_octets standardFraming_standardReaders encoded rfl none).1

/-- A body that is complete: the document of an object, or a stream of fields with
at most one terminal event. -/
inductive WholeBody (readers : Readers F) (body : String) : Prop
  | document {members : List (StrLit × Json)} (whole : parse (utf8 body) = some (.obj members))
  | stream (fields : Sse.OnlyFields body) (single : (terminals readers (utf8 body)).length ≤ 1)

/-- What is mirrored reaches through the end of what has the usage: the object of a
document, and the terminal event of a stream. -/
structure Reaches (readers : Readers F) (body : String) (mirror : Bytes) : Prop where
  document : ∀ members, parse (utf8 body) = some (.obj members) →
    parse mirror = some (.obj members)
  stream : Sse.OnlyFields body →
    ∃ data, Sse.Holds mirror data ∧ (terminalOf readers data).isSome

theorem parseJsonBody_of_parse {readers : Readers F} {mirror : Bytes}
    (unread : parse mirror = none) (headerModel : Option String) :
    (parseJsonBody readers mirror headerModel).1.usage = none := by
  have read : fromSlice readers.f64 mirror = none := by rw [fromSlice, unread]; rfl
  rw [parseJsonBody, read]
  rfl

theorem parseJsonBody_congr {readers : Readers F} {mirror mirror' : Bytes}
    (same : parse mirror = parse mirror') (headerModel : Option String) :
    parseJsonBody readers mirror headerModel = parseJsonBody readers mirror' headerModel := by
  have read : fromSlice readers.f64 mirror = fromSlice readers.f64 mirror' := by
    rw [fromSlice, same, fromSlice]
  rw [parseJsonBody, parseJsonBody, read]

/-- The terminal events before a cut are the first ones. -/
theorem terminals_of_cut {readers : Readers F} (framing : ConsistentFraming readers.eventsource)
    {body mirror : Bytes} (cut : mirror <+: body) :
    terminals readers mirror <+: terminals readers body := by
  obtain ⟨rest, joined⟩ := framing.consistent mirror body cut
  rw [terminals, terminals, ← joined, List.filterMap_append]
  exact List.prefix_append _ _

/-- A terminal event that is there is held. -/
theorem holds_of_terminals {readers : Readers F} (framing : ConsistentFraming readers.eventsource)
    {mirror : Bytes} (finished : terminals readers mirror ≠ []) :
    ∃ data, Sse.Holds mirror data ∧ (terminalOf readers data).isSome := by
  rw [terminals, ne_eq, List.filterMap_eq_nil_iff, not_forall] at finished
  obtain ⟨data, finished⟩ := finished
  obtain ⟨member, terminal⟩ := Classical.not_imp.mp finished
  exact ⟨data, framing.closed mirror data member, Option.isSome_iff_ne_none.mpr terminal⟩

/-- A document is framed as no stream, however it is cut off. -/
theorem unframed_of_document {readers : Readers F} (framing : ConsistentFraming readers.eventsource)
    {body : String} {value : Json} (whole : parse (utf8 body) = some value) {mirror : Bytes}
    (cut : mirror <+: utf8 body) : readers.eventsource mirror = [] := by
  apply List.eq_nil_iff_forall_not_mem.mpr
  intro data member
  have held := Sse.holds_iff.mp (framing.closed mirror data member)
  rw [events_of_cut whole (decoded_starts_of_cut cut)] at held
  cases held

/-- What is mirrored of a document has its usage if it reaches through the
object. -/
theorem usage_of_document {readers : Readers F} (framing : ConsistentFraming readers.eventsource)
    {body : String} {members : List (StrLit × Json)}
    (whole : parse (utf8 body) = some (.obj members)) {mirror : Bytes} (cut : mirror <+: utf8 body)
    (headerModel : Option String) :
    (parseMirror readers mirror headerModel).audit.usage = none ∨
      parseMirror readers mirror headerModel = parseMirror readers (utf8 body) headerModel ∧
        parse mirror = some (.obj members) := by
  have unframed := unframed_of_document framing whole cut
  have unframed' := unframed_of_document framing whole (List.prefix_refl _)
  rw [parseMirror_of_unframed unframed, parseMirror_of_unframed unframed']
  rcases parse_of_cut whole nofun cut with unread | read
  · exact .inl (parseJsonBody_of_parse unread headerModel)
  · rw [parseJsonBody_congr (read.trans whole.symm)]
    exact .inr ⟨rfl, read⟩

/-- What is mirrored of a stream has its usage if it reaches through the terminal
event. -/
theorem usage_of_stream {readers : Readers F} (framing : ConsistentFraming readers.eventsource)
    {body : String} (fields : Sse.OnlyFields body)
    (single : (terminals readers (utf8 body)).length ≤ 1) {mirror : Bytes}
    (cut : mirror <+: utf8 body) (headerModel : Option String) :
    (parseMirror readers mirror headerModel).audit.usage = none ∨
      parseMirror readers mirror headerModel = parseMirror readers (utf8 body) headerModel ∧
        ∃ data, Sse.Holds mirror data ∧ (terminalOf readers data).isSome := by
  by_cases unfinished : terminals readers mirror = []
  · refine .inl ?_
    rw [parseMirror_of_unfinished unfinished]
    by_cases framed : readers.eventsource mirror = []
    · rw [if_neg (not_not_intro framed)]
      exact parseJsonBody_of_parse (parse_eq_none_of_onlyFields fields cut) headerModel
    · rw [if_pos framed]
      rfl
  · -- The one terminal event of the stream is there.
    have first := terminals_of_cut framing cut
    have same : terminals readers mirror = terminals readers (utf8 body) := by
      apply first.eq_of_length_le
      exact Nat.le_trans single (List.length_pos_of_ne_nil unfinished)
    have finished : terminals readers (utf8 body) ≠ [] := same ▸ unfinished
    refine .inr ⟨?_, holds_of_terminals framing unfinished⟩
    rw [parseMirror_of_terminals unfinished, parseMirror_of_terminals finished, same]

/-- The usage of a record is what was parsed, if the response was a success. -/
theorem record_usage (readers : Readers F) (stamp : Stamp) (machineId : String)
    (operation : Operation) (reasoningEffort : Option String) (status : UInt16)
    (openaiModel : Option String) (chunks : List Bytes) (pumped : Pumped) :
    (Upstream.record readers stamp machineId operation reasoningEffort
        (.response status openaiModel chunks pumped)).usage =
      if isSuccess status then (parseMirror readers chunks.flatten openaiModel).audit.usage
      else none := by
  rw [Upstream.record, StreamUsageParser.finalize_foldl_push, recordAudit]
  cases isSuccess status <;> rfl

/-- **A partial receipt never invents usage**: the usage recorded from a first part
of a complete body is that of the whole body or none, and there is none unless
that part reaches through what has it. -/
theorem record_usage_of_cut {readers : Readers F} (framing : ConsistentFraming readers.eventsource)
    {body : String} (whole : WholeBody readers body) {chunks : List Bytes}
    (cut : chunks.flatten <+: utf8 body) (stamp : Stamp) (machineId : String)
    (operation : Operation) (reasoningEffort : Option String) (status : UInt16)
    (openaiModel : Option String) (pumped : Pumped) :
    let record := Upstream.record readers stamp machineId operation reasoningEffort
      (.response status openaiModel chunks pumped)
    (record.usage = none ∨
        record.usage = (parseMirror readers (utf8 body) openaiModel).audit.usage) ∧
      (record.usage.isSome → Reaches readers body chunks.flatten) := by
  intro record
  have recorded : record.usage = none ∨
      parseMirror readers chunks.flatten openaiModel = parseMirror readers (utf8 body) openaiModel ∧
        Reaches readers body chunks.flatten ∧
        record.usage = (parseMirror readers chunks.flatten openaiModel).audit.usage := by
    have usage := record_usage readers stamp machineId operation reasoningEffort status openaiModel
      chunks pumped
    change record.usage = _ at usage
    cases success : isSuccess status with
    | false =>
        rw [success] at usage
        exact .inl usage
    | true =>
        rw [success, if_pos rfl] at usage
        cases whole with
        | document whole =>
            rcases usage_of_document framing whole cut openaiModel with none | ⟨same, read⟩
            · exact .inl (usage.trans none)
            · refine .inr ⟨same, ⟨fun members' again => ?_, fun fields => ?_⟩, usage⟩
              · exact read.trans (whole.symm.trans again)
              · have unread := parse_eq_none_of_onlyFields fields (List.prefix_refl _)
                exact nomatch whole.symm.trans unread
        | stream fields single =>
            rcases usage_of_stream framing fields single cut openaiModel with none | ⟨same, held⟩
            · exact .inl (usage.trans none)
            · refine .inr ⟨same, ⟨fun members read => ?_, fun _ => held⟩, usage⟩
              have unread := parse_eq_none_of_onlyFields fields (List.prefix_refl _)
              exact nomatch read.symm.trans unread
  rcases recorded with none | ⟨same, reaches, usage⟩
  · rw [none]
    exact ⟨.inl rfl, nofun⟩
  · exact ⟨.inr (usage.trans (by rw [same])), fun _ => reaches⟩

/-- A document that is cut off inside a number has no usage. -/
theorem record_usage_of_cut_number :
    (Upstream.record decodedReaders ⟨"0", "2026-01-01T00:00:00Z"⟩ "laptop" .response none
      (.response 200 none [utf8 "\x7b\"usage\":\x7b\"input_", utf8 "tokens\":12"]
        .errored)).usage = none := by
  have whole : WholeBody decodedReaders "\x7b\"usage\":\x7b\"input_tokens\":123\x7d\x7d" :=
    .document rfl
  have cut : [utf8 "\x7b\"usage\":\x7b\"input_", utf8 "tokens\":12"].flatten <+:
      utf8 "\x7b\"usage\":\x7b\"input_tokens\":123\x7d\x7d" := ⟨utf8 "3\x7d\x7d", rfl⟩
  have recorded := record_usage_of_cut consistentFraming_decodedReaders whole cut
    ⟨"0", "2026-01-01T00:00:00Z"⟩ "laptop" .response none 200 none .errored
  by_contra some
  have read := (recorded.2 (Option.isSome_iff_ne_none.mpr some)).document _ rfl
  cases read

/-- The octets of a body up to the end of its first line. -/
def firstLine (body : Bytes) : Bytes := body.takeWhile fun b => b != lf && b != cr

/-- What follows the byte order mark that a body may start with. -/
def unmarked : Bytes → Bytes
  | 0xEF :: 0xBB :: 0xBF :: octets => octets
  | octets => octets

/-- A stream whose first line is an `event` or a `data` field breaks off after that
line and before its first terminal event is dispatched. -/
structure BrokenOff (readers : Readers F) (body mirror : Bytes) : Prop where
  field : utf8 "event:" <+: unmarked body ∨ utf8 "data:" <+: unmarked body
  line : firstLine body <+: mirror
  cut : mirror <+: body
  unfinished : ∀ data, Sse.Holds mirror data → terminalOf readers data = none

/-- What starts a field or a byte order mark starts no JSON text. -/
theorem BrokenOff.parse {readers : Readers F} {body mirror : Bytes}
    (broken : BrokenOff readers body mirror) : parse mirror = none := by
  obtain ⟨b, rest, shape, kept, refused⟩ : ∃ b rest, body = b :: rest ∧
      (b != lf && b != cr) = true ∧ step texts.start b = none := by
    have field := broken.field
    unfold unmarked at field
    split at field
    · exact ⟨_, _, rfl, rfl, rfl⟩
    · rcases field with ⟨rest, rfl⟩ | ⟨rest, rfl⟩
      · exact ⟨_, _, rfl, rfl, rfl⟩
      · exact ⟨_, _, rfl, rfl, rfl⟩
  apply parse_eq_none_of_refused (List.forall_mem_nil _) ?_ (List.prefix_refl _)
  have first : firstLine body = b :: firstLine rest := by
    rw [shape]
    exact List.takeWhile_cons_of_pos kept
  have line := broken.line
  rw [first] at line
  obtain ⟨more, rfl⟩ := line
  intro first head
  rw [← Option.some.inj head]
  exact refused

/-- A stream that breaks off is recorded as interrupted if an event was dispatched,
and as completed otherwise. -/
theorem BrokenOff.outcome {readers : Readers F} (decodes : DecodedFraming readers) {body : Bytes}
    {chunks : List Bytes} (broken : BrokenOff readers body chunks.flatten)
    (unmarked : ¬ Sse.byteOrderMark <+: chunks.flatten) {status : UInt16}
    (success : isSuccess status = true) (stamp : Stamp) (machineId : String)
    (operation : Operation) (reasoningEffort openaiModel : Option String) :
    (Upstream.record readers stamp machineId operation reasoningEffort
        (.response status openaiModel chunks .ended)).outcome =
      if readers.eventsource chunks.flatten = [] then .completed else .upstreamInterrupted := by
  have framed := decodes.events _ unmarked
  have unfinished : terminals readers chunks.flatten = [] := by
    rw [terminals, framed, List.filterMap_eq_nil_iff]
    intro data member
    exact broken.unfinished data (Sse.dispatched_iff.mpr member).holds
  have unread : fromSlice readers.f64 chunks.flatten = none := by
    rw [fromSlice, broken.parse]
    rfl
  rw [Upstream.record, StreamUsageParser.finalize_foldl_push, success]
  by_cases unframed : readers.eventsource chunks.flatten = []
  · rw [parseMirror_of_unframed unframed, parseJsonBody, unread, if_pos unframed]
    rfl
  · rw [parseMirror_of_unfinished unfinished, if_pos unframed, if_neg unframed]
    rfl

/-- **A stream that breaks off before its terminal event is recorded as interrupted**
if and only if it does not start with a byte order mark and reaches past the blank
line of an event with some data. -/
theorem outcome_of_brokenOff {readers : Readers F} (decodes : DecodedFraming readers)
    {body : Bytes} {chunks : List Bytes} (broken : BrokenOff readers body chunks.flatten)
    {status : UInt16} (success : isSuccess status = true) (stamp : Stamp) (machineId : String)
    (operation : Operation) (reasoningEffort openaiModel : Option String) :
    ((Upstream.response status openaiModel chunks .ended).recorded readers stamp machineId operation
        reasoningEffort).map AuditRecord.outcome = some .upstreamInterrupted ↔
      ¬ Sse.byteOrderMark <+: chunks.flatten ∧ ∃ data, Sse.Dispatched chunks.flatten data := by
  by_cases marked : Sse.byteOrderMark <+: chunks.flatten
  · rw [Upstream.recorded, Upstream.panics, if_pos ((decodes.panics _).mpr marked), Option.map_none]
    exact ⟨nofun, fun both => absurd marked both.1⟩
  · have readable : ¬ readers.panics chunks.flatten = true := mt (decodes.panics _).mp marked
    have dispatched : (∃ data, Sse.Dispatched chunks.flatten data) ↔
        readers.eventsource chunks.flatten ≠ [] := by
      rw [decodes.events _ marked]
      constructor
      · rintro ⟨data, dispatched⟩
        exact List.ne_nil_of_mem (Sse.dispatched_iff.mp dispatched)
      · intro framed
        obtain ⟨data, member⟩ := List.exists_mem_of_ne_nil _ framed
        exact ⟨data, Sse.dispatched_iff.mpr member⟩
    rw [Upstream.recorded, Upstream.panics, if_neg readable, Option.map_some, Option.some_inj,
      broken.outcome decodes marked success, dispatched]
    by_cases unframed : readers.eventsource chunks.flatten = []
    · rw [if_pos unframed]
      exact ⟨nofun, fun framed => absurd unframed framed.2⟩
    · rw [if_neg unframed]
      exact ⟨fun _ => ⟨marked, unframed⟩, fun _ => rfl⟩

/-- A stream that breaks off after its first event is recorded as interrupted. -/
theorem outcome_of_brokenOff_created :
    ((Upstream.response 200 none [utf8 "data: \x7b\x7d\n\ndata: "] .ended).recorded decodedReaders
        ⟨"0", "2026-01-01T00:00:00Z"⟩ "laptop" .response none).map AuditRecord.outcome =
      some .upstreamInterrupted := by
  have framed : decodedReaders.eventsource [utf8 "data: \x7b\x7d\n\ndata: "].flatten =
      ["\x7b\x7d"] := @eventsource_decodedReaders "data: \x7b\x7d\n\ndata: " (by decide)
  have held (data : String) : Sse.Holds [utf8 "data: \x7b\x7d\n\ndata: "].flatten data ↔
      data ∈ ["\x7b\x7d"] := by
    change Sse.Holds (utf8 "data: \x7b\x7d\n\ndata: ") data ↔ _
    rw [Sse.holds_iff, decoded_utf8]
    rfl
  have broken : BrokenOff decodedReaders
      (utf8 "data: \x7b\x7d\n\ndata: \x7b\"type\":\"response.completed\"\x7d\n\n")
      [utf8 "data: \x7b\x7d\n\ndata: "].flatten := by
    refine ⟨.inr ⟨_, rfl⟩, ⟨_, rfl⟩, ⟨_, rfl⟩, fun data held' => ?_⟩
    rw [List.mem_singleton.mp ((held data).mp held')]
    rfl
  apply (outcome_of_brokenOff decodedFraming_decodedReaders broken rfl _ _ _ _ _).mpr
  refine ⟨by decide, "\x7b\x7d", Sse.dispatched_iff.mpr ?_⟩
  rw [← decodedFraming_decodedReaders.events _ (by decide), framed]
  exact List.mem_singleton_self _

/-- A stream that breaks off inside its first event is recorded as completed. -/
theorem not_interrupted_brokenOff : ¬ ∀ body mirror, BrokenOff decodedReaders body mirror →
    ((Upstream.response 200 none [mirror] .ended).recorded decodedReaders
        ⟨"0", "2026-01-01T00:00:00Z"⟩ "laptop" .response none).map AuditRecord.outcome =
      some .upstreamInterrupted := by
  intro interrupted
  have framed : decodedReaders.eventsource [utf8 "event: response.completed\n"].flatten = [] :=
    @eventsource_decodedReaders "event: response.completed\n" (by decide)
  have broken : BrokenOff decodedReaders
      (utf8 "event: response.completed\ndata: \x7b\"type\":\"response.completed\"\x7d\n\n")
      [utf8 "event: response.completed\n"].flatten := by
    refine ⟨.inl ⟨_, rfl⟩, ⟨_, rfl⟩, ⟨_, rfl⟩, fun data held => ?_⟩
    change Sse.Holds (utf8 "event: response.completed\n") data at held
    rw [Sse.holds_iff, decoded_utf8] at held
    cases held
  have outcome := broken.outcome decodedFraming_decodedReaders (by decide)
    (show isSuccess 200 from rfl) ⟨"0", "2026-01-01T00:00:00Z"⟩ "laptop" .response none none
  rw [if_pos framed] at outcome
  have recorded := interrupted _ _ broken
  rw [Upstream.recorded, if_neg (by decide), Option.map_some, Option.some_inj] at recorded
  cases outcome.symm.trans recorded

end Debitmetre
