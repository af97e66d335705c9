import Debitmetre.Usage.Record
import Debitmetre.Wire.Json.Value

/-!
# The response observer

The observer mirrors the bytes of a response body and parses the mirror once the
lifecycle is over: as an event stream, of whose events the terminal ones carry
the usage, or, if no event was framed, as one JSON document.  How the stream is
framed, which bodies that panics on and how decimal numbers are rounded is decided
by libraries, which are parameters here.
-/

namespace Debitmetre

open Wire Wire.Json

/-- The libraries the observer reads bodies with. -/
structure Readers (F : Type) where
  /-- The number a literal is rounded to, unless it is out of range. -/
  f64 : NumLit → Option F
  /-- The data of the events of a body, up to the first error, unless framing it
  panics. -/
  eventsource : Bytes → List String
  /-- Framing the body panics. -/
  panics : Bytes → Bool

/-- Raw counters as reported upstream; missing fields stay missing. -/
structure RawUsage where
  inputTotal : Option UInt64
  cacheRead : Option UInt64
  cacheWrite : Option UInt64
  outputTotal : Option UInt64
  reasoning : Option UInt64
  total : Option UInt64
  deriving DecidableEq, Repr

/-- Result of extracting usage from a completed stream. -/
structure AuditResult where
  model : Option String
  usage : Option Usage
  quality : AccountingQuality
  meteringError : Option MeteringError
  deriving DecidableEq, Repr

/-- `AuditResult::default()`. -/
def AuditResult.default : AuditResult := ⟨none, none, .unavailable, none⟩

/-- Terminal-state facts derived from one mirrored response body. -/
structure ParsedBody where
  audit : AuditResult
  terminalSeen : Bool
  incomplete : Bool
  deriving DecidableEq, Repr

variable {F : Type}

/-- The counter at the end of a path of members. -/
def nested (usage : Value F) (path : List String) : Option UInt64 :=
  (path.foldlM Value.get usage).bind Value.asU64

/-- Read the token counters from a terminal `usage` object. -/
def extractRawUsage (usage : Value F) : RawUsage where
  inputTotal := (usage.get "input_tokens" <|> usage.get "prompt_tokens").bind Value.asU64
  cacheRead :=
    nested usage ["input_tokens_details", "cached_tokens"]
      <|> (usage.get "prompt_cache_hit_tokens").bind Value.asU64
      <|> (usage.get "cache_read_input_tokens").bind Value.asU64
  cacheWrite :=
    nested usage ["input_tokens_details", "cache_write_tokens"]
      <|> (usage.get "cache_write_input_tokens").bind Value.asU64
      <|> (usage.get "cache_write_tokens").bind Value.asU64
      <|> (usage.get "cache_creation_input_tokens").bind Value.asU64
      <|> nested usage ["prompt_tokens_details", "cache_write_tokens"]
  outputTotal := (usage.get "output_tokens" <|> usage.get "completion_tokens").bind Value.asU64
  reasoning :=
    nested usage ["output_tokens_details", "reasoning_tokens"]
      <|> nested usage ["completion_tokens_details", "reasoning_tokens"]
      <|> (usage.get "reasoning_tokens").bind Value.asU64
  total := (usage.get "total_tokens").bind Value.asU64

/-- `u64::checked_add`. -/
def checkedAdd (a b : UInt64) : Option UInt64 :=
  if a.toNat + b.toNat < UInt64.size then some (a + b) else none

/-- `u64::checked_sub`. -/
def checkedSub (a b : UInt64) : Option UInt64 := if b ≤ a then some (a - b) else none

/-- The uncached input and the quality of the input counters. -/
def accountingBasis (raw : RawUsage) : Option UInt64 × AccountingQuality :=
  match raw.inputTotal, raw.cacheRead, raw.cacheWrite with
  | some input, some read, some write =>
      match (checkedAdd read write).bind fun sum => checkedSub input sum with
      | some uncached => (some uncached, .complete)
      | none => (none, .inconsistent)
  | _, _, _ => (none, .partialDetail)

/-- Canonicalize upstream counters into the accounting basis. -/
def canonicalize (raw : RawUsage) : Usage × AccountingQuality :=
  ({ inputTotal := raw.inputTotal
     uncached := (accountingBasis raw).1
     cacheRead := raw.cacheRead
     cacheWrite := raw.cacheWrite
     outputTotal := raw.outputTotal
     reasoning := raw.reasoning
     total := raw.total },
    (accountingBasis raw).2)

/-- The response header's model, or else the body's. -/
def effectiveModel (headerModel bodyModel : Option String) : Option String :=
  match headerModel, bodyModel with
  | some header, some _ => some header
  | some header, none => some header
  | none, body => body

/-- What the events read so far have told. -/
structure Terminal where
  terminalSeen : Bool
  terminalIncomplete : Bool
  bodyModel : Option String
  usage : Option (Usage × AccountingQuality)
  usageMalformed : Bool
  deriving DecidableEq, Repr

def Terminal.start : Terminal := ⟨false, false, none, none, false⟩

/-- The `response` object of a terminal event. -/
def Terminal.response (found : Terminal) (response : List (String × Value F)) : Terminal :=
  let found :=
    match (response.lookup "model").bind Value.asStr with
    | some model => { found with bodyModel := some model }
    | none => found
  match response.lookup "usage" with
  | none | some .null => found
  | some usage =>
      if usage.isObject then { found with usage := some (canonicalize (extractRawUsage usage)) }
      else { found with usageMalformed := true }

/-- The data of one event. -/
def Terminal.event (readers : Readers F) (found : Terminal) (data : String) : Terminal :=
  match fromSlice readers.f64 (utf8 data) with
  | none => found
  | some value =>
      match (value.get "type").bind Value.asStr with
      | none => found
      | some kind =>
          -- Only the documented terminal events carry the final usage.
          if ¬ (kind = "response.completed" ∨ kind = "response.incomplete") then found
          else
            let found :=
              { found with
                terminalSeen := true
                terminalIncomplete :=
                  if kind = "response.incomplete" then true else found.terminalIncomplete }
            match (value.get "response").bind Value.asObject with
            | none => found
            | some response => found.response response

/-- Parse the mirrored body as one complete JSON document. -/
def parseJsonBody (readers : Readers F) (mirror : Bytes) (headerModel : Option String) :
    AuditResult × Bool :=
  let missing : AuditResult := { AuditResult.default with meteringError := some .missingUsage }
  match fromSlice readers.f64 mirror with
  | none => (missing, false)
  | some root =>
      match root.asObject with
      | none => (missing, false)
      | some root =>
          let incomplete := (root.lookup "status").bind Value.asStr == some "incomplete"
          let bodyModel := (root.lookup "model").bind Value.asStr
          let model := effectiveModel headerModel bodyModel
          let audit : AuditResult :=
            match root.lookup "usage" with
            | none | some .null =>
                { AuditResult.default with model, meteringError := some .missingUsage }
            | some usage =>
                if usage.isObject then
                  let (usage, quality) := canonicalize (extractRawUsage usage)
                  { model, usage := some usage, quality, meteringError := none }
                else { AuditResult.default with model, meteringError := some .malformedUsage }
          (audit, incomplete)

/-- What the terminal events of a stream come to. -/
def Terminal.audit (found : Terminal) (headerModel : Option String) : AuditResult where
  model := effectiveModel headerModel found.bodyModel
  usage := found.usage.map Prod.fst
  quality := (found.usage.map Prod.snd).getD .unavailable
  meteringError :=
    match found.usage with
    | some _ => none
    | none => if found.usageMalformed then some .malformedUsage else some .missingUsage

/-- Parse a mirrored body. -/
def parseMirror (readers : Readers F) (mirror : Bytes) (headerModel : Option String) :
    ParsedBody :=
  let events := readers.eventsource mirror
  let found := events.foldl (Terminal.event readers) .start
  if found.terminalSeen then
    { audit := found.audit headerModel
      terminalSeen := true
      incomplete := found.terminalIncomplete }
  -- A body that framed as an event stream but ended without a terminal event.
  else if events ≠ [] then
    { audit :=
        { AuditResult.default with model := headerModel, meteringError := some .missingUsage }
      terminalSeen := false
      incomplete := false }
  else
    let (audit, incomplete) := parseJsonBody readers mirror headerModel
    { audit, terminalSeen := true, incomplete }

/-- The observer of one response body. -/
structure StreamUsageParser where
  headerModel : Option String
  mirror : Bytes
  parsed : Option ParsedBody
  deriving DecidableEq, Repr

namespace StreamUsageParser

def new (headerModel : Option String) : StreamUsageParser := ⟨headerModel, [], none⟩

/-- Mirror one forwarded chunk. -/
def push (parser : StreamUsageParser) (chunk : Bytes) : StreamUsageParser :=
  { parser with mirror := parser.mirror ++ chunk }

/-- Parse the mirrored body once. -/
def finalize (readers : Readers F) (parser : StreamUsageParser) : StreamUsageParser :=
  match parser.parsed with
  | none => { parser with parsed := some (parseMirror readers parser.mirror parser.headerModel) }
  | some _ => parser

def incomplete (parser : StreamUsageParser) : Bool :=
  parser.parsed.any ParsedBody.incomplete

def terminalSeen (parser : StreamUsageParser) : Bool :=
  parser.parsed.any ParsedBody.terminalSeen

def finish (parser : StreamUsageParser) : AuditResult :=
  (parser.parsed.map ParsedBody.audit).getD .default

/-- Chunks are mirrored in their order, whatever they are cut into. -/
theorem foldl_push (chunks : List Bytes) (parser : StreamUsageParser) :
    chunks.foldl push parser = { parser with mirror := parser.mirror ++ chunks.flatten } := by
  induction chunks generalizing parser with
  | nil => rw [List.flatten_nil, List.append_nil]; rfl
  | cons chunk chunks ih =>
      rw [List.foldl_cons, ih, List.flatten_cons, push, List.append_assoc]

/-- A parser of some chunks, finalized. -/
theorem finalize_foldl_push (readers : Readers F) (headerModel : Option String)
    (chunks : List Bytes) :
    finalize readers (chunks.foldl push (new headerModel)) =
      ⟨headerModel, chunks.flatten, some (parseMirror readers chunks.flatten headerModel)⟩ := by
  rw [foldl_push]
  rfl

end StreamUsageParser

end Debitmetre
