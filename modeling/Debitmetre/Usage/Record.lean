import Debitmetre.Wire.Json.Derive
import Debitmetre.Wire.Json.Prefix
import Debitmetre.Wire.Json.Printed
import Debitmetre.Wire.Json.RoundTrip

/-!
# Audit records

The record schema of the usage audit and its serialized form: one JSON object
per record, whose members are the fields of the record in their declared order.
-/

namespace Debitmetre

open Wire

/-- Operation category of an accepted request. -/
inductive Operation
  | response
  | compaction
  deriving DecidableEq, Repr

/-- Terminal-state classification of a request lifecycle. -/
inductive Outcome
  | completed
  | incomplete
  | upstreamError
  | transportError
  | upstreamInterrupted
  | clientCancelled
  deriving DecidableEq, Repr

/-- Marker of how trustworthy a usage datum is. -/
inductive AccountingQuality
  | complete
  | partialDetail
  | inconsistent
  | unavailable
  deriving DecidableEq, Repr

/-- Why usage could not be recorded. -/
inductive MeteringError
  | missingUsage
  | malformedUsage
  | eventTooLarge
  deriving DecidableEq, Repr

/-- Canonical token counters.  Missing fields stay missing. -/
structure Usage where
  inputTotal : Option UInt64
  uncached : Option UInt64
  cacheRead : Option UInt64
  cacheWrite : Option UInt64
  outputTotal : Option UInt64
  reasoning : Option UInt64
  total : Option UInt64
  deriving DecidableEq, Repr

/-- One canonical audit line. -/
structure AuditRecord where
  schemaVersion : UInt8
  kind : String
  eventId : String
  timestamp : String
  machineId : String
  operation : Operation
  upstreamStatus : Option UInt16
  outcome : Outcome
  model : Option String
  accountingQuality : AccountingQuality
  meteringError : Option MeteringError
  reasoningEffort : Option String
  usage : Option Usage
  deriving DecidableEq, Repr

/-- `kind` is fixed by the canonical schema. -/
def KIND : String := "request"

/-- `schema_version` is fixed by the canonical schema. -/
def SCHEMA_VERSION : UInt8 := 1

/-- A record of the schema version and kind the gateway writes. -/
def AuditRecord.Canonical (record : AuditRecord) : Prop :=
  record.schemaVersion = SCHEMA_VERSION ∧ record.kind = KIND

instance (record : AuditRecord) : Decidable record.Canonical :=
  inferInstanceAs (Decidable (_ ∧ _))

/-- The identity and time the gateway generates for a record. -/
structure Stamp where
  eventId : String
  timestamp : String
  deriving DecidableEq, Repr

/-- Start a record for an accepted request. -/
def AuditRecord.new (stamp : Stamp) (machineId : String) (operation : Operation) : AuditRecord where
  schemaVersion := SCHEMA_VERSION
  kind := KIND
  eventId := stamp.eventId
  timestamp := stamp.timestamp
  machineId := machineId
  operation := operation
  upstreamStatus := none
  outcome := .completed
  model := none
  accountingQuality := .unavailable
  meteringError := none
  reasoningEffort := none
  usage := none

/-- What an operation is called in a record. -/
def Operation.name : Operation → String
  | .response => "response"
  | .compaction => "compaction"

/-- What an outcome is called in a record. -/
def Outcome.name : Outcome → String
  | .completed => "completed"
  | .incomplete => "incomplete"
  | .upstreamError => "upstream_error"
  | .transportError => "transport_error"
  | .upstreamInterrupted => "upstream_interrupted"
  | .clientCancelled => "client_cancelled"

/-- What a quality is called in a record. -/
def AccountingQuality.name : AccountingQuality → String
  | .complete => "complete"
  | .partialDetail => "partial"
  | .inconsistent => "inconsistent"
  | .unavailable => "unavailable"

/-- What an error is called in a record. -/
def MeteringError.name : MeteringError → String
  | .missingUsage => "missing_usage"
  | .malformedUsage => "malformed_usage"
  | .eventTooLarge => "event_too_large"

def Operation.variants : List (String × Operation) :=
  [.response, .compaction].map fun value => (value.name, value)

def Outcome.variants : List (String × Outcome) :=
  [.completed, .incomplete, .upstreamError, .transportError, .upstreamInterrupted,
    .clientCancelled].map fun value => (value.name, value)

def AccountingQuality.variants : List (String × AccountingQuality) :=
  [.complete, .partialDetail, .inconsistent, .unavailable].map fun value => (value.name, value)

def MeteringError.variants : List (String × MeteringError) :=
  [.missingUsage, .malformedUsage, .eventTooLarge].map fun value => (value.name, value)

/-- The members of a usage, in the order they are written in. -/
def Usage.members (usage : Usage) : List (String × Json) :=
  let counter := Json.ofOption fun n : UInt64 => Json.ofNat n.toNat
  [("input_total", counter usage.inputTotal),
    ("uncached", counter usage.uncached),
    ("cache_read", counter usage.cacheRead),
    ("cache_write", counter usage.cacheWrite),
    ("output_total", counter usage.outputTotal),
    ("reasoning", counter usage.reasoning),
    ("total", counter usage.total)]

def Usage.toJson (usage : Usage) : Json := Json.object usage.members

def Usage.fields : List String :=
  ["input_total", "uncached", "cache_read", "cache_write", "output_total", "reasoning", "total"]

/-- A usage is read from an object with each of its fields, or from an array. -/
def Usage.ofJson : Json.Decoder Usage := fun tree =>
  (Json.structure? Usage.fields tree).bind fun
    | [inputTotal, uncached, cacheRead, cacheWrite, outputTotal, reasoning, total] => do
        let inputTotal ← Json.optional Json.Decoder.u64 inputTotal
        let uncached ← Json.optional Json.Decoder.u64 uncached
        let cacheRead ← Json.optional Json.Decoder.u64 cacheRead
        let cacheWrite ← Json.optional Json.Decoder.u64 cacheWrite
        let outputTotal ← Json.optional Json.Decoder.u64 outputTotal
        let reasoning ← Json.optional Json.Decoder.u64 reasoning
        let total ← Json.optional Json.Decoder.u64 total
        some { inputTotal, uncached, cacheRead, cacheWrite, outputTotal, reasoning, total }
    | _ => none

/-- The members of a record, in the order they are written in. -/
def AuditRecord.members (record : AuditRecord) : List (String × Json) :=
  [("schema_version", Json.ofNat record.schemaVersion.toNat),
    ("kind", Json.ofString record.kind),
    ("event_id", Json.ofString record.eventId),
    ("timestamp", Json.ofString record.timestamp),
    ("machine_id", Json.ofString record.machineId),
    ("operation", Json.ofString record.operation.name),
    ("upstream_status", Json.ofOption (fun n : UInt16 => Json.ofNat n.toNat) record.upstreamStatus),
    ("outcome", Json.ofString record.outcome.name),
    ("model", Json.ofOption Json.ofString record.model),
    ("accounting_quality", Json.ofString record.accountingQuality.name),
    ("metering_error",
      Json.ofOption (fun error : MeteringError => Json.ofString error.name) record.meteringError),
    ("reasoning_effort", Json.ofOption Json.ofString record.reasoningEffort),
    ("usage", Json.ofOption Usage.toJson record.usage)]

def AuditRecord.toJson (record : AuditRecord) : Json := Json.object record.members

def AuditRecord.fields : List String :=
  ["schema_version", "kind", "event_id", "timestamp", "machine_id", "operation",
    "upstream_status", "outcome", "model", "accounting_quality", "metering_error",
    "reasoning_effort", "usage"]

/-- A record is read from an object with each of its fields, or from an array. -/
def AuditRecord.ofJson : Json.Decoder AuditRecord := fun tree =>
  (Json.structure? AuditRecord.fields tree).bind fun
    | [schemaVersion, kind, eventId, timestamp, machineId, operation, upstreamStatus, outcome,
        model, accountingQuality, meteringError, reasoningEffort, usage] => do
        let schemaVersion ← Json.required Json.Decoder.u8 schemaVersion
        let kind ← Json.required Json.Decoder.string kind
        let eventId ← Json.required Json.Decoder.string eventId
        let timestamp ← Json.required Json.Decoder.string timestamp
        let machineId ← Json.required Json.Decoder.string machineId
        let operation ← Json.required (Json.Decoder.unitVariant Operation.variants) operation
        let upstreamStatus ← Json.optional Json.Decoder.u16 upstreamStatus
        let outcome ← Json.required (Json.Decoder.unitVariant Outcome.variants) outcome
        let model ← Json.optional Json.Decoder.string model
        let accountingQuality ←
          Json.required (Json.Decoder.unitVariant AccountingQuality.variants) accountingQuality
        let meteringError ←
          Json.optional (Json.Decoder.unitVariant MeteringError.variants) meteringError
        -- `#[serde(default)]`: records written before the field existed lack it.
        let reasoningEffort ← Json.optional Json.Decoder.string reasoningEffort
        let usage ← Json.optional Usage.ofJson usage
        some { schemaVersion, kind, eventId, timestamp, machineId, operation, upstreamStatus,
               outcome, model, accountingQuality, meteringError, reasoningEffort, usage }
    | _ => none

/-- `serde_json::to_vec`. -/
def AuditRecord.toVec (record : AuditRecord) : Bytes := Json.print record.toJson

/-- `serde_json::from_slice::<AuditRecord>`. -/
def AuditRecord.fromSlice (text : Bytes) : Option AuditRecord :=
  (Json.parse text).bind AuditRecord.ofJson

theorem Operation.codec : Json.Codec (Json.Decoder.unitVariant Operation.variants)
    (fun value => Json.ofString value.name) :=
  Json.Codec.unitVariant fun value => by cases value <;> rfl

theorem Outcome.codec : Json.Codec (Json.Decoder.unitVariant Outcome.variants)
    (fun value => Json.ofString value.name) :=
  Json.Codec.unitVariant fun value => by cases value <;> rfl

theorem AccountingQuality.codec : Json.Codec (Json.Decoder.unitVariant AccountingQuality.variants)
    (fun value => Json.ofString value.name) :=
  Json.Codec.unitVariant fun value => by cases value <;> rfl

theorem MeteringError.codec : Json.Codec (Json.Decoder.unitVariant MeteringError.variants)
    (fun value => Json.ofString value.name) :=
  Json.Codec.unitVariant fun value => by cases value <;> rfl

/-- **A usage is read back** from what it is written as. -/
theorem Usage.codec : Json.Codec Usage.ofJson Usage.toJson where
  reads := fun usage => by
    have read := Json.structure?_object usage.members (by decide : Usage.fields.Nodup)
    change Json.structure? Usage.fields usage.toJson = _ at read
    rw [Usage.ofJson, read, Option.bind_some]
    change (Json.optional _ _ >>= _) = _
    rw [Json.Codec.u64.optional_bind, Json.Codec.u64.optional_bind, Json.Codec.u64.optional_bind,
      Json.Codec.u64.optional_bind, Json.Codec.u64.optional_bind, Json.Codec.u64.optional_bind,
      Json.Codec.u64.optional_bind]
  present := fun _ same => by cases same

/-- A serialized record is read back. -/
theorem AuditRecord.ofJson_toJson (record : AuditRecord) :
    AuditRecord.ofJson record.toJson = some record := by
  have read := Json.structure?_object record.members (by decide : AuditRecord.fields.Nodup)
  change Json.structure? AuditRecord.fields record.toJson = _ at read
  rw [AuditRecord.ofJson, read, Option.bind_some]
  change (Json.required _ _ >>= _) = _
  rw [Json.Codec.u8.required_bind, Json.Codec.string.required_bind,
    Json.Codec.string.required_bind, Json.Codec.string.required_bind,
    Json.Codec.string.required_bind, Operation.codec.required_bind, Json.Codec.u16.optional_bind,
    Outcome.codec.required_bind, Json.Codec.string.optional_bind,
    AccountingQuality.codec.required_bind, MeteringError.codec.optional_bind,
    Json.Codec.string.optional_bind, Usage.codec.optional_bind]

/-- **A record is read back** from its text. -/
@[simp] theorem AuditRecord.fromSlice_toVec (record : AuditRecord) :
    AuditRecord.fromSlice record.toVec = some record := by
  rw [AuditRecord.fromSlice, AuditRecord.toVec, Json.parse_print, Option.bind_some,
    AuditRecord.ofJson_toJson]

end Debitmetre
