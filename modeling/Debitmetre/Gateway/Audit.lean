import Debitmetre.Usage.Extraction

/-!
# Recording a lifecycle

The canonical record of an accepted request at its terminal state.  A response
that is not a success is an upstream error and is never metered; for a success
the observer supplies model, usage and quality or an explicit metering error.
-/

namespace Debitmetre

open Wire Wire.Json

/-- `StatusCode::is_success`. -/
def isSuccess (status : UInt16) : Bool := 200 ≤ status && status < 300

/-- How the response pump came to its end. -/
inductive Pumped
  | ended
  | errored
  | cancelled
  deriving DecidableEq, Repr

/-- The outcome the pump hands to the audit. -/
def Pumped.outcome : Pumped → Outcome
  | .ended => .completed
  | .errored => .upstreamInterrupted
  | .cancelled => .clientCancelled

/-- The canonical record of a lifecycle that had a response. -/
def recordAudit (stamp : Stamp) (machineId : String) (operation : Operation)
    (upstreamStatus : UInt16) (isSuccess : Bool) (outcome : Outcome) (parser : StreamUsageParser)
    (reasoningEffort : Option String) : AuditRecord :=
  let record := AuditRecord.new stamp machineId operation
  let record :=
    { record with
      upstreamStatus := some upstreamStatus
      reasoningEffort
      outcome :=
        if isSuccess = false then .upstreamError
        else if outcome = Outcome.completed ∧ parser.incomplete = true then .incomplete
        -- A stream that ended without a terminal event never completed.
        else if outcome = Outcome.completed ∧ parser.terminalSeen = false then .upstreamInterrupted
        else outcome }
  if isSuccess then
    let result := parser.finish
    { record with
      model := result.model
      usage := result.usage
      accountingQuality := result.quality
      meteringError := result.meteringError }
  else { record with usage := none, accountingQuality := .unavailable, meteringError := none }

/-- The canonical record of a lifecycle whose request failed in transport. -/
def recordTransportError (stamp : Stamp) (machineId : String) (operation : Operation)
    (reasoningEffort : Option String) : AuditRecord :=
  { AuditRecord.new stamp machineId operation with
    upstreamStatus := none
    outcome := .transportError
    reasoningEffort }

/-- What became of a request sent upstream: it failed, or it was answered with a
status, perhaps a model header, and a body whose chunks were mirrored until the
pump came to its end. -/
inductive Upstream
  | transportError
  | response (status : UInt16) (openaiModel : Option String) (chunks : List Bytes)
      (pumped : Pumped)

variable {F : Type}

/-- The observer of a response, finalized. -/
def Upstream.parser (readers : Readers F) : Upstream → Option StreamUsageParser
  | .transportError => none
  | .response _ openaiModel chunks _ =>
      some ((chunks.foldl StreamUsageParser.push (.new openaiModel)).finalize readers)

/-- The status the upstream answered with. -/
def Upstream.status : Upstream → Option UInt16
  | .transportError => none
  | .response status _ _ _ => some status

/-- Whether the observer saw the end of the response. -/
def Upstream.terminalSeen (readers : Readers F) (upstream : Upstream) : Bool :=
  (upstream.parser readers).any StreamUsageParser.terminalSeen

/-- The record of a lifecycle. -/
def Upstream.record (readers : Readers F) (stamp : Stamp) (machineId : String)
    (operation : Operation) (reasoningEffort : Option String) : Upstream → AuditRecord
  | .transportError => recordTransportError stamp machineId operation reasoningEffort
  | .response status openaiModel chunks pumped =>
      recordAudit stamp machineId operation status (isSuccess status) pumped.outcome
        ((chunks.foldl StreamUsageParser.push (.new openaiModel)).finalize readers) reasoningEffort

/-- Finalizing the observer of a response panics. -/
def Upstream.panics (readers : Readers F) : Upstream → Bool
  | .transportError => false
  | .response _ _ chunks _ => readers.panics chunks.flatten

/-- The record that a lifecycle offers: none if finalizing the observer panics. -/
def Upstream.recorded (readers : Readers F) (stamp : Stamp) (machineId : String)
    (operation : Operation) (reasoningEffort : Option String) (upstream : Upstream) :
    Option AuditRecord :=
  if upstream.panics readers then none
  else some (upstream.record readers stamp machineId operation reasoningEffort)

/-- What holds of every record of a lifecycle whose observer saw the body's end
or did not. -/
structure AuditRecord.Consistent (record : AuditRecord) (terminalSeen : Bool) : Prop where
  usage_iff : record.usage.isSome ↔ record.accountingQuality ≠ .unavailable
  uncached_iff : (∃ usage, record.usage = some usage ∧ usage.uncached.isSome) ↔
    record.accountingQuality = .complete
  basis : ∀ usage uncached, record.usage = some usage → usage.uncached = some uncached →
    ∃ input read write, usage.inputTotal = some input ∧ usage.cacheRead = some read ∧
      usage.cacheWrite = some write ∧ input.toNat = uncached.toNat + read.toNat + write.toNat
  metering_iff : record.meteringError.isSome ↔
    (∃ status, record.upstreamStatus = some status ∧ isSuccess status) ∧ record.usage = none
  notTooLarge : record.meteringError ≠ some .eventTooLarge
  upstreamError_iff : record.outcome = .upstreamError ↔
    ∃ status, record.upstreamStatus = some status ∧ isSuccess status = false
  upstreamError_null : record.outcome = .upstreamError →
    record.model = none ∧ record.usage = none ∧ record.meteringError = none
  transportError_iff : record.outcome = .transportError ↔ record.upstreamStatus = none
  terminal : record.outcome = .completed ∨ record.outcome = .incomplete → terminalSeen = true

/-- The gateway's records are of the version and kind it writes. -/
theorem Upstream.record_canonical (readers : Readers F) (stamp : Stamp) (machineId : String)
    (operation : Operation) (reasoningEffort : Option String) (upstream : Upstream) :
    (upstream.record readers stamp machineId operation reasoningEffort).Canonical := by
  cases upstream with
  | transportError => exact ⟨rfl, rfl⟩
  | response status openaiModel chunks pumped =>
      simp only [Upstream.record, recordAudit]
      split <;> exact ⟨rfl, rfl⟩

theorem canonicalize_quality (raw : RawUsage) : (canonicalize raw).2 ≠ .unavailable := by
  change (accountingBasis raw).2 ≠ _
  rcases accountingBasis_cases raw with ⟨_, _, _, _, _, _, _, basis, _⟩ | basis | basis <;>
    rw [basis] <;> exact nofun

theorem canonicalize_uncached (raw : RawUsage) :
    (canonicalize raw).1.uncached.isSome ↔ (canonicalize raw).2 = .complete := by
  change (accountingBasis raw).1.isSome ↔ (accountingBasis raw).2 = _
  rcases accountingBasis_cases raw with ⟨_, _, _, _, _, _, _, basis, _⟩ | basis | basis
  · rw [basis]
    exact ⟨fun _ => rfl, fun _ => rfl⟩
  · rw [basis]
    exact ⟨nofun, nofun⟩
  · rw [basis]
    exact ⟨nofun, nofun⟩

theorem canonicalize_basis (raw : RawUsage) {uncached : UInt64}
    (derived : (canonicalize raw).1.uncached = some uncached) :
    ∃ input read write, (canonicalize raw).1.inputTotal = some input ∧
      (canonicalize raw).1.cacheRead = some read ∧ (canonicalize raw).1.cacheWrite = some write ∧
      input.toNat = uncached.toNat + read.toNat + write.toNat := by
  change (accountingBasis raw).1 = _ at derived
  rcases accountingBasis_cases raw with
    ⟨input, read, write, rest, hasInput, hasRead, hasWrite, basis, sum⟩ | basis | basis
  · rw [basis] at derived
    cases derived
    exact ⟨input, read, write, hasInput, hasRead, hasWrite, sum⟩
  · rw [basis] at derived
    cases derived
  · rw [basis] at derived
    cases derived

namespace AuditResult.Sound

variable {result : AuditResult}

theorem usage_iff (sound : result.Sound) :
    result.usage.isSome ↔ result.quality ≠ .unavailable := by
  cases measured : result.usage with
  | none =>
      rw [sound.unmeasured measured]
      exact ⟨nofun, fun different => (different rfl).elim⟩
  | some usage =>
      obtain ⟨raw, canonical⟩ := sound.measured usage measured
      have quality := canonicalize_quality raw
      rw [canonical] at quality
      exact ⟨fun _ => quality, fun _ => rfl⟩

theorem uncached_iff (sound : result.Sound) :
    (∃ usage, result.usage = some usage ∧ usage.uncached.isSome) ↔ result.quality = .complete := by
  constructor
  · rintro ⟨usage, measured, derived⟩
    obtain ⟨raw, canonical⟩ := sound.measured usage measured
    have uncached := canonicalize_uncached raw
    rw [canonical] at uncached
    exact uncached.mp derived
  · intro complete
    obtain ⟨usage, measured⟩ :=
      Option.isSome_iff_exists.mp (sound.usage_iff.mpr (by rw [complete]; decide))
    obtain ⟨raw, canonical⟩ := sound.measured usage measured
    have uncached := canonicalize_uncached raw
    rw [canonical] at uncached
    exact ⟨usage, measured, uncached.mpr complete⟩

theorem basis (sound : result.Sound) {usage : Usage} {uncached : UInt64}
    (measured : result.usage = some usage) (derived : usage.uncached = some uncached) :
    ∃ input read write, usage.inputTotal = some input ∧ usage.cacheRead = some read ∧
      usage.cacheWrite = some write ∧ input.toNat = uncached.toNat + read.toNat + write.toNat := by
  obtain ⟨raw, canonical⟩ := sound.measured usage measured
  have basis := fun derived => @canonicalize_basis raw uncached derived
  rw [canonical] at basis
  exact basis derived

end AuditResult.Sound

theorem recordTransportError_consistent (stamp : Stamp) (machineId : String)
    (operation : Operation) (reasoningEffort : Option String) (terminalSeen : Bool) :
    (recordTransportError stamp machineId operation reasoningEffort).Consistent terminalSeen where
  usage_iff := ⟨nofun, fun different => (different rfl).elim⟩
  uncached_iff := ⟨fun ⟨_, measured, _⟩ => (nomatch measured), nofun⟩
  basis := nofun
  metering_iff := ⟨nofun, fun ⟨⟨_, answered, _⟩, _⟩ => nomatch answered⟩
  notTooLarge := nofun
  upstreamError_iff := ⟨nofun, fun ⟨_, answered, _⟩ => nomatch answered⟩
  upstreamError_null := nofun
  transportError_iff := ⟨fun _ => rfl, fun _ => rfl⟩
  terminal := fun ended => by rcases ended with ended | ended <;> cases ended

/-- The record of a response that is not a success. -/
theorem recordAudit_failure_consistent (stamp : Stamp) (machineId : String)
    (operation : Operation) {status : UInt16} (failure : isSuccess status = false)
    (outcome : Outcome) (parser : StreamUsageParser) (reasoningEffort : Option String)
    (terminalSeen : Bool) :
    (recordAudit stamp machineId operation status (isSuccess status) outcome parser
      reasoningEffort).Consistent terminalSeen := by
  rw [failure]
  exact {
    usage_iff := ⟨nofun, fun different => (different rfl).elim⟩
    uncached_iff := ⟨fun ⟨_, measured, _⟩ => (nomatch measured), nofun⟩
    basis := nofun
    metering_iff := ⟨nofun, fun ⟨⟨other, answered, success⟩, _⟩ => by
      rw [← Option.some.inj answered, failure] at success
      cases success⟩
    notTooLarge := nofun
    upstreamError_iff := ⟨fun _ => ⟨status, rfl, failure⟩, fun _ => rfl⟩
    upstreamError_null := fun _ => ⟨rfl, rfl, rfl⟩
    transportError_iff := ⟨nofun, nofun⟩
    terminal := fun ended => by rcases ended with ended | ended <;> cases ended }

/-- The outcome of a success. -/
def successOutcome (outcome : Outcome) (parser : StreamUsageParser) : Outcome :=
  if outcome = .completed ∧ parser.incomplete = true then .incomplete
  else if outcome = .completed ∧ parser.terminalSeen = false then .upstreamInterrupted
  else outcome

theorem successOutcome_terminal {pumped : Pumped} {parser : StreamUsageParser}
    (ordered : parser.incomplete = true → parser.terminalSeen = true) :
    successOutcome pumped.outcome parser = .completed ∨
        successOutcome pumped.outcome parser = .incomplete →
      parser.terminalSeen = true := by
  unfold successOutcome
  cases pumped <;> cases incomplete : parser.incomplete <;> cases seen : parser.terminalSeen <;>
    simp only [incomplete, seen] at ordered ⊢ <;> simp [Pumped.outcome] at ordered ⊢

theorem successOutcome_other (pumped : Pumped) (parser : StreamUsageParser) :
    successOutcome pumped.outcome parser ≠ .upstreamError ∧
      successOutcome pumped.outcome parser ≠ .transportError := by
  unfold successOutcome
  cases pumped <;> split_ifs <;> exact ⟨nofun, nofun⟩

/-- The record of a success whose audit is sound. -/
theorem recordAudit_success_consistent (stamp : Stamp) (machineId : String)
    (operation : Operation) {status : UInt16} (success : isSuccess status = true)
    (pumped : Pumped) (parser : StreamUsageParser) (sound : parser.finish.Sound)
    (ordered : parser.incomplete = true → parser.terminalSeen = true)
    (reasoningEffort : Option String) :
    (recordAudit stamp machineId operation status (isSuccess status) pumped.outcome parser
      reasoningEffort).Consistent parser.terminalSeen := by
  obtain ⟨notUpstream, notTransport⟩ := successOutcome_other pumped parser
  rw [success]
  exact {
    usage_iff := sound.usage_iff
    uncached_iff := sound.uncached_iff
    basis := fun usage uncached measured derived => sound.basis measured derived
    metering_iff := by
      change parser.finish.meteringError.isSome ↔ _ ∧ parser.finish.usage = none
      rw [sound.metering, Option.isNone_iff_eq_none]
      exact ⟨fun missing => ⟨⟨status, rfl, success⟩, missing⟩, fun both => both.2⟩
    notTooLarge := sound.notTooLarge
    upstreamError_iff := ⟨fun same => (notUpstream same).elim, fun ⟨other, answered, failure⟩ => by
      rw [← Option.some.inj answered, success] at failure
      cases failure⟩
    upstreamError_null := fun same => (notUpstream same).elim
    transportError_iff := ⟨fun same => (notTransport same).elim, nofun⟩
    terminal := successOutcome_terminal ordered }

/-- **Every record is consistent**, whatever the upstream did, whatever bytes
were mirrored and however the pump ended. -/
theorem Upstream.record_consistent (readers : Readers F) (stamp : Stamp) (machineId : String)
    (operation : Operation) (reasoningEffort : Option String) (upstream : Upstream) :
    (upstream.record readers stamp machineId operation reasoningEffort).upstreamStatus =
        upstream.status ∧
      (upstream.record readers stamp machineId operation reasoningEffort).Consistent
        (upstream.terminalSeen readers) := by
  cases upstream with
  | transportError =>
      exact ⟨rfl, recordTransportError_consistent stamp machineId operation reasoningEffort _⟩
  | response status openaiModel chunks pumped =>
      have audit := parseMirror_sound readers chunks.flatten openaiModel
      simp only [Upstream.record, Upstream.status, Upstream.terminalSeen, Upstream.parser,
        StreamUsageParser.finalize_foldl_push, Option.any_some]
      constructor
      · cases isSuccess status <;> rfl
      · cases success : isSuccess status with
        | false =>
            rw [← success]
            exact recordAudit_failure_consistent stamp machineId operation success _ _ _ _
        | true =>
            rw [← success]
            exact recordAudit_success_consistent stamp machineId operation success pumped
              ⟨openaiModel, chunks.flatten, some (parseMirror readers chunks.flatten openaiModel)⟩
              audit.1 audit.2 reasoningEffort

end Debitmetre
