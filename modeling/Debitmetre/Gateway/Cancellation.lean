import Debitmetre.Gateway.Transparency
import Mathlib.Tactic.Push

/-!
# Cancellation

A lifecycle is recorded as cancelled if the pump was notified, or found the
receiver gone, before it saw the end of the upstream's body.  The notification
comes with every drop of the response body, also with one that follows the last
byte at once, and whether the pump sees the upstream's end before it is left to
the race.
-/

namespace Debitmetre

open Wire Transition

variable {F : Type} {exchange : Exchange F} {audit : AuditQueue} {relay next : Relay}
  {action : Action}

/-- A cancelled lifecycle is recorded only if the caller dropped the body before
it had all of it. -/
def CancelledEarly (exchange : Exchange F) (relay : Relay) : Prop :=
  ∀ record ∈ relay.offered, record.outcome = .clientCancelled →
    relay.caller = .dropped ∧ relay.received.flatten ≠ exchange.body.flatten

/-- The caller does not drop a body that is all there before the pump has seen
its end, if the observer of the response can read that body. -/
def Patient (exchange : Exchange F) (relay : Relay) (action : Action) : Prop :=
  action = .drop → relay.phase.pumping = true →
    relay.received.flatten = exchange.body.flatten →
      Relay.unreadable exchange exchange.body = true

namespace Relay

/-- A pump that was or may be cancelled serves a caller that left early, or mirrors
a body that cannot be read. -/
def Early (exchange : Exchange F) (relay : Relay) : Prop :=
  relay.caller = .dropped →
    relay.phase.pumping = true ∨ relay.phase.pumped = some .cancelled →
      relay.received.flatten = exchange.body.flatten →
        relay.pulled.flatten = exchange.body.flatten ∧ unreadable exchange exchange.body = true

/-- What was pulled is the beginning of the body. -/
theorem Flow.pulled_starts (held : Flow exchange relay) :
    relay.pulled.flatten <+: exchange.body.flatten := by
  rw [← held.pulled, List.flatten_append]
  exact List.prefix_append _ _

/-- Nothing is left to pull for a caller that has received the whole body. -/
theorem Flow.pulled_of_received (held : Flow exchange relay) (kept : relay.caller ≠ .dropped)
    (whole : relay.received.flatten = exchange.body.flatten) :
    relay.pulled.flatten = exchange.body.flatten := by
  have first : relay.received.flatten <+: relay.pulled.flatten := by
    rw [← held.flow kept, List.flatten_append, List.flatten_append, List.append_assoc]
    exact List.prefix_append _ _
  rw [whole] at first
  exact held.pulled_starts.eq_of_length_le first.length_le

/-- Patient steps only leave early, or leave a body that cannot be read. -/
theorem early_step (taken : step exchange relay action = some next)
    (patient : Patient exchange relay action) (held : Flow exchange relay ∧ Early exchange relay) :
    Flow exchange next ∧ Early exchange next := by
  obtain ⟨flow, early⟩ := held
  have flow' := flow_step taken flow
  refine ⟨flow', ?_⟩
  cases moves_of_step taken with
  | pull polling more =>
      intro dropped _ whole
      obtain ⟨pulled, unread⟩ := early dropped (.inl (by rw [polling]; rfl)) whole
      refine ⟨flow'.pulled_starts.eq_of_length_le ?_, unread⟩
      rw [← pulled, List.flatten_append]
      exact (List.prefix_append _ _).length_le
  | finish polling done => exact fun dropped _ => early dropped (.inl (by rw [polling]; rfl))
  | send sending receiver room =>
      exact fun dropped _ => early dropped (.inl (by rw [sending]; rfl))
  | refuse sending released => exact fun dropped _ => early dropped (.inl (by rw [sending]; rfl))
  | cancel pumping gone => exact fun dropped _ => early dropped (.inl pumping)
  | close left =>
      exact fun dropped gone => early dropped (by rw [left]; exact .inr (gone.resolve_left nofun))
  | record closed | panic closed =>
      exact fun dropped gone => early dropped (by rw [closed]; exact .inr (gone.resolve_left nofun))
  | read reading queued => exact fun dropped => nomatch reading.symm.trans dropped
  | readEnd => exact nofun
  | drop kept =>
      rintro - (pumping | cancelled)
      · exact fun whole => ⟨flow.pulled_of_received kept whole, patient rfl pumping whole⟩
      · rcases flow.left _ cancelled with ⟨-, dropped⟩ | ⟨same, -⟩
        · exact absurd dropped kept
        · cases ending : exchange.ending <;> rw [ending] at same <;> cases same
  | release | drain | submit | disconnect => exact early

/-- The outcome of a record that is offered. -/
theorem pumped_of_offered (held : Observed exchange relay) {record : AuditRecord}
    (offered : record ∈ relay.offered) (cancelled : record.outcome = .clientCancelled) :
    relay.phase = .recorded .cancelled ∧ isSuccess exchange.status = true := by
  rw [held.offered] at offered
  cases phase : relay.phase with
  | polling | sending | left | closed | panicked =>
      rw [phase] at offered
      cases offered
  | recorded pumped =>
      rw [phase, offers, Option.mem_toList, auditOf, Option.map_eq_some_iff] at offered
      obtain ⟨operation, -, rfl⟩ := offered
      cases success : isSuccess exchange.status with
      | false =>
          simp only [Upstream.record, recordAudit, success] at cancelled
          cases cancelled
      | true =>
          refine ⟨?_, rfl⟩
          simp only [Upstream.record, recordAudit, success] at cancelled
          cases pumped with
          | cancelled => rfl
          | ended | errored =>
              simp only [Pumped.outcome] at cancelled
              split_ifs at cancelled

/-- A pump that is notified may come to its record as cancelled. -/
theorem run_cancel (pumping : relay.phase.pumping = true) (gone : relay.clientGone = true)
    (reads : relay.panics exchange = false) :
    run (step exchange) relay [.cancel, .close, .record] =
      some (record exchange { relay with clientGone := false, phase := .closed .cancelled }
        .cancelled) := by
  have recorded : step exchange { relay with clientGone := false, phase := .closed .cancelled }
      .record = some (record exchange
        { relay with clientGone := false, phase := .closed .cancelled } .cancelled) := by
    change (if relay.panics exchange then _ else _) = _
    rw [reads]
    rfl
  rw [run_cons, step, if_pos ⟨pumping, gone⟩]
  exact run_cons_eq_some.mpr ⟨_, rfl, run_cons_eq_some.mpr ⟨_, recorded, rfl⟩⟩

/-- A drop between the last byte and the pump's sight of the end may be recorded
as a cancellation. -/
theorem cancelled_of_drop (success : isSuccess exchange.status = true) {operation : Operation}
    (metered : exchange.operation = some operation) (flow : Flow exchange relay)
    (observed : Observed exchange relay)
    (readable : unreadable exchange exchange.body = false)
    (taken : step exchange relay .drop = some next) (pumping : relay.phase.pumping = true)
    (whole : relay.received.flatten = exchange.body.flatten) :
    ∃ final, Reachable (step exchange) next final ∧ ¬ CancelledEarly exchange final := by
  have parser : ∃ parser, relay.parser = some parser := by
    rw [observed.parser]
    cases phase : relay.phase with
    | polling | sending => exact ⟨_, by rw [observer, metered, Option.map_some]⟩
    | left | closed | recorded | panicked =>
        rw [phase] at pumping
        cases pumping
  obtain ⟨parser, mirrored⟩ := parser
  obtain ⟨kept, same⟩ := Option.ite_none_left_eq_some.mp taken
  cases same
  have reads : relay.panics exchange = false := by
    rw [observed.panics, unreadable, flow.pulled_of_received kept whole]
    exact readable
  refine ⟨_, ⟨[.cancel, .close, .record], run_cancel pumping rfl reads⟩, fun early => ?_⟩
  have offered : auditRecord exchange .cancelled (parser.finalize exchange.readers) operation ∈
      (Option.map₂ (auditRecord exchange .cancelled)
        (relay.parser.map (StreamUsageParser.finalize exchange.readers))
        exchange.operation).toList := by
    rw [mirrored, metered]
    exact List.mem_singleton_self _
  have cancelled : (auditRecord exchange .cancelled (parser.finalize exchange.readers)
      operation).outcome = .clientCancelled := by
    rw [auditRecord, success]
    rfl
  exact (early _ (List.mem_append_right _ offered) cancelled).2 whole

end Relay

/-- **A cancellation is recorded only for a caller that left early, as long as no
caller drops a body that is all there before the pump has seen its end**, and that
the observer can read; and after every such drop of a metered success, what the
caller has received as a whole may be recorded as cancelled. -/
theorem cancelledEarly_of_patient (exchange : Exchange F) (audit : AuditQueue) :
    (∀ actions relay, run (Relay.step exchange) (.start exchange audit) actions = some relay →
        Along (Relay.step exchange) (Patient exchange) (.start exchange audit) actions →
        CancelledEarly exchange relay) ∧
      ∀ relay next, Reachable (Relay.step exchange) (.start exchange audit) relay →
        Relay.step exchange relay .drop = some next →
        ¬ Patient exchange relay .drop → isSuccess exchange.status = true →
        exchange.operation.isSome →
        ∃ final, Reachable (Relay.step exchange) next final ∧ ¬ CancelledEarly exchange final := by
  constructor
  · intro actions relay ran careful record offered cancelled
    obtain ⟨flow, early⟩ := invariant_along
      (fun relay => Relay.Flow exchange relay ∧ Relay.Early exchange relay) Relay.early_step ran
      careful ⟨Relay.flow_start exchange audit, nofun⟩
    have observed := Relay.observed ⟨actions, ran⟩
    have pumped := (Relay.pumped_of_offered observed offered cancelled).1
    have gone : relay.phase.pumped = some .cancelled := by
      rw [pumped]
      rfl
    have dropped : relay.caller = .dropped := by
      rcases flow.left _ gone with ⟨-, dropped⟩ | ⟨same, -⟩
      · exact dropped
      · cases ending : exchange.ending <;> rw [ending] at same <;> cases same
    refine ⟨dropped, fun whole => ?_⟩
    obtain ⟨pulled, unread⟩ := early dropped (.inr gone) whole
    have read : Relay.unreadable exchange relay.pulled = false := by
      have ends := observed.ends
      rwa [pumped] at ends
    rw [Relay.unreadable, pulled] at read
    exact Bool.false_ne_true (read.symm.trans unread)
  · intro relay next reached taken impatient success metered
    obtain ⟨operation, metered⟩ := Option.isSome_iff_exists.mp metered
    rw [Patient] at impatient
    push Not at impatient
    obtain ⟨-, pumping, whole, readable⟩ := impatient
    exact Relay.cancelled_of_drop success metered (Relay.flow reached) (Relay.observed reached)
      (Bool.eq_false_of_not_eq_true readable) taken pumping whole

/-- A success of one chunk that ends cleanly. -/
def oneChunk : Exchange Empty where
  readers := standardReaders
  stamp := ⟨"0", "2026-01-01T00:00:00Z"⟩
  machineId := "laptop"
  operation := some .response
  status := 200
  openaiModel := none
  reasoningEffort := none
  body := [utf8 "\x7b\x7d"]
  ending := .clean

/-- A caller that leaves with nothing read is recorded as one that left early. -/
theorem cancelledEarly_of_patient_oneChunk :
    ∃ relay, run (Relay.step oneChunk) (.start oneChunk ⟨.empty, true⟩)
        [.pull, .send, .drop, .cancel, .close, .record] = some relay ∧
      CancelledEarly oneChunk relay := by
  refine ⟨_, rfl, (cancelledEarly_of_patient oneChunk ⟨.empty, true⟩).1
    [.pull, .send, .drop, .cancel, .close, .record] _ rfl ?_⟩
  refine (along_cons rfl).mpr ⟨nofun, (along_cons rfl).mpr ⟨nofun, (along_cons rfl).mpr ⟨?_, ?_⟩⟩⟩
  · intro _ _
    decide
  · exact (along_cons rfl).mpr ⟨nofun, (along_cons rfl).mpr ⟨nofun, (along_cons rfl).mpr
      ⟨nofun, trivial⟩⟩⟩

/-- A caller that leaves with the last byte, before the pump has polled the
upstream again, is recorded as cancelled. -/
theorem not_cancelledEarly_oneChunk :
    isSuccess oneChunk.status = true ∧ oneChunk.ending = .clean ∧
      ¬ ∀ relay, Reachable (Relay.step oneChunk) (.start oneChunk ⟨.empty, true⟩) relay →
        CancelledEarly oneChunk relay := by
  refine ⟨rfl, rfl, fun early => ?_⟩
  have cancelled : ∃ relay, run (Relay.step oneChunk) (.start oneChunk ⟨.empty, true⟩)
        [.pull, .send, .read, .drop, .cancel, .close, .record] = some relay ∧
      relay.offered.map AuditRecord.outcome = [.clientCancelled] ∧
      relay.received = oneChunk.body := ⟨_, rfl, rfl, rfl⟩
  obtain ⟨relay, ran, outcomes, received⟩ := cancelled
  obtain ⟨record, offered, outcome⟩ := List.mem_map.mp
    (show Outcome.clientCancelled ∈ relay.offered.map AuditRecord.outcome by
      rw [outcomes]
      exact List.mem_singleton_self _)
  exact (early relay ⟨_, ran⟩ record offered outcome).2 (by rw [received])

end Debitmetre
