import Debitmetre.Gateway.Cancellation
import Debitmetre.Gateway.Route

/-!
# The lifecycle of a request

A request that is not rejected waits for the head of the upstream's response.  It
fails in transport, or the response is relayed, and in either case a record is
offered to the audit writer if the request is metered.  A caller may disconnect
at any moment: before the head is there, what waits for it is dropped where it
stands; later, the pump is notified.  The pump may panic at its end, and then
there is no record either.
-/

namespace Debitmetre

open Wire Wire.Ascii Transition

/-- What the upstream answers with, unless the transport fails. -/
structure Reply where
  status : UInt16
  openaiModel : Option String
  body : List Bytes
  ending : Ending
  deriving DecidableEq

/-- A request that arrives at a gateway, and what will come of it. -/
structure Arrival (F : Type) where
  gateway : Gateway
  library : UrlLibrary
  digestHex : Bytes → String
  readers : Readers F
  meterKeys : List Bytes
  target : Target
  /-- The identity and time of the record. -/
  stamp : Stamp
  /-- The effort the request declares. -/
  reasoningEffort : Option String
  reply : Option Reply

variable {F : Type}

namespace Arrival

/-- The paths of the route `/v1/*path`. -/
def isV1 (path : Bytes) : Bool :=
  (utf8 "/v1/").isPrefixOf path && (utf8 "/v1/").length < path.length

/-- What the router makes of the request: any other path has no part in this. -/
def routed (arrival : Arrival F) : Option Routed :=
  if isV1 arrival.target.path then
    some (arrival.gateway.routeV1 arrival.library arrival.digestHex arrival.meterKeys
      arrival.target)
  else none

/-- The machine and the operation of a request that is sent upstream. -/
def accepted (arrival : Arrival F) : Option (String × Option Operation) :=
  match arrival.routed with
  | some (.send machineId operation _) => some (machineId, operation)
  | some .unauthorized | some .badRequest | none => none

/-- The machine and the operation of a request that is metered. -/
def metered (arrival : Arrival F) : Option (String × Operation) :=
  arrival.accepted.bind fun (machineId, operation) => operation.map (machineId, ·)

/-- The exchange with an upstream that replies. -/
def exchange (arrival : Arrival F) (machineId : String) (operation : Option Operation)
    (reply : Reply) : Exchange F where
  readers := arrival.readers
  stamp := arrival.stamp
  machineId
  operation
  status := reply.status
  openaiModel := reply.openaiModel
  reasoningEffort := arrival.reasoningEffort
  body := reply.body
  ending := reply.ending

/-- A request of a known machine on one of the metered paths is metered. -/
theorem metered_of_authenticate (arrival : Arrival F) {machineId : String} {operation : Operation}
    (authenticated : arrival.gateway.authenticate arrival.digestHex arrival.meterKeys =
      some machineId)
    (path : operationOf arrival.target.path = some operation)
    (normalized : Path.parse arrival.library.encodes arrival.gateway.upstreamBase.path =
      arrival.gateway.upstreamBase.path)
    (known : arrival.library.authority arrival.gateway.upstreamBase.scheme
        arrival.gateway.upstreamBase.authority.text =
      some arrival.gateway.upstreamBase.authority)
    (unencoded : ∀ b, b = percent ∨ Path.isPchar b = true → arrival.library.encodes b = false) :
    arrival.metered = some (machineId, operation) := by
  have admitted : ∃ suffix, arrival.target.path = utf8 "/v1" ++ slash :: suffix ∧
      suffix ≠ [] ∧ Path.isText suffix = true ∧
      ∀ segment ∈ suffix.splitOn slash, Path.isDot segment = false := by
    rw [operationOf] at path
    split_ifs at path with response compaction
    · exact ⟨utf8 "responses", response, List.cons_ne_nil _ _, rfl, by decide⟩
    · exact ⟨utf8 "responses/compact", compaction, List.cons_ne_nil _ _, rfl, by decide⟩
  obtain ⟨suffix, admitted, more, text, plain⟩ := admitted
  have kept : Path.parse arrival.library.encodes (slash :: suffix) = slash :: suffix :=
    (Path.parse_eq_iff_of_isText _ text unencoded).mpr plain
  have v1 : isV1 arrival.target.path = true := by
    have shape : utf8 "/v1" ++ slash :: suffix = utf8 "/v1/" ++ suffix := rfl
    rw [isV1, admitted, shape, Bool.and_eq_true, List.isPrefixOf_iff_prefix, decide_eq_true_eq,
      List.length_append]
    exact ⟨List.prefix_append _ _, Nat.lt_add_of_pos_right (List.length_pos_of_ne_nil more)⟩
  rcases arrival.gateway.routeV1_of_authenticate arrival.library arrival.digestHex authenticated
    normalized known admitted with ⟨dotted, -⟩ | ⟨-, url, sent, -⟩
  · exact absurd kept dotted
  · rw [metered, accepted, routed, if_pos v1, sent, path]
    rfl

end Arrival

/-- Where a request is. -/
inductive Lifecycle (F : Type)
  /-- It is answered at once. -/
  | rejected
  /-- The head of the response is awaited. -/
  | awaiting (machineId : String) (operation : Option Operation) (audit : AuditQueue)
  /-- The transport failed and the caller is answered. -/
  | failed (audit : AuditQueue) (offered : List AuditRecord)
  /-- The caller disconnected before the head was there. -/
  | abandoned (audit : AuditQueue)
  /-- The response is relayed. -/
  | relaying (exchange : Exchange F) (relay : Relay)

/-- What happens to a request. -/
inductive Event
  /-- The head of the response arrives, or the transport fails. -/
  | head
  /-- The caller disconnects before it was answered. -/
  | disconnect
  /-- The steps of a relay, of which the audit writer's can be taken before. -/
  | relay (action : Action)
  deriving DecidableEq

/-- The steps that pump and caller take without dropping the body. -/
def Action.goesOn : Action → Bool
  | .pull | .finish | .send | .refuse | .cancel | .close | .record | .read | .readEnd | .release =>
      true
  | .drop | .drain | .submit _ | .disconnect => false

/-- The steps by which a request is dealt with. -/
def Event.goesOn : Event → Bool
  | .head => true
  | .disconnect => false
  | .relay action => action.goesOn

namespace Lifecycle

def start (arrival : Arrival F) (audit : AuditQueue) : Lifecycle F :=
  match arrival.accepted with
  | some (machineId, operation) => .awaiting machineId operation audit
  | none => .rejected

/-- The head of the response, or the failure of the transport. -/
def answer (arrival : Arrival F) (audit : AuditQueue) (machineId : String)
    (operation : Option Operation) : Lifecycle F :=
  match arrival.reply with
  | some reply =>
      let exchange := arrival.exchange machineId operation reply
      .relaying exchange (.start exchange audit)
  | none =>
      match operation with
      | some operation =>
          let record := recordTransportError arrival.stamp machineId operation
            arrival.reasoningEffort
          .failed (audit.tryRecord record) [record]
      | none => .failed audit []

/-- The step an event is, if it can happen. -/
def step (arrival : Arrival F) : Lifecycle F → Event → Option (Lifecycle F)
  | .awaiting machineId operation audit, .head => some (answer arrival audit machineId operation)
  | .awaiting _ _ audit, .disconnect => some (.abandoned audit)
  | .awaiting machineId operation audit, .relay .drain =>
      some (.awaiting machineId operation audit.drain)
  | .awaiting machineId operation audit, .relay (.submit record) =>
      some (.awaiting machineId operation (audit.tryRecord record))
  | .awaiting machineId operation audit, .relay .disconnect =>
      some (.awaiting machineId operation { audit with connected := false })
  | .relaying exchange relay, .relay action =>
      (relay.step exchange action).map (.relaying exchange)
  | _, _ => none

/-- The records offered to the audit writer so far. -/
def offered : Lifecycle F → List AuditRecord
  | .rejected | .awaiting _ _ _ | .abandoned _ => []
  | .failed _ offered => offered
  | .relaying _ relay => relay.offered

/-- The gateway has done with the request: its handler has answered it without a
response to relay or was dropped, or the task of its pump has ended, be it by a
panic. -/
def isOver : Lifecycle F → Bool
  | .rejected | .failed _ _ | .abandoned _ => true
  | .awaiting _ _ _ => false
  | .relaying _ relay => relay.phase.isEnded

/-- The caller disconnected before the head of the response was there. -/
def isAbandoned : Lifecycle F → Bool
  | .abandoned _ => true
  | .rejected | .awaiting _ _ _ | .failed _ _ | .relaying _ _ => false

/-- The task of the pump was ended by a panic. -/
def isPanicked : Lifecycle F → Bool
  | .relaying _ relay => relay.phase.isPanicked
  | .rejected | .awaiting _ _ _ | .failed _ _ | .abandoned _ => false

/-- The gateway has done with the request, and nothing kept it from offering a
record. -/
def isConcluded (lifecycle : Lifecycle F) : Bool :=
  lifecycle.isOver && !lifecycle.isAbandoned && !lifecycle.isPanicked

/-- Finalizing the observer of the response that is relayed panics. -/
def panics : Lifecycle F → Bool
  | .relaying exchange relay => relay.panics exchange
  | .rejected | .awaiting _ _ _ | .failed _ _ | .abandoned _ => false

variable {arrival : Arrival F} {lifecycle next : Lifecycle F} {event : Event}

/-- What a lifecycle has come from. -/
inductive Comes (arrival : Arrival F) : Lifecycle F → Prop
  | rejected (none : arrival.accepted = none) : Comes arrival .rejected
  | awaiting {machineId : String} {operation : Option Operation} (audit : AuditQueue)
      (accepted : arrival.accepted = some (machineId, operation)) :
      Comes arrival (.awaiting machineId operation audit)
  | failed {machineId : String} {operation : Option Operation} (audit : AuditQueue)
      (accepted : arrival.accepted = some (machineId, operation)) :
      Comes arrival (.failed audit (operation.map fun operation =>
        recordTransportError arrival.stamp machineId operation arrival.reasoningEffort).toList)
  | abandoned (audit : AuditQueue) (accepted : arrival.accepted.isSome) :
      Comes arrival (.abandoned audit)
  | relaying {machineId : String} {operation : Option Operation} {reply : Reply}
      {audit : AuditQueue} {relay : Relay}
      (accepted : arrival.accepted = some (machineId, operation))
      (reached : Reachable (Relay.step (arrival.exchange machineId operation reply))
        (.start (arrival.exchange machineId operation reply) audit) relay) :
      Comes arrival (.relaying (arrival.exchange machineId operation reply) relay)

theorem comes_start (arrival : Arrival F) (audit : AuditQueue) :
    Comes arrival (start arrival audit) := by
  rw [start]
  cases accepted : arrival.accepted with
  | none => exact .rejected accepted
  | some sent => exact .awaiting audit accepted

theorem comes_answer {machineId : String} {operation : Option Operation} (audit : AuditQueue)
    (accepted : arrival.accepted = some (machineId, operation)) :
    Comes arrival (answer arrival audit machineId operation) := by
  cases replied : arrival.reply with
  | some reply =>
      simp only [answer, replied]
      exact .relaying accepted (.refl _)
  | none =>
      cases operation <;> simp only [answer, replied] <;> exact .failed _ accepted

/-- Every step comes from where the lifecycle has come from. -/
theorem comes_step (taken : step arrival lifecycle event = some next)
    (comes : Comes arrival lifecycle) : Comes arrival next := by
  cases comes with
  | rejected | failed | abandoned => cases taken
  | awaiting audit accepted =>
      cases event with
      | head =>
          cases taken
          exact comes_answer audit accepted
      | disconnect =>
          cases taken
          exact .abandoned audit (by rw [accepted]; rfl)
      | relay action =>
          cases action with
          | drain | submit | disconnect =>
              cases taken
              exact .awaiting _ accepted
          | pull | finish | send | refuse | cancel | close | record | read | readEnd | drop |
              release => cases taken
  | relaying accepted reached =>
      cases event with
      | head | disconnect => cases taken
      | relay action =>
          obtain ⟨relay', moved, rfl⟩ := Option.map_eq_some_iff.mp taken
          obtain ⟨actions, ran⟩ := reached
          refine .relaying accepted ⟨actions ++ [action], run_append ran ?_⟩
          exact run_cons_eq_some.mpr ⟨relay', moved, rfl⟩

/-- What is left of a relay can be done, whatever the caller does. -/
theorem step_of_pending {exchange : Exchange F} {relay : Relay} (held : Relay.Flow exchange relay)
    (pending : relay.phase.isEnded = false) :
    ∃ action, action.goesOn ∧ (relay.step exchange action).isSome := by
  have progressed
      (found : ∃ action, Relay.progresses action ∧ (relay.step exchange action).isSome) :
      ∃ action, action.goesOn ∧ (relay.step exchange action).isSome := by
    obtain ⟨action, own, possible⟩ := found
    refine ⟨action, ?_, possible⟩
    cases action <;> first | rfl | cases own
  cases phase : relay.phase with
  | polling => exact progressed (Relay.step_of_polling exchange phase)
  | sending chunk =>
      cases caller : relay.caller with
      | reading =>
          have kept : relay.caller ≠ .dropped := by
            rw [caller]
            exact Caller.noConfusion
          exact progressed (Relay.step_of_reading exchange caller (held.kept kept).1)
      | ended how => exact absurd caller (held.not_ended (by rw [phase]; rfl) how)
      | dropped =>
          -- The receiver goes with the body, and then refuses the chunk.
          cases receiver : relay.receiver with
          | true =>
              refine ⟨.release, rfl, ?_⟩
              rw [Relay.step, if_pos ⟨caller, receiver⟩, Option.isSome_some]
          | false =>
              refine ⟨.refuse, rfl, ?_⟩
              simp only [Relay.step, phase, receiver, Option.isSome_some]
  | left pumped => exact ⟨.close, rfl, Relay.step_of_left exchange phase⟩
  | closed pumped =>
      refine ⟨.record, rfl, ?_⟩
      simp only [Relay.step, phase]
      split <;> rfl
  | recorded | panicked =>
      rw [phase] at pending
      cases pending

/-- **A lifecycle is never stuck before it is over**, and needs no disconnect to
get there. -/
theorem proceeds (comes : Comes arrival lifecycle) (pending : lifecycle.isOver = false) :
    ∃ event next, event.goesOn ∧ step arrival lifecycle event = some next := by
  cases comes with
  | rejected | failed | abandoned => cases pending
  | awaiting audit accepted => exact ⟨.head, _, rfl, rfl⟩
  | @relaying machineId operation reply audit relay accepted reached =>
      obtain ⟨action, own, possible⟩ := step_of_pending (Relay.flow reached) pending
      obtain ⟨next, taken⟩ := Option.isSome_iff_exists.mp possible
      refine ⟨.relay action, .relaying (arrival.exchange machineId operation reply) next, own, ?_⟩
      rw [step, taken, Option.map_some]

/-- **A lifecycle that is over has offered its record**, unless the caller left
before the head of the response was there or the pump panicked: one if the
request is metered, and none otherwise. -/
theorem offered_of_isOver (comes : Comes arrival lifecycle) (ended : lifecycle.isOver = true)
    (attended : lifecycle.isAbandoned = false) (readable : lifecycle.isPanicked = false) :
    ∃ upstream : Upstream, lifecycle.offered = (arrival.metered.map fun (machineId, operation) =>
      upstream.record arrival.readers arrival.stamp machineId operation
        arrival.reasoningEffort).toList := by
  cases comes with
  | rejected none =>
      refine ⟨.transportError, ?_⟩
      rw [Arrival.metered, none]
      rfl
  | awaiting => cases ended
  | @failed machineId operation audit accepted =>
      refine ⟨.transportError, ?_⟩
      rw [Arrival.metered, accepted]
      cases operation <;> rfl
  | abandoned => cases attended
  | @relaying machineId operation reply audit relay accepted reached =>
      cases phase : relay.phase with
      | polling | sending | left | closed =>
          rw [Lifecycle.isOver, phase] at ended
          cases ended
      | panicked =>
          rw [Lifecycle.isPanicked, phase] at readable
          cases readable
      | recorded pumped =>
          refine ⟨.response reply.status reply.openaiModel relay.pulled pumped, ?_⟩
          have offered := (Relay.observed reached).offered
          rw [phase, Relay.offers, Relay.auditOf] at offered
          rw [Lifecycle.offered, offered, Arrival.metered, accepted]
          cases operation <;> rfl

/-- A lifecycle that the caller has left before the head of the response was there,
or whose pump panicked, has offered nothing. -/
theorem offered_of_lost (comes : Comes arrival lifecycle)
    (lost : lifecycle.isAbandoned = true ∨ lifecycle.isPanicked = true) :
    lifecycle.offered = [] := by
  cases comes with
  | rejected | awaiting | abandoned => rfl
  | failed => rcases lost with lost | lost <;> cases lost
  | @relaying machineId operation reply audit relay accepted reached =>
      rw [Lifecycle.offered, (Relay.observed reached).offered]
      cases phase : relay.phase with
      | polling | sending | left | closed | panicked => rfl
      | recorded =>
          rw [isAbandoned, isPanicked, phase] at lost
          rcases lost with lost | lost <;> cases lost

/-- A lifecycle that is not over has offered nothing. -/
theorem offered_of_pending (comes : Comes arrival lifecycle)
    (pending : lifecycle.isOver = false) : lifecycle.offered = [] := by
  cases comes with
  | rejected | failed | abandoned => cases pending
  | awaiting => rfl
  | @relaying machineId operation reply audit relay accepted reached =>
      rw [Lifecycle.offered, (Relay.observed reached).offered]
      cases phase : relay.phase with
      | polling | sending | left | closed | panicked => rfl
      | recorded =>
          rw [isOver, phase] at pending
          cases pending

/-- A request that is not metered offers nothing. -/
theorem offered_of_unmetered (comes : Comes arrival lifecycle)
    (unmetered : arrival.metered = none) : lifecycle.offered = [] := by
  have none {machineId : String} {operation : Option Operation}
      (accepted : arrival.accepted = some (machineId, operation)) : operation = none := by
    rw [Arrival.metered, accepted, Option.bind_some, Option.map_eq_none_iff] at unmetered
    exact unmetered
  cases comes with
  | rejected | awaiting | abandoned => rfl
  | failed audit accepted =>
      cases none accepted
      rfl
  | @relaying machineId operation reply audit relay accepted reached =>
      cases none accepted
      rw [Lifecycle.offered, (Relay.observed reached).offered]
      cases relay.phase <;> rfl

/-- What a lifecycle offers can be submitted for writing. -/
theorem offered_canonical (comes : Comes arrival lifecycle) :
    ∀ record ∈ lifecycle.offered, record.Canonical := by
  intro record member
  cases comes with
  | rejected | awaiting | abandoned => cases member
  | @failed machineId operation audit accepted =>
      obtain ⟨operation', -, rfl⟩ := Option.map_eq_some_iff.mp (Option.mem_toList.mp member)
      exact Upstream.record_canonical arrival.readers arrival.stamp machineId operation'
        arrival.reasoningEffort .transportError
  | @relaying machineId operation reply audit relay accepted reached =>
      rw [Lifecycle.offered, (Relay.observed reached).offered] at member
      cases phase : relay.phase with
      | polling | sending | left | closed | panicked =>
          rw [phase] at member
          cases member
      | recorded pumped =>
          rw [phase, Relay.offers, Relay.auditOf, Option.mem_toList] at member
          obtain ⟨operation', -, rfl⟩ := Option.map_eq_some_iff.mp member
          exact Upstream.record_canonical arrival.readers arrival.stamp machineId operation'
            arrival.reasoningEffort _

end Lifecycle

/-- A response to a metered path of a known machine. -/
def responses : Arrival Empty where
  gateway := codexGateway
  library := hostLibrary
  digestHex := fun _ => "0"
  readers := standardReaders
  meterKeys := [utf8 "key"]
  target := ⟨utf8 "/v1/responses", none, forall_of_not_any rfl⟩
  stamp := ⟨"0", "2026-01-01T00:00:00Z"⟩
  reasoningEffort := none
  reply := none

theorem metered_responses : responses.metered = some ("laptop", .response) :=
  responses.metered_of_authenticate authenticate_codexGateway rfl rfl rfl
    unencoded_hostLibrary

theorem accepted_responses : responses.accepted = some ("laptop", some .response) := by
  have metered := metered_responses
  rw [Arrival.metered, Option.bind_eq_some_iff] at metered
  obtain ⟨⟨machineId, operation⟩, accepted, metered⟩ := metered
  obtain ⟨operation', rfl, same⟩ := Option.map_eq_some_iff.mp metered
  cases same
  exact accepted

theorem start_responses (audit : AuditQueue) : Lifecycle.start responses audit =
    .awaiting "laptop" (some .response) audit := by
  rw [Lifecycle.start, accepted_responses]

/-- A document with a usage. -/
def document : Bytes := utf8 "\x7b\"usage\":\x7b\"input_tokens\":7\x7d\x7d"

/-- The same request, answered by the document. -/
def answered : Arrival Empty :=
  { responses with reply := some ⟨200, some "gpt-5", [document], .clean⟩ }

theorem accepted_answered : answered.accepted = some ("laptop", some .response) :=
  accepted_responses

theorem start_answered (audit : AuditQueue) : Lifecycle.start answered audit =
    .awaiting "laptop" (some .response) audit := by
  rw [Lifecycle.start, accepted_answered]

/-- What happens when a response of one chunk is relayed, until its sender is
dropped. -/
def relaying : List Event := .head :: [.pull, .send, .finish, .close].map .relay

end Debitmetre
