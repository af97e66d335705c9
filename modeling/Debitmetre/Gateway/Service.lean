import Debitmetre.Foundation.Pool
import Debitmetre.Gateway.AuditWriter
import Debitmetre.Gateway.Lifecycle

/-!
# The service

A gateway serves any number of requests at a time, which share its audit writer
and nothing else.  What a request does is decided by its caller and the upstream
alone: the queue it offers its record to is never looked at, so the writer can
be slow, failing or gone without any request noticing it.  And what the requests
offer is, but for the order, what the writer has accepted or dropped.
-/

namespace Debitmetre

open Wire Transition

variable {F : Type}

/-- The steps of the pump and the caller. -/
def Action.isOwn : Action → Bool
  | .pull | .finish | .send | .refuse | .cancel | .close | .record | .read | .readEnd | .drop |
      .release => true
  | .drain | .submit _ | .disconnect => false

/-- What a request does by itself. -/
def Event.isOwn : Event → Bool
  | .head | .disconnect => true
  | .relay action => action.isOwn

/-- Another queue to offer records to. -/
def Relay.attach (audit : AuditQueue) (relay : Relay) : Relay := { relay with audit }

namespace Relay

variable {exchange : Exchange F} {relay next : Relay} {action : Action}

theorem step_attach (own : action.isOwn = true) (other : action ≠ .record) (audit : AuditQueue)
    (relay : Relay) :
    step exchange (relay.attach audit) action =
      (step exchange relay action).map (attach audit) := by
  cases action with
  | pull =>
      cases phase : relay.phase <;> cases upstream : relay.upstream <;>
        simp only [step, attach, phase, upstream]
      all_goals rfl
  | finish =>
      cases phase : relay.phase <;> cases upstream : relay.upstream <;>
        simp only [step, attach, phase, upstream]
      all_goals rfl
  | send =>
      cases phase : relay.phase <;> cases receiver : relay.receiver <;>
        simp only [step, attach, phase, receiver, Option.map_map, Option.map_none]
      rfl
  | refuse =>
      cases phase : relay.phase <;> cases receiver : relay.receiver <;>
        simp only [step, attach, phase, receiver]
      all_goals rfl
  | cancel | readEnd | drop | release =>
      simp only [step, apply_ite (Option.map (attach audit)), Option.map_some, Option.map_none]
      rfl
  | close =>
      cases phase : relay.phase <;> simp only [step, attach, phase]
      all_goals rfl
  | read =>
      cases caller : relay.caller <;> cases popped : relay.channel.pop <;>
        simp only [step, attach, caller, popped]
      all_goals rfl
  | record => exact absurd rfl other
  | drain | submit | disconnect => cases own

/-- Whatever queue it is offered to, a relay offers the same. -/
theorem step_own (own : action.isOwn = true) (taken : step exchange relay action = some next) :
    ∃ output : Option AuditRecord, next.offered = relay.offered ++ output.toList ∧
      ∀ audit : AuditQueue, step exchange (relay.attach audit) action =
        some (next.attach (output.elim audit audit.tryRecord)) := by
  by_cases record : action = .record
  · subst record
    cases moves_of_step taken with
    | @record pumped closed reads =>
        refine ⟨_, rfl, fun audit => ?_⟩
        simp only [step, attach, closed]
        change (if relay.panics exchange then _ else _) = _
        rw [reads]
        rfl
    | panic closed panics =>
        refine ⟨none, (List.append_nil _).symm, fun audit => ?_⟩
        simp only [step, attach, closed]
        change (if relay.panics exchange then _ else _) = _
        rw [panics]
        rfl
  · refine ⟨none, ?_, fun audit => ?_⟩
    · rw [Option.toList_none, List.append_nil]
      cases moves_of_step taken with
      | record | panic => exact absurd rfl record
      | pull | finish | send | refuse | cancel | close | read | readEnd | drop | release => rfl
      | drain | submit | disconnect => cases own
    · rw [step_attach own record, taken]
      rfl

end Relay

namespace Lifecycle

variable {arrival : Arrival F} {lifecycle next : Lifecycle F} {event : Event}

/-- Another queue to offer records to. -/
def attach (audit : AuditQueue) : Lifecycle F → Lifecycle F
  | .rejected => .rejected
  | .awaiting machineId operation _ => .awaiting machineId operation audit
  | .failed _ offered => .failed audit offered
  | .abandoned _ => .abandoned audit
  | .relaying exchange relay => .relaying exchange (relay.attach audit)

/-- Whatever queue it is offered to, a request offers the same. -/
theorem step_own (own : event.isOwn = true) (taken : step arrival lifecycle event = some next) :
    ∃ output : Option AuditRecord, next.offered = lifecycle.offered ++ output.toList ∧
      ∀ audit : AuditQueue, step arrival (lifecycle.attach audit) event =
        some (next.attach (output.elim audit audit.tryRecord)) := by
  cases lifecycle with
  | rejected | failed | abandoned => cases taken
  | awaiting machineId operation audit =>
      cases event with
      | head =>
          cases taken
          cases replied : arrival.reply with
          | some reply =>
              refine ⟨none, ?_, fun _ => ?_⟩ <;> simp only [attach, step, answer, replied] <;> rfl
          | none =>
              cases operation with
              | some operation =>
                  refine ⟨some (recordTransportError arrival.stamp machineId operation
                    arrival.reasoningEffort), ?_, fun _ => ?_⟩
                  all_goals simp only [attach, step, answer, replied]
                  all_goals rfl
              | none =>
                  refine ⟨none, ?_, fun _ => ?_⟩ <;> simp only [attach, step, answer, replied] <;>
                    rfl
      | disconnect =>
          cases taken
          exact ⟨none, rfl, fun _ => rfl⟩
      | relay action =>
          cases action with
          | drain | submit | disconnect => cases own
          | pull | finish | send | refuse | cancel | close | record | read | readEnd | drop |
              release => cases taken
  | relaying exchange relay =>
      cases event with
      | head | disconnect => cases taken
      | relay action =>
          obtain ⟨relay', moved, rfl⟩ := Option.map_eq_some_iff.mp taken
          obtain ⟨output, offered, same⟩ := Relay.step_own own moved
          refine ⟨output, offered, fun audit => ?_⟩
          rw [attach, step, same, Option.map_some]
          rfl

end Lifecycle

/-- A queue that takes nothing. -/
def AuditQueue.detached : AuditQueue := ⟨.empty, false⟩

/-- The requests of a gateway: each has a queue of its own that takes nothing, and
puts out what it offers. -/
def requests : Pool.Machine (Arrival F) (Lifecycle F) Event AuditRecord where
  start arrival := .start arrival .detached
  step arrival lifecycle event :=
    if event.isOwn then
      (lifecycle.step arrival event).map fun next =>
        (next, next.offered[lifecycle.offered.length]?)
    else none

/-- The audit writer, which keeps its handles as long as the gateway serves. -/
def auditWriter : Pool.Sink AuditWriter AuditWriter.Act AuditRecord where
  take := AuditWriter.tryRecord
  step writer action := if action = .close then none else writer.step action

/-- The requests that have arrived at a gateway, and its audit writer. -/
abbrev Service (F : Type) := Pool (Arrival F) (Lifecycle F) AuditWriter

/-- What happens to a service. -/
abbrev Incident (F : Type) := Pool.Act (Arrival F) Event AuditWriter.Act

namespace Service

/-- Open the usage file and wait for requests. -/
def start (file : Option Bytes) : Service F := ⟨[], .spawn (AuditWriter.start file)⟩

def step (service : Service F) (incident : Incident F) : Option (Service F) :=
  Pool.step requests auditWriter service incident

/-- The records that the requests have offered. -/
def offered (service : Service F) : List AuditRecord :=
  service.members.flatMap fun member => member.2.offered

variable {service : Service F} {file : Option Bytes} {incidents : List (Incident F)}
  {arrival : Arrival F} {lifecycle next : Lifecycle F} {event : Event}

/-- What a request puts out is what it offers, whatever queue it is offered to. -/
theorem requests_step {output : Option AuditRecord}
    (taken : requests.step arrival lifecycle event = some (next, output)) :
    event.isOwn = true ∧ lifecycle.step arrival event = some next ∧
      next.offered = lifecycle.offered ++ output.toList ∧
      ∀ audit : AuditQueue, Lifecycle.step arrival (lifecycle.attach audit) event =
        some (next.attach (output.elim audit audit.tryRecord)) := by
  obtain ⟨own, taken⟩ := Option.ite_none_right_eq_some.mp taken
  obtain ⟨after, moved, same⟩ := Option.map_eq_some_iff.mp taken
  cases same
  obtain ⟨output, offered, follows⟩ := Lifecycle.step_own own moved
  have put : next.offered[lifecycle.offered.length]? = output := by
    rw [offered, List.getElem?_append_right (Nat.le_refl _), Nat.sub_self]
    cases output <;> rfl
  rw [put]
  exact ⟨own, moved, offered, follows⟩

/-- A request by itself takes the steps of its lifecycle. -/
theorem alone_requests (next : Lifecycle F) :
    requests.alone arrival lifecycle event = some next ↔
      event.isOwn = true ∧ lifecycle.step arrival event = some next := by
  rw [Pool.Machine.alone, Option.map_eq_some_iff]
  constructor
  · intro moves
    obtain ⟨⟨after, output⟩, taken, same⟩ := moves
    cases same
    obtain ⟨own, moved, -, -⟩ := requests_step taken
    exact ⟨own, moved⟩
  · intro both
    obtain ⟨own, moved⟩ := both
    refine ⟨(next, next.offered[lifecycle.offered.length]?), ?_, rfl⟩
    change (if event.isOwn then _ else none) = _
    rw [if_pos own, moved, Option.map_some]

theorem run_alone_iff {events : List Event} {final : Lifecycle F} :
    run (requests.alone arrival) lifecycle events = some final ↔
      (∀ event ∈ events, event.isOwn = true) ∧
        run (Lifecycle.step arrival) lifecycle events = some final := by
  induction events generalizing lifecycle with
  | nil => exact ⟨fun ran => ⟨List.forall_mem_nil _, ran⟩, fun both => both.2⟩
  | cons event events ih =>
      rw [run_cons_eq_some, run_cons_eq_some, List.forall_mem_cons]
      constructor
      · intro ⟨next, taken, ran⟩
        obtain ⟨own, moved⟩ := (alone_requests next).mp taken
        obtain ⟨owned, ran⟩ := ih.mp ran
        exact ⟨⟨own, owned⟩, next, moved, ran⟩
      · intro ⟨⟨own, owned⟩, next, moved, ran⟩
        exact ⟨next, (alone_requests next).mpr ⟨own, moved⟩, ih.mpr ⟨owned, ran⟩⟩

theorem attach_attach (audit audit' : AuditQueue) (lifecycle : Lifecycle F) :
    (lifecycle.attach audit).attach audit' = lifecycle.attach audit' := by
  cases lifecycle <;> rfl

/-- A request runs the same with any queue. -/
theorem run_attach {events : List Event} {final : Lifecycle F}
    (own : ∀ event ∈ events, event.isOwn = true)
    (ran : run (Lifecycle.step arrival) lifecycle events = some final) (audit : AuditQueue) :
    ∃ audit', run (Lifecycle.step arrival) (lifecycle.attach audit) events =
      some (final.attach audit') := by
  induction events generalizing lifecycle audit with
  | nil =>
      cases ran
      exact ⟨audit, rfl⟩
  | cons event events ih =>
      obtain ⟨first, others⟩ := List.forall_mem_cons.mp own
      obtain ⟨next, taken, ran⟩ := run_cons_eq_some.mp ran
      obtain ⟨output, -, same⟩ := Lifecycle.step_own first taken
      obtain ⟨audit', rest⟩ := ih others ran (output.elim audit audit.tryRecord)
      exact ⟨audit', run_cons_eq_some.mpr ⟨_, same audit, rest⟩⟩

theorem start_attach (arrival : Arrival F) (audit audit' : AuditQueue) :
    (Lifecycle.start arrival audit).attach audit' = .start arrival audit' := by
  rw [Lifecycle.start, Lifecycle.start]
  cases arrival.accepted <;> rfl

/-- Whether a request can run so far does not depend on the queue. -/
theorem isSome_run_iff {events : List Event} (own : ∀ event ∈ events, event.isOwn = true)
    (audit : AuditQueue) :
    (run (requests.alone arrival) (requests.start arrival) events).isSome ↔
      (run (Lifecycle.step arrival) (.start arrival audit) events).isSome := by
  rw [Option.isSome_iff_exists, Option.isSome_iff_exists]
  constructor
  · intro ⟨final, ran⟩
    obtain ⟨audit', same⟩ := run_attach own (run_alone_iff.mp ran).2 audit
    exact ⟨_, start_attach arrival .detached audit ▸ same⟩
  · intro ⟨final, ran⟩
    obtain ⟨audit', same⟩ := run_attach own ran .detached
    exact ⟨_, run_alone_iff.mpr ⟨own, start_attach arrival audit .detached ▸ same⟩⟩

/-- The request at some place in the service comes from its arrival. -/
theorem comes (ran : run step (.start file) incidents = some service)
    (member : (arrival, lifecycle) ∈ service.members) : Lifecycle.Comes arrival lifecycle := by
  obtain ⟨index, there⟩ := List.mem_iff_getElem?.mp member
  have alone := run_alone_iff.mp ((Pool.alone_of_run ran).ran there)
  exact invariant (Lifecycle.Comes arrival) Lifecycle.comes_step alone.2
    (Lifecycle.comes_start arrival _)

/-- What the writer of a service keeps to. -/
structure Kept (file : Option Bytes) (writer : AuditWriter) : Prop where
  held : AuditWriter.Held (AuditWriter.start file) writer
  warned : AuditWriter.Warned writer
  roomy : AuditWriter.Roomy writer
  sender : writer.tx = true

theorem kept_start (file : Option Bytes) : Kept file (.spawn (AuditWriter.start file)) where
  held := AuditWriter.held_spawn _
  warned := AuditWriter.warned_spawn _
  roomy := fun _ _ more => (more rfl).elim
  sender := rfl

theorem kept_tryRecord {writer : AuditWriter} (kept : Kept file writer) (record : AuditRecord) :
    Kept file (writer.tryRecord record) where
  held := AuditWriter.held_tryRecord kept.held record
  warned := AuditWriter.warned_tryRecord kept.warned record
  roomy := AuditWriter.roomy_tryRecord kept.held kept.roomy record
  sender := by
    rcases writer.tryRecord_cases record with ⟨-, -, queue, -, -, taken⟩ | ⟨taken, -, -⟩
    · rw [taken]
      exact kept.sender
    · rw [taken]
      exact kept.sender

theorem auditWriter_step {writer next : AuditWriter} {action : AuditWriter.Act}
    (taken : auditWriter.step writer action = some next) :
    action ≠ .close ∧ writer.step action = some next := Option.ite_none_left_eq_some.mp taken

theorem kept_step {writer next : AuditWriter} {action : AuditWriter.Act}
    (taken : auditWriter.step writer action = some next) (kept : Kept file writer) :
    Kept file next := by
  obtain ⟨open_, taken⟩ := auditWriter_step taken
  refine ⟨AuditWriter.held_step taken kept.held,
    AuditWriter.warned_step taken kept.held kept.warned,
    AuditWriter.roomy_step taken kept.roomy, ?_⟩
  cases AuditWriter.moves_of_step taken with
  | write =>
      rw [AuditWriter.wrote]
      split_ifs <;> exact kept.sender
  | close => exact absurd rfl open_
  | recv | fail | stop | die => exact kept.sender

theorem kept (ran : run step (.start file) incidents = some service) :
    Kept file service.sink :=
  Pool.sink_invariant (Kept file) (fun record kept => kept_tryRecord kept record) kept_step ran
    (kept_start file)

/-- The last handle of the writer is dropped. -/
theorem closed_of_kept {writer : AuditWriter} (kept : Kept file writer) :
    AuditWriter.Closed (AuditWriter.start file) writer.accepted writer.dropped
      { writer with tx := false } where
  held := { kept.held with }
  warned := { kept.warned with }
  closed := rfl
  accepted := rfl
  dropped := rfl

theorem shows : Pool.Shows (requests (F := F)) auditWriter (fun member => member.2.offered)
    (fun writer => writer.accepted ++ writer.dropped) where
  start := by
    intro arrival
    change (Lifecycle.start arrival .detached).offered = []
    rw [Lifecycle.start]
    cases arrival.accepted <;> rfl
  step := fun taken => (requests_step taken).2.2.1
  take := by
    intro writer record
    change ((writer.tryRecord record).accepted ++ (writer.tryRecord record).dropped).Perm _
    rcases writer.tryRecord_cases record with ⟨-, -, queue, -, -, taken⟩ | ⟨taken, -, -⟩
    · rw [taken, List.append_assoc, List.append_assoc]
      exact List.perm_append_comm.append_left _
    · rw [taken, AuditWriter.drop, ← List.append_assoc]
  serve := by
    intro writer action next taken
    obtain ⟨-, taken⟩ := auditWriter_step taken
    cases AuditWriter.moves_of_step taken with
    | write =>
        rw [AuditWriter.wrote]
        split_ifs <;> rfl
    | recv | close | fail | stop | die => rfl

/-- What the requests have offered has been accepted or dropped. -/
theorem conserved (ran : run step (.start file) incidents = some service) :
    service.offered.Perm (service.sink.accepted ++ service.sink.dropped) :=
  shows.conserves rfl ran

theorem canonical_of_accepted (ran : run step (.start file) incidents = some service)
    {record : AuditRecord} (accepted : record ∈ service.sink.accepted) : record.Canonical := by
  have offered := (conserved ran).mem_iff.mpr (List.mem_append_left _ accepted)
  obtain ⟨⟨arrival, lifecycle⟩, member, offered⟩ := List.mem_flatMap.mp offered
  exact Lifecycle.offered_canonical (comes ran member) record offered

/-- A record that is offered finds the writer there and room in its queue. -/
def Unhindered (service : Service F) (incident : Incident F) : Prop :=
  ∀ next, step service incident = some next → next.offered.length ≠ service.offered.length →
    service.sink.audit.connected = true ∧
      service.sink.audit.queue.items.length < auditQueueCapacity

theorem length_offered_set {service : Service F} {index : Nat} {before after : Lifecycle F}
    {output : Option AuditRecord}
    (there : service.members[index]? = some (arrival, before))
    (moved : requests.step arrival before event = some (after, output)) :
    ((service.members.set index (arrival, after)).flatMap fun member =>
      member.2.offered).length = service.offered.length + output.toList.length := by
  have grown : ((service.members.set index (arrival, after)).flatMap fun member =>
      member.2.offered).Perm (service.offered ++ output.toList) :=
    Pool.perm_flatMap_set (fun member => member.2.offered) there (requests_step moved).2.2.1
  rw [grown.length_eq, List.length_append]

/-- A record is dropped by an offer that is hindered, and by nothing else. -/
theorem dropped_step {service next : Service F} {incident : Incident F}
    (taken : step service incident = some next) (sender : service.sink.tx = true) :
    next.sink.dropped = [] ↔ service.sink.dropped = [] ∧ Unhindered service incident := by
  have unhindered_of_same (same : next.offered.length = service.offered.length) :
      Unhindered service incident := by
    intro next' taken' more
    cases Option.some.inj (taken.symm.trans taken')
    exact absurd same more
  cases Pool.moves_of_step taken with
  | join arrival =>
      refine (and_iff_left (unhindered_of_same ?_)).symm
      rw [offered, List.flatMap_append, List.flatMap_singleton, shows.start, List.append_nil]
      rfl
  | @sink action after served =>
      have same : after.dropped = service.sink.dropped := by
        obtain ⟨-, served⟩ := auditWriter_step served
        cases AuditWriter.moves_of_step served with
        | write =>
            rw [AuditWriter.wrote]
            split_ifs <;> rfl
        | recv | close | fail | stop | die => rfl
      change after.dropped = [] ↔ _
      rw [same]
      exact (and_iff_left (unhindered_of_same rfl)).symm
  | @member index arrival before after action output there moved =>
      have length := length_offered_set there moved
      cases output with
      | none => exact (and_iff_left (unhindered_of_same length)).symm
      | some record =>
          change (service.sink.tryRecord record).dropped = [] ↔ _
          rcases service.sink.tryRecord_cases record with
            ⟨-, connected, queue, items, -, accepted⟩ | ⟨dropped, -, full⟩
          · rw [accepted]
            refine (and_iff_left fun _ _ _ => ⟨connected, ?_⟩).symm
            have bounded := queue.bounded
            rw [items, List.length_append] at bounded
            exact bounded
          · rw [dropped]
            constructor
            · intro none
              exact absurd none (List.append_ne_nil_of_right_ne_nil _ (List.cons_ne_nil record []))
            · intro both
              have grown : (service.offered.length + 1) ≠ service.offered.length :=
                Nat.succ_ne_self _
              obtain ⟨connected, room⟩ := both.2 _ taken (length ▸ grown)
              exact absurd (full sender connected) (Nat.not_le_of_lt room)

/-- A request offers a record when it is over, unless it is not metered, was
abandoned or its pump panicked, and none before. -/
theorem length_offered (comes : Lifecycle.Comes arrival lifecycle) :
    lifecycle.offered.length =
      if arrival.metered.isSome && lifecycle.isConcluded then 1 else 0 := by
  rw [Lifecycle.isConcluded, Bool.and_assoc lifecycle.isOver, ← Bool.not_or]
  cases lost : lifecycle.isAbandoned || lifecycle.isPanicked with
  | true =>
      rw [Lifecycle.offered_of_lost comes (Bool.or_eq_true_iff.mp lost), Bool.not_true,
        Bool.and_false, Bool.and_false]
      rfl
  | false =>
      obtain ⟨attended, readable⟩ := Bool.or_eq_false_iff.mp lost
      rw [Bool.not_false, Bool.and_true]
      cases ended : lifecycle.isOver with
      | true =>
          obtain ⟨upstream, offered⟩ := Lifecycle.offered_of_isOver comes ended attended readable
          rw [offered]
          cases arrival.metered <;> rfl
      | false =>
          rw [Lifecycle.offered_of_pending comes ended, Bool.and_false]
          rfl

/-- The requests of a service that have been audited: those that are metered and
over, were not abandoned, and whose pump did not panic. -/
def audited (service : Service F) : Nat :=
  service.members.countP fun (arrival, lifecycle) =>
    arrival.metered.isSome && lifecycle.isConcluded

theorem length_offered_eq (ran : run step (.start file) incidents = some service) :
    service.offered.length = service.audited := by
  have each : ∀ member ∈ service.members, member.2.offered.length =
      if member.1.metered.isSome && member.2.isConcluded then 1 else 0 :=
    fun member there => length_offered (comes ran there)
  rw [offered, audited]
  generalize service.members = members at each
  induction members with
  | nil => rfl
  | cons member members ih =>
      obtain ⟨first, others⟩ := List.forall_mem_cons.mp each
      rw [List.flatMap_cons, List.length_append, first, ih others, List.countP_cons, Nat.add_comm]

theorem start_detached : Lifecycle.start responses .detached =
    .awaiting "laptop" (some .response) .detached := start_responses _

/-- The record of a request that fails in transport. -/
def failure : AuditRecord := recordTransportError responses.stamp "laptop" .response none

/-- The record of a response that was relayed. -/
def success : AuditRecord :=
  (Upstream.response 200 (some "gpt-5") [document] .ended).record standardReaders responses.stamp
    "laptop" .response none

/-- A writer that has received its first record. -/
def received (old : Bytes) (record : AuditRecord) : AuditWriter :=
  { AuditWriter.spawn old with writing := some (record, 0), accepted := [record] }

/-- A writer that has written its first record. -/
def wrote (old : Bytes) (record : AuditRecord) : AuditWriter :=
  { AuditWriter.spawn old with
    file := old ++ record.line
    accepted := [record]
    settled := [(record, record.line.length)] }

theorem step_write (members : List (Arrival Empty × Lifecycle Empty)) {writer : AuditWriter}
    {record : AuditRecord} {kept octets : Nat} (connected : writer.audit.connected = true)
    (writing : writer.writing = some (record, kept)) (some_octets : 0 < octets)
    (within : kept + octets ≤ record.line.length) :
    step ⟨members, writer⟩ (.sink (.write octets)) =
      some ⟨members, writer.wrote record kept octets⟩ := by
  change Option.map _ (if AuditWriter.Act.write octets = .close then none else
    writer.step (.write octets)) = _
  rw [if_neg AuditWriter.Act.noConfusion,
    AuditWriter.step_write connected writing some_octets within, Option.map_some]

/-- A line that is written at once. -/
theorem step_write_line (members : List (Arrival Empty × Lifecycle Empty)) (old : Bytes)
    (record : AuditRecord) :
    step ⟨members, received old record⟩ (.sink (.write record.line.length)) =
      some ⟨members, wrote old record⟩ := by
  have written := (received old record).wrote_of_whole (Nat.zero_add record.line.length)
  rw [List.drop_zero, List.take_length, Nat.zero_add] at written
  rw [step_write members rfl rfl record.length_line_pos (Nat.le_of_eq (Nat.zero_add _)), written]
  rfl

/-- A writer that has written its first record, but for the newline. -/
def wroteText (old : Bytes) (record : AuditRecord) : AuditWriter :=
  { AuditWriter.spawn old with
    file := old ++ record.toVec
    writing := some (record, record.toVec.length)
    accepted := [record] }

/-- A line of which only the newline is missing. -/
theorem step_write_text (members : List (Arrival Empty × Lifecycle Empty)) (old : Bytes)
    (record : AuditRecord) :
    step ⟨members, received old record⟩ (.sink (.write record.toVec.length)) =
      some ⟨members, wroteText old record⟩ := by
  have part := record.length_toVec_lt
  rw [← Nat.zero_add record.toVec.length] at part
  have written := (received old record).wrote_of_part (Nat.ne_of_lt part)
  rw [List.drop_zero, Nat.zero_add, AuditRecord.line, List.take_left] at written
  rw [step_write members rfl rfl (Nat.lt_of_succ_lt record.one_lt_length_toVec)
    (Nat.le_of_lt part), written]
  rfl

/-- What has become of the request that is answered. -/
def afterAnswered : Lifecycle Empty :=
  (run (Lifecycle.step answered) (.awaiting "laptop" (some .response) .detached)
    (relaying ++ [.relay .record])).getD .rejected

/-- The steps of the request that is answered, up to its record being received. -/
def relayed : List (Incident Empty) :=
  relaying.map (.member 0) ++ [.member 0 (.relay .record), .sink .recv]

theorem run_relayed (others : List (Arrival Empty × Lifecycle Empty)) (old : Bytes) :
    run step ⟨(answered, .awaiting "laptop" (some .response) .detached) :: others, .spawn old⟩
      relayed = some ⟨(answered, afterAnswered) :: others, received old success⟩ := rfl

/-- Two requests, of which one is answered and the other fails in transport: the first
record is written, and of the second one octet is. -/
def halfway : List (Incident Empty) :=
  [.join answered, .join responses] ++ relayed ++ [.sink (.write success.line.length)] ++
    [.member 1 .head, .sink .recv] ++ [.sink (.write 1)]

def afterHalfway : Service Empty where
  members := [(answered, afterAnswered), (responses, .failed .detached [failure])]
  sink :=
    { AuditWriter.spawn [] with
      file := success.line ++ failure.line.take 1
      writing := some (failure, 1)
      accepted := [success, failure]
      settled := [(success, success.line.length)] }

/-- The one request is answered while the other waits. -/
theorem run_joined : run step (.start none) ([.join answered, .join responses] ++ relayed) = some
    ⟨[(answered, afterAnswered), (responses, .awaiting "laptop" (some .response) .detached)],
      received [] success⟩ := by
  have joined : run step (.start none) [.join answered, .join responses] = some
      ⟨[(answered, .awaiting "laptop" (some .response) .detached),
        (responses, .awaiting "laptop" (some .response) .detached)], .spawn []⟩ := by
    change some (Pool.mk [(answered, Lifecycle.start answered .detached),
      (responses, Lifecycle.start responses .detached)] (AuditWriter.spawn [])) = _
    rw [start_answered, start_detached]
  exact run_append joined (run_relayed _ _)

theorem run_halfway : run step (.start none) halfway = some afterHalfway := by
  have written : run step (.start none) ([.join answered, .join responses] ++ relayed ++
      [.sink (.write success.line.length)]) = some
        ⟨[(answered, afterAnswered), (responses, .awaiting "laptop" (some .response) .detached)],
          wrote [] success⟩ :=
    run_concat_eq_some.mpr ⟨_, run_joined, step_write_line _ _ success⟩
  have failed : run step
      ⟨[(answered, afterAnswered), (responses, .awaiting "laptop" (some .response) .detached)],
        wrote [] success⟩ [.member 1 .head, .sink .recv] = some
        ⟨afterHalfway.members, { wrote [] success with
          writing := some (failure, 0)
          accepted := [success, failure] }⟩ := rfl
  have more := failure.one_lt_length_line
  refine run_concat_eq_some.mpr ⟨_, run_append written failed, ?_⟩
  rw [step_write _ rfl rfl Nat.one_pos (Nat.le_of_lt more),
    AuditWriter.wrote_of_part _ (Nat.ne_of_lt more)]
  rfl

/-- The file takes no more of the second line. -/
def torn : List (Incident Empty) := halfway ++ [.sink .fail]

def afterTorn : Service Empty where
  members := afterHalfway.members
  sink :=
    { AuditWriter.spawn [] with
      writeWarned := true
      file := success.line ++ failure.line.take 1
      stderr := [auditWriteFailed]
      accepted := [success, failure]
      settled := [(success, success.line.length), (failure, 1)] }

theorem run_torn : run step (.start none) torn = some afterTorn :=
  run_concat_eq_some.mpr ⟨_, run_halfway, rfl⟩

theorem isTorn_failure : AuditWriter.isTorn (failure, 1) = true :=
  decide_eq_true failure.one_lt_length_line

theorem not_isTorn (record : AuditRecord) :
    AuditWriter.isTorn (record, record.line.length) = false :=
  decide_eq_false (Nat.lt_irrefl _)

end Service

open Service

section Results

variable {file : Option Bytes} {incidents : List (Incident F)} {service : Service F}

/-- **A request is served as if it were the only one.** What has become of a
request is what becomes of its lifecycle alone, whatever queue its record is
offered to, and what it can do next is what it could do then. -/
theorem Service.served_alone (ran : run Service.step (.start file) incidents = some service)
    {index : Nat} {arrival : Arrival F} {lifecycle : Lifecycle F}
    (there : service.members[index]? = some (arrival, lifecycle)) (audit : AuditQueue) :
    (∃ audit', run (Lifecycle.step arrival) (.start arrival audit)
        (Pool.actionsOf index incidents) = some (lifecycle.attach audit')) ∧
      ∀ event, event.isOwn = true →
        ((Service.step service (.member index event)).isSome ↔
          (run (Lifecycle.step arrival) (.start arrival audit)
            (Pool.actionsOf index incidents ++ [event])).isSome) := by
  obtain ⟨own, alone⟩ := run_alone_iff.mp ((Pool.alone_of_run ran).ran there)
  obtain ⟨audit', same⟩ := run_attach own alone audit
  refine ⟨⟨audit', start_attach arrival .detached audit ▸ same⟩, fun event mine => ?_⟩
  have owned : ∀ other ∈ Pool.actionsOf index incidents ++ [event], other.isOwn = true :=
    List.forall_mem_append.mpr ⟨own, List.forall_mem_singleton.mpr mine⟩
  exact (Pool.isSome_step_iff ran there event).trans (isSome_run_iff owned audit)

/-- The response that is relayed among another request and the writer is relayed to the
same record alone. -/
theorem Service.served_alone_torn :
    ∃ audit', run (Lifecycle.step answered) (.start answered ⟨.empty, true⟩)
        (relaying ++ [.relay .record]) = some (afterAnswered.attach audit') ∧
      (afterAnswered.attach audit').offered = [success] := by
  have there : afterTorn.members[0]? = some (answered, afterAnswered) := rfl
  obtain ⟨audit', alone⟩ := (Service.served_alone run_torn there ⟨.empty, true⟩).1
  exact ⟨audit', alone, rfl⟩

/-- **Every record is accounted for**: what the requests have offered is what the
writer has accepted or dropped, and what it has accepted has been written in its
order or is still queued. -/
theorem Service.accounts (ran : run Service.step (.start file) incidents = some service) :
    service.offered.Perm (service.sink.accepted ++ service.sink.dropped) ∧
      service.offered.length = service.audited ∧
      ∃ session : List Write,
        service.sink.accepted =
          session.map Write.record ++ service.sink.audit.queue.items ∧
        service.sink.file = writeLoop (AuditWriter.start file) session := by
  obtain ⟨session, -, accepted, written⟩ :=
    (kept ran).held.session fun record accepted => canonical_of_accepted ran accepted
  exact ⟨conserved ran, length_offered_eq ran, session, accepted, written⟩

/-- Both records have been offered and accepted, and the file has what a session
wrote of them. -/
theorem Service.accounts_torn :
    afterTorn.offered.Perm [success, failure] ∧ afterTorn.audited = 2 ∧
      ∃ session : List Write, session.map Write.record = [success, failure] ∧
        success.line ++ failure.line.take 1 = writeLoop [] session := by
  obtain ⟨perm, length, session, accepted, written⟩ := Service.accounts run_torn
  exact ⟨perm, length.symm, session, (accepted.trans (List.append_nil _)).symm, written⟩

/-- **Each warning is printed once**, if a record was dropped or a write failed,
and nothing else is. -/
theorem Service.stderr_perm (ran : run Service.step (.start file) incidents = some service) :
    service.sink.stderr.Perm ((if service.sink.dropped = [] then [] else [auditDropped]) ++
      if service.sink.settled.any AuditWriter.isTorn then [auditWriteFailed] else []) := by
  obtain ⟨dropped, failed, stderr⟩ := (kept ran).warned
  rw [← List.any_eq_true] at failed
  rw [Bool.eq_iff_iff.mpr failed] at stderr
  by_cases none : service.sink.dropped = []
  · rw [if_pos none]
    rw [if_neg fun told => dropped.mp told none] at stderr
    exact stderr
  · rw [if_neg none]
    rw [if_pos (dropped.mpr none)] at stderr
    exact stderr

/-- Of the two warnings that of the line that was cut short is printed. -/
theorem Service.stderr_perm_torn : afterTorn.sink.stderr.Perm [auditWriteFailed] := by
  have warned := Service.stderr_perm run_torn
  have cut : afterTorn.sink.settled.any AuditWriter.isTorn = true := by
    apply List.any_eq_true.mpr
    exact ⟨_, List.mem_cons_of_mem _ (List.mem_singleton_self _), isTorn_failure⟩
  rwa [if_pos (show afterTorn.sink.dropped = [] from rfl), if_pos cut] at warned

/-- **A record is dropped if and only if some offer finds the writer gone or its
queue full**, and of the first 2048 records none is while the writer is there. -/
theorem Service.dropped_eq_nil_iff
    (ran : run Service.step (.start file) incidents = some service) :
    (service.sink.dropped = [] ↔ Along Service.step Unhindered (.start file) incidents) ∧
      (service.sink.audit.connected = true → service.audited ≤ auditQueueCapacity →
        service.sink.dropped = []) := by
  constructor
  · have reached : ∃ past, run Service.step (.start file) past = some (.start file : Service F) :=
      ⟨[], rfl⟩
    refine (along_iff (fun service => ∃ past, run Service.step (.start file) past = some service)
      (fun service => service.sink.dropped = []) ?_ ?_ ran reached).trans (and_iff_right rfl)
    · intro before incident after taken ⟨past, earlier⟩
      exact ⟨past ++ [incident], run_concat_eq_some.mpr ⟨before, earlier, taken⟩⟩
    · intro before incident after taken ⟨past, earlier⟩
      exact dropped_step taken (kept earlier).sender
  · intro connected few
    by_contra dropped
    have full := (kept ran).roomy (kept ran).sender connected dropped
    have total := (conserved ran).length_eq
    have some_dropped := List.length_pos_of_ne_nil dropped
    rw [length_offered_eq ran, List.length_append] at total
    omega

/-- Both records found room, and the writer is there. -/
theorem Service.dropped_eq_nil_iff_torn :
    Along Service.step Unhindered (.start none) torn ∧ afterTorn.sink.dropped = [] := by
  obtain ⟨unhindered, few⟩ := Service.dropped_eq_nil_iff run_torn
  refine ⟨unhindered.mp rfl, few rfl ?_⟩
  have audited : afterTorn.audited = 2 := (length_offered_eq run_torn).symm
  rw [audited]
  decide

/-- **A gateway that is shut down writes what was accepted.** When the last
handle has gone, the thread takes a bounded number of steps, and if it does not
die the file has a session with every record that was accepted. -/
theorem Service.drains (ran : run Service.step (.start file) incidents = some service)
    (connected : service.sink.audit.connected = true) {acts : List AuditWriter.Act}
    {writer : AuditWriter}
    (closed : run AuditWriter.step { service.sink with tx := false } acts = some writer)
    (alive : .die ∉ acts) :
    acts.length ≤ service.sink.left ∧
      ((∀ action, writer.step action = none) → ∃ session : List Write,
        session.map Write.record = service.sink.accepted ∧
          session.map (fun write => (write.record, write.kept)) = writer.settled ∧
          writer.file = writeLoop (AuditWriter.start file) session) := by
  obtain ⟨bounded, kept', drained⟩ := AuditWriter.drained (closed_of_kept (kept ran)) closed
  refine ⟨bounded, fun stuck => ?_⟩
  obtain ⟨idle, empty⟩ := (drained stuck).2 connected alive
  obtain ⟨session, settled, accepted, written⟩ := kept'.held.session (by
    intro record accepted
    rw [kept'.accepted] at accepted
    exact canonical_of_accepted ran accepted)
  rw [empty, List.append_nil, kept'.accepted] at accepted
  rw [idle, Option.toList_none, List.append_nil] at settled
  exact ⟨session, accepted.symm, settled, written⟩

/-- A gateway that is shut down inside a line writes the rest of it. -/
theorem Service.drains_halfway : ∃ session : List Write,
    session.map Write.record = [success, failure] ∧
      success.line ++ failure.line.take 1 ++ failure.line.drop 1 = writeLoop [] session := by
  have more := failure.one_lt_length_line
  have all : 1 + (failure.line.length - 1) = failure.line.length := by omega
  have rest : (failure.line.drop 1).take (failure.line.length - 1) = failure.line.drop 1 :=
    List.take_of_length_le (Nat.le_of_eq List.length_drop)
  have written : AuditWriter.step { afterHalfway.sink with tx := false }
      (.write (failure.line.length - 1)) = some { afterHalfway.sink with
        tx := false
        file := success.line ++ failure.line.take 1 ++ failure.line.drop 1
        writing := none
        settled := [(success, success.line.length), (failure, failure.line.length)] } := by
    rw [AuditWriter.step_write rfl rfl (by omega) (Nat.le_of_eq all),
      AuditWriter.wrote_of_whole _ all, rest, all]
    rfl
  have closed : run AuditWriter.step { afterHalfway.sink with tx := false }
      [.write (failure.line.length - 1), .stop] = some { afterHalfway.sink with
        audit := .detached
        tx := false
        file := success.line ++ failure.line.take 1 ++ failure.line.drop 1
        writing := none
        settled := [(success, success.line.length), (failure, failure.line.length)] } :=
    run_cons_eq_some.mpr ⟨_, written, rfl⟩
  have alive : AuditWriter.Act.die ∉ [.write (failure.line.length - 1), .stop] := by
    rw [List.mem_cons, List.mem_singleton, not_or]
    exact ⟨AuditWriter.Act.noConfusion, AuditWriter.Act.noConfusion⟩
  obtain ⟨session, accepted, -, file⟩ := (Service.drains run_halfway rfl closed alive).2 (by
    intro action
    cases action <;> rfl)
  exact ⟨session, accepted, file⟩

end Results

end Debitmetre
