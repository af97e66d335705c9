import Debitmetre.Foundation.BoundedQueue
import Debitmetre.Foundation.Transition
import Debitmetre.Gateway.Audit
import Mathlib.Data.Option.NAry

/-!
# Relaying a response

The body of an upstream response is relayed by three parties that take their
steps in any order.  The pump pulls chunks from the upstream, mirrors them if the
request is metered and sends them into a bounded channel; the caller reads them
from the other end, and may drop the body at any time, of which the pump is
notified; and the audit writer, to which the pump offers its record at the very
end, is fed and drained by others meanwhile.  The pump is a task of its own: if
the library that reads the mirror panics, the task is gone and nothing is
offered, and nobody else notices.
-/

namespace Debitmetre

open Wire Transition

/-- `AUDIT_QUEUE_CAPACITY`. -/
def auditQueueCapacity : Nat := 2048

/-- The sending side of the audit writer. -/
structure AuditQueue where
  queue : BoundedQueue auditQueueCapacity AuditRecord
  connected : Bool
  deriving DecidableEq

/-- Offer a record to the writer; a full or gone writer drops it. -/
def AuditQueue.tryRecord (audit : AuditQueue) (record : AuditRecord) : AuditQueue :=
  if audit.connected then
    match audit.queue.push record with
    | some queue => { audit with queue }
    | none => audit
  else audit

/-- The writer takes the oldest record. -/
def AuditQueue.drain (audit : AuditQueue) : AuditQueue :=
  match audit.queue.pop with
  | some (_, queue) => { audit with queue }
  | none => audit

/-- How a body ends after its last chunk: with `None` or with an error. -/
inductive Ending
  | clean
  | error
  deriving DecidableEq, Repr

/-- What the pump makes of the end of the upstream's body. -/
def Ending.pumped : Ending → Pumped
  | .clean => .ended
  | .error => .errored

/-- An accepted request that the upstream has answered. -/
structure Exchange (F : Type) where
  readers : Readers F
  stamp : Stamp
  machineId : String
  /-- Only a metered request has an operation. -/
  operation : Option Operation
  status : UInt16
  openaiModel : Option String
  reasoningEffort : Option String
  /-- The chunks of the upstream's body. -/
  body : List Bytes
  ending : Ending

/-- Where the pump is. -/
inductive Phase
  | polling
  | sending (chunk : Bytes)
  | left (pumped : Pumped)
  | closed (pumped : Pumped)
  | recorded (pumped : Pumped)
  | panicked (pumped : Pumped)
  deriving DecidableEq, Repr

namespace Phase

/-- The pump is still racing the notification. -/
def pumping : Phase → Bool
  | polling | sending _ => true
  | left _ | closed _ | recorded _ | panicked _ => false

/-- The sender is dropped. -/
def senderDropped : Phase → Bool
  | polling | sending _ | left _ => false
  | closed _ | recorded _ | panicked _ => true

/-- The task of the pump has come to its end, or a panic has ended it. -/
def isEnded : Phase → Bool
  | polling | sending _ | left _ | closed _ => false
  | recorded _ | panicked _ => true

/-- A panic has ended the task of the pump. -/
def isPanicked : Phase → Bool
  | polling | sending _ | left _ | closed _ | recorded _ => false
  | panicked _ => true

/-- The chunk that waits to be sent. -/
def waiting : Phase → List Bytes
  | sending chunk => [chunk]
  | polling | left _ | closed _ | recorded _ | panicked _ => []

/-- How the pump came to its end. -/
def pumped : Phase → Option Pumped
  | polling | sending _ => none
  | left pumped | closed pumped | recorded pumped | panicked pumped => some pumped

end Phase

/-- What the caller does with the response body. -/
inductive Caller
  | reading
  | ended (how : Ending)
  | dropped
  deriving DecidableEq, Repr

/-- An item of the response channel, whose errors are `Infallible`. -/
abbrev Item := Except Empty Bytes

def Item.chunk : Item → Bytes
  | .ok chunk => chunk

/-- The capacity of the response channel. -/
def responseCapacity : Nat := 16

/-- The state of a response that is relayed. -/
structure Relay where
  /-- The chunks the upstream has yet to yield. -/
  upstream : List Bytes
  /-- The chunks pulled so far. -/
  pulled : List Bytes
  parser : Option StreamUsageParser
  phase : Phase
  channel : BoundedQueue responseCapacity Item
  receiver : Bool
  /-- The permit of `client_gone`. -/
  clientGone : Bool
  caller : Caller
  /-- The chunks handed to the caller so far. -/
  received : List Bytes
  audit : AuditQueue
  /-- The records offered to the audit writer so far. -/
  offered : List AuditRecord
  deriving DecidableEq

/-- The steps of pump, caller and audit writer. -/
inductive Action
  /-- The upstream yields a chunk. -/
  | pull
  /-- The upstream's body ends, in one way or the other. -/
  | finish
  /-- The channel takes the chunk. -/
  | send
  /-- The channel has no receiver. -/
  | refuse
  /-- The notification wins the race. -/
  | cancel
  /-- The sender is dropped. -/
  | close
  /-- The mirror is parsed and the record offered, if the request is metered, and
  the task of the pump ends. -/
  | record
  /-- The caller is handed a chunk. -/
  | read
  /-- The caller sees the end of the body. -/
  | readEnd
  /-- The caller drops the body, which notifies the pump first. -/
  | drop
  /-- The receiver is dropped with the body. -/
  | release
  /-- The writer takes a record. -/
  | drain
  /-- Another request offers a record. -/
  | submit (record : AuditRecord)
  /-- The writer is gone. -/
  | disconnect
  deriving DecidableEq

variable {F : Type}

namespace Relay

/-- The upstream's response head is there and the pump is spawned. -/
def start (exchange : Exchange F) (audit : AuditQueue) : Relay where
  upstream := exchange.body
  pulled := []
  parser := exchange.operation.map fun _ => .new exchange.openaiModel
  phase := .polling
  channel := .empty
  receiver := true
  clientGone := false
  caller := .reading
  received := []
  audit
  offered := []

/-- The record of a metered request, from its finalized observer. -/
def auditRecord (exchange : Exchange F) (pumped : Pumped) (parser : StreamUsageParser)
    (operation : Operation) : AuditRecord :=
  recordAudit exchange.stamp exchange.machineId operation exchange.status
    (isSuccess exchange.status) pumped.outcome parser exchange.reasoningEffort

/-- Finalizing the observer panics, if there is one. -/
def panics (exchange : Exchange F) (relay : Relay) : Bool :=
  relay.parser.any fun parser => exchange.readers.panics parser.mirror

/-- Finalize the observer of a metered request and offer its record. -/
def record (exchange : Exchange F) (relay : Relay) (pumped : Pumped) : Relay :=
  let parser := relay.parser.map (StreamUsageParser.finalize exchange.readers)
  let record := Option.map₂ (auditRecord exchange pumped) parser exchange.operation
  { relay with
    parser
    phase := .recorded pumped
    audit := record.elim relay.audit relay.audit.tryRecord
    offered := relay.offered ++ record.toList }

/-- The step an action takes, if it can be taken. -/
def step (exchange : Exchange F) (relay : Relay) : Action → Option Relay
  | .pull =>
      match relay.phase, relay.upstream with
      | .polling, chunk :: rest =>
          some { relay with
            upstream := rest
            pulled := relay.pulled ++ [chunk]
            parser := relay.parser.map (·.push chunk)
            phase := .sending chunk }
      | _, _ => none
  | .finish =>
      match relay.phase, relay.upstream with
      | .polling, [] => some { relay with phase := .left exchange.ending.pumped }
      | _, _ => none
  | .send =>
      match relay.phase, relay.receiver with
      | .sending chunk, true =>
          (relay.channel.push (.ok chunk)).map fun channel =>
            { relay with channel, phase := .polling }
      | _, _ => none
  | .refuse =>
      match relay.phase, relay.receiver with
      | .sending _, false => some { relay with phase := .left .cancelled }
      | _, _ => none
  | .cancel =>
      if relay.phase.pumping ∧ relay.clientGone then
        some { relay with clientGone := false, phase := .left .cancelled }
      else none
  | .close =>
      match relay.phase with
      | .left pumped => some { relay with phase := .closed pumped }
      | _ => none
  | .record =>
      match relay.phase with
      | .closed pumped =>
          if relay.panics exchange then some { relay with phase := .panicked pumped }
          else some (relay.record exchange pumped)
      | _ => none
  | .read =>
      match relay.caller, relay.channel.pop with
      | .reading, some (item, channel) =>
          some { relay with channel, received := relay.received ++ [item.chunk] }
      | _, _ => none
  | .readEnd =>
      if relay.caller = .reading ∧ relay.channel.items = [] ∧ relay.phase.senderDropped then
        some { relay with caller := .ended .clean }
      else none
  | .drop =>
      if relay.caller = .dropped then none
      else some { relay with caller := .dropped, clientGone := true }
  | .release =>
      if relay.caller = .dropped ∧ relay.receiver then
        some { relay with receiver := false, channel := .empty }
      else none
  | .drain => some { relay with audit := relay.audit.drain }
  | .submit record => some { relay with audit := relay.audit.tryRecord record }
  | .disconnect => some { relay with audit := { relay.audit with connected := false } }

/-- What the steps can do. -/
inductive Moves (exchange : Exchange F) (relay : Relay) : Action → Relay → Prop
  | pull {chunk : Bytes} {rest : List Bytes} (polling : relay.phase = .polling)
      (more : relay.upstream = chunk :: rest) :
      Moves exchange relay .pull { relay with
        upstream := rest
        pulled := relay.pulled ++ [chunk]
        parser := relay.parser.map (·.push chunk)
        phase := .sending chunk }
  | finish (polling : relay.phase = .polling) (done : relay.upstream = []) :
      Moves exchange relay .finish { relay with phase := .left exchange.ending.pumped }
  | send {chunk : Bytes} {channel : BoundedQueue responseCapacity Item}
      (sending : relay.phase = .sending chunk) (receiver : relay.receiver = true)
      (room : channel.items = relay.channel.items ++ [.ok chunk]) :
      Moves exchange relay .send { relay with channel, phase := .polling }
  | refuse {chunk : Bytes} (sending : relay.phase = .sending chunk)
      (released : relay.receiver = false) :
      Moves exchange relay .refuse { relay with phase := .left .cancelled }
  | cancel (pumping : relay.phase.pumping = true) (gone : relay.clientGone = true) :
      Moves exchange relay .cancel { relay with clientGone := false, phase := .left .cancelled }
  | close {pumped : Pumped} (left : relay.phase = .left pumped) :
      Moves exchange relay .close { relay with phase := .closed pumped }
  | record {pumped : Pumped} (closed : relay.phase = .closed pumped)
      (reads : relay.panics exchange = false) :
      Moves exchange relay .record (relay.record exchange pumped)
  | panic {pumped : Pumped} (closed : relay.phase = .closed pumped)
      (panics : relay.panics exchange = true) :
      Moves exchange relay .record { relay with phase := .panicked pumped }
  | read {item : Item} {channel : BoundedQueue responseCapacity Item}
      (reading : relay.caller = .reading) (queued : relay.channel.items = item :: channel.items) :
      Moves exchange relay .read { relay with channel, received := relay.received ++ [item.chunk] }
  | readEnd (reading : relay.caller = .reading) (empty : relay.channel.items = [])
      (dropped : relay.phase.senderDropped = true) :
      Moves exchange relay .readEnd { relay with caller := .ended .clean }
  | drop (kept : relay.caller ≠ .dropped) :
      Moves exchange relay .drop { relay with caller := .dropped, clientGone := true }
  | release (dropped : relay.caller = .dropped) :
      Moves exchange relay .release { relay with receiver := false, channel := .empty }
  | drain : Moves exchange relay .drain { relay with audit := relay.audit.drain }
  | submit (record : AuditRecord) :
      Moves exchange relay (.submit record) { relay with audit := relay.audit.tryRecord record }
  | disconnect :
      Moves exchange relay .disconnect
        { relay with audit := { relay.audit with connected := false } }

/-- Every step is a move. -/
theorem moves_of_step {exchange : Exchange F} {relay next : Relay} {action : Action}
    (taken : step exchange relay action = some next) : Moves exchange relay action next := by
  cases action with
  | pull =>
      simp only [step] at taken
      split at taken
      · cases taken
        exact .pull (by assumption) (by assumption)
      · cases taken
  | finish =>
      simp only [step] at taken
      split at taken
      · cases taken
        exact .finish (by assumption) (by assumption)
      · cases taken
  | send =>
      simp only [step] at taken
      split at taken
      · obtain ⟨channel, pushed, rfl⟩ := Option.map_eq_some_iff.mp taken
        exact .send (by assumption) (by assumption) (BoundedQueue.push_items pushed)
      · cases taken
  | refuse =>
      simp only [step] at taken
      split at taken
      · cases taken
        exact .refuse (by assumption) (by assumption)
      · cases taken
  | cancel =>
      obtain ⟨⟨pumping, gone⟩, same⟩ := Option.ite_none_right_eq_some.mp taken
      cases same
      exact .cancel pumping gone
  | close =>
      simp only [step] at taken
      split at taken
      · cases taken
        exact .close (by assumption)
      · cases taken
  | record =>
      simp only [step] at taken
      split at taken
      · rename_i closed
        split at taken
        · cases taken
          exact .panic closed (by assumption)
        · cases taken
          exact .record closed (Bool.eq_false_of_not_eq_true (by assumption))
      · cases taken
  | read =>
      simp only [step] at taken
      split at taken
      · cases taken
        exact .read (by assumption) (BoundedQueue.pop_items (by assumption))
      · cases taken
  | readEnd =>
      obtain ⟨⟨reading, empty, dropped⟩, same⟩ := Option.ite_none_right_eq_some.mp taken
      cases same
      exact .readEnd reading empty dropped
  | drop =>
      obtain ⟨kept, same⟩ := Option.ite_none_left_eq_some.mp taken
      cases same
      exact .drop kept
  | release =>
      obtain ⟨⟨dropped, -⟩, same⟩ := Option.ite_none_right_eq_some.mp taken
      cases same
      exact .release dropped
  | drain =>
      cases taken
      exact .drain
  | submit record =>
      cases taken
      exact .submit record
  | disconnect =>
      cases taken
      exact .disconnect

end Relay

end Debitmetre
