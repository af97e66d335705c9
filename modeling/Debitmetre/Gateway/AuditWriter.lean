import Debitmetre.Gateway.Relay
import Debitmetre.Usage.Writer

/-!
# The audit writer

Requests offer their records to a bounded queue, and one thread takes them from it
and appends their lines to the usage file.  What is offered is taken into the
queue or dropped at once; what is in the queue is written in its order, and a
write that fails midway leaves a piece of its line.  Of the records dropped and
of the writes failed only the first is told on stderr.
-/

namespace Debitmetre

open Wire Transition

/-- `AUDIT_WRITE_FAILED`. -/
def auditWriteFailed : String :=
  "debitmetre: audit_write_failed: usage record write failed; " ++
    "the usage file may be incomplete (further failures are only counted)"

/-- `AUDIT_DROPPED`. -/
def auditDropped : String :=
  "debitmetre: audit_dropped: usage record dropped; the audit queue is " ++
    "full (further drops are only counted)"

/-- Print a warning the first time. -/
def warnOnce (flag : Bool) (message : String) (stderr : List String) : List String :=
  if flag then stderr else stderr ++ [message]

/-- The audit writer with its thread, and what has become of the records so far. -/
structure AuditWriter where
  /-- The queue, and whether the thread is there to take from it. -/
  audit : AuditQueue
  /-- The sender, which goes with the last handle. -/
  tx : Bool
  dropWarned : Bool
  writeWarned : Bool
  /-- The record that is written, and how many octets of its line are. -/
  writing : Option (AuditRecord × Nat)
  file : Bytes
  stderr : List String
  accepted : List AuditRecord
  dropped : List AuditRecord
  /-- The records whose write is over, and how many octets of their lines were
  written. -/
  settled : List (AuditRecord × Nat)
  deriving DecidableEq

namespace AuditWriter

/-- Start the thread on a file that is open. -/
def spawn (file : Bytes) : AuditWriter where
  audit := ⟨.empty, true⟩
  tx := true
  dropWarned := false
  writeWarned := false
  writing := none
  file
  stderr := []
  accepted := []
  dropped := []
  settled := []

def trySend (writer : AuditWriter) (record : AuditRecord) : Option AuditQueue :=
  if writer.audit.connected then
    (writer.audit.queue.push record).map fun queue => { writer.audit with queue }
  else none

/-- A record is not taken. -/
def drop (writer : AuditWriter) (record : AuditRecord) : AuditWriter :=
  { writer with
    dropWarned := true
    stderr := warnOnce writer.dropWarned auditDropped writer.stderr
    dropped := writer.dropped ++ [record] }

/-- Offer a record to the writer; it never waits. -/
def tryRecord (writer : AuditWriter) (record : AuditRecord) : AuditWriter :=
  if writer.tx then
    match writer.trySend record with
    | some audit => { writer with audit, accepted := writer.accepted ++ [record] }
    | none => writer.drop record
  else writer.drop record

/-- What the thread does, and what is done to it. -/
inductive Act
  /-- The loop receives the oldest record. -/
  | recv
  /-- The file takes some more octets of the line. -/
  | write (octets : Nat)
  /-- The file takes no more of the line. -/
  | fail
  /-- The last handle is dropped, and the sender with it. -/
  | close
  /-- The loop finds nothing in the queue and no sender. -/
  | stop
  /-- The thread is gone. -/
  | die
  deriving DecidableEq

/-- `write_all` has written some octets of a line: it is over with the last. -/
def wrote (writer : AuditWriter) (record : AuditRecord) (kept octets : Nat) : AuditWriter :=
  let writer := { writer with file := writer.file ++ (record.line.drop kept).take octets }
  if kept + octets = record.line.length then
    { writer with writing := none, settled := writer.settled ++ [(record, kept + octets)] }
  else { writer with writing := some (record, kept + octets) }

theorem wrote_of_whole (writer : AuditWriter) {record : AuditRecord} {kept octets : Nat}
    (whole : kept + octets = record.line.length) :
    writer.wrote record kept octets =
      { writer with
        file := writer.file ++ (record.line.drop kept).take octets
        writing := none
        settled := writer.settled ++ [(record, kept + octets)] } := if_pos whole

theorem wrote_of_part (writer : AuditWriter) {record : AuditRecord} {kept octets : Nat}
    (part : kept + octets ≠ record.line.length) :
    writer.wrote record kept octets =
      { writer with
        file := writer.file ++ (record.line.drop kept).take octets
        writing := some (record, kept + octets) } := if_neg part

def step (writer : AuditWriter) : Act → Option AuditWriter
  | .recv =>
      match writer.audit.connected, writer.writing, writer.audit.queue.pop with
      | true, none, some (record, queue) =>
          some { writer with
            audit := { writer.audit with queue }
            writing := some (record, 0) }
      | _, _, _ => none
  | .write octets =>
      match writer.audit.connected, writer.writing with
      | true, some (record, kept) =>
          if 0 < octets ∧ kept + octets ≤ record.line.length then
            some (writer.wrote record kept octets)
          else none
      | _, _ => none
  | .fail =>
      match writer.audit.connected, writer.writing with
      | true, some (record, kept) =>
          some { writer with
            writing := none
            writeWarned := true
            stderr := warnOnce writer.writeWarned auditWriteFailed writer.stderr
            settled := writer.settled ++ [(record, kept)] }
      | _, _ => none
  | .close => if writer.tx then some { writer with tx := false } else none
  | .stop =>
      if writer.audit.connected ∧ writer.tx = false ∧ writer.writing = none ∧
          writer.audit.queue.items = [] then
        some { writer with audit := { writer.audit with connected := false } }
      else none
  | .die =>
      if writer.audit.connected then
        some { writer with audit := { writer.audit with connected := false } }
      else none

/-- Some more octets of the line that is written. -/
theorem step_write {writer : AuditWriter} {record : AuditRecord} {kept octets : Nat}
    (connected : writer.audit.connected = true) (writing : writer.writing = some (record, kept))
    (some_octets : 0 < octets) (within : kept + octets ≤ record.line.length) :
    step writer (.write octets) = some (writer.wrote record kept octets) := by
  simp only [step, connected, writing]
  exact if_pos ⟨some_octets, within⟩

/-- What the steps can do. -/
inductive Moves (writer : AuditWriter) : Act → AuditWriter → Prop
  | recv {record : AuditRecord} {queue : BoundedQueue auditQueueCapacity AuditRecord}
      (connected : writer.audit.connected = true) (idle : writer.writing = none)
      (queued : writer.audit.queue.items = record :: queue.items) :
      Moves writer .recv { writer with
        audit := { writer.audit with queue }
        writing := some (record, 0) }
  | write {record : AuditRecord} {kept octets : Nat} (connected : writer.audit.connected = true)
      (writing : writer.writing = some (record, kept)) (some_octets : 0 < octets)
      (within : kept + octets ≤ record.line.length) :
      Moves writer (.write octets) (writer.wrote record kept octets)
  | fail {record : AuditRecord} {kept : Nat} (connected : writer.audit.connected = true)
      (writing : writer.writing = some (record, kept)) :
      Moves writer .fail { writer with
        writing := none
        writeWarned := true
        stderr := warnOnce writer.writeWarned auditWriteFailed writer.stderr
        settled := writer.settled ++ [(record, kept)] }
  | close (sender : writer.tx = true) : Moves writer .close { writer with tx := false }
  | stop (connected : writer.audit.connected = true) (closed : writer.tx = false)
      (idle : writer.writing = none) (empty : writer.audit.queue.items = []) :
      Moves writer .stop { writer with audit := { writer.audit with connected := false } }
  | die (connected : writer.audit.connected = true) :
      Moves writer .die { writer with audit := { writer.audit with connected := false } }

variable {writer next : AuditWriter}

theorem moves_of_step {action : Act} (taken : step writer action = some next) :
    Moves writer action next := by
  cases action with
  | recv =>
      simp only [step] at taken
      split at taken
      · cases taken
        exact .recv (by assumption) (by assumption) (BoundedQueue.pop_items (by assumption))
      · cases taken
  | write octets =>
      simp only [step] at taken
      split at taken
      · obtain ⟨⟨some_octets, within⟩, same⟩ := Option.ite_none_right_eq_some.mp taken
        cases same
        exact .write (by assumption) (by assumption) some_octets within
      · cases taken
  | fail =>
      simp only [step] at taken
      split at taken
      · cases taken
        exact .fail (by assumption) (by assumption)
      · cases taken
  | close =>
      obtain ⟨sender, same⟩ := Option.ite_none_right_eq_some.mp taken
      cases same
      exact .close sender
  | stop =>
      obtain ⟨⟨connected, closed, idle, empty⟩, same⟩ := Option.ite_none_right_eq_some.mp taken
      cases same
      exact .stop connected closed idle empty
  | die =>
      obtain ⟨connected, same⟩ := Option.ite_none_right_eq_some.mp taken
      cases same
      exact .die connected

/-- What can come of an offer. -/
theorem tryRecord_cases (writer : AuditWriter) (record : AuditRecord) :
    (writer.tx = true ∧ writer.audit.connected = true ∧
        ∃ queue, queue.items = writer.audit.queue.items ++ [record] ∧
          writer.audit.tryRecord record = { writer.audit with queue } ∧
          writer.tryRecord record =
            { writer with
              audit := { writer.audit with queue }
              accepted := writer.accepted ++ [record] }) ∨
      (writer.tryRecord record = writer.drop record ∧
        (writer.tx = true → writer.audit.tryRecord record = writer.audit) ∧
        (writer.tx = true → writer.audit.connected = true →
          auditQueueCapacity ≤ writer.audit.queue.items.length)) := by
  cases sender : writer.tx with
  | false =>
      refine .inr ⟨?_, nofun, nofun⟩
      rw [tryRecord, sender]
      rfl
  | true =>
      cases connected : writer.audit.connected with
      | false =>
          refine .inr ⟨?_, fun _ => ?_, fun _ => nofun⟩
          · rw [tryRecord, sender, trySend, connected]
            rfl
          · rw [AuditQueue.tryRecord, connected]
            rfl
      | true =>
          cases pushed : writer.audit.queue.push record with
          | none =>
              refine .inr ⟨?_, fun _ => ?_, fun _ _ => ?_⟩
              · rw [tryRecord, sender, trySend, connected, pushed]
                rfl
              · rw [AuditQueue.tryRecord, connected, pushed]
                rfl
              · by_contra room
                obtain ⟨queue, other⟩ :=
                  BoundedQueue.push_of_lt (Nat.lt_of_not_le room) record
                cases pushed.symm.trans other
          | some queue =>
              refine .inl ⟨rfl, rfl, queue, BoundedQueue.push_items pushed, ?_, ?_⟩
              · rw [AuditQueue.tryRecord, if_pos connected, pushed]
              · rw [tryRecord, sender, trySend, connected, pushed]
                rfl

/-- As long as there is a sender, the queue is the one the requests were taken to
offer their records to. -/
theorem audit_tryRecord (sender : writer.tx = true) (record : AuditRecord) :
    (writer.tryRecord record).audit = writer.audit.tryRecord record := by
  rcases writer.tryRecord_cases record with ⟨-, -, queue, -, same, taken⟩ | ⟨taken, same, -⟩
  · rw [taken, same]
  · rw [taken, same sender]
    rfl

/-- The queue is drained, or without a receiver, or as it was. -/
theorem audit_step {action : Act} (taken : step writer action = some next) :
    next.audit = writer.audit.drain ∨ next.audit = { writer.audit with connected := false } ∨
      next.audit = writer.audit := by
  cases moves_of_step taken with
  | recv connected idle queued =>
      refine .inl ?_
      rw [AuditQueue.drain, BoundedQueue.pop_of_items queued]
  | write connected writing some_octets within =>
      refine .inr (.inr ?_)
      rw [wrote]
      split_ifs <;> rfl
  | fail | close => exact .inr (.inr rfl)
  | stop | die => exact .inr (.inl rfl)

/-- What was written of a record's line. -/
def piece (entry : AuditRecord × Nat) : Bytes := entry.1.line.take entry.2

/-- The line of a record was written only in part. -/
def isTorn (entry : AuditRecord × Nat) : Bool := entry.2 < entry.1.line.length

/-- The records and the file of a writer that has started on some file. -/
structure Held (old : Bytes) (writer : AuditWriter) : Prop where
  accepted : writer.accepted =
    (writer.settled ++ writer.writing.toList).map Prod.fst ++ writer.audit.queue.items
  file : writer.file = old ++ (writer.settled ++ writer.writing.toList).flatMap piece
  within : ∀ entry ∈ writer.settled, entry.2 ≤ entry.1.line.length
  torn : ∀ entry ∈ writer.writing, isTorn entry = true

theorem held_spawn (old : Bytes) : Held old (spawn old) where
  accepted := rfl
  file := (List.append_nil old).symm
  within := fun entry member => by cases member
  torn := fun entry member => by cases member

theorem held_tryRecord {old : Bytes} (held : Held old writer) (record : AuditRecord) :
    Held old (writer.tryRecord record) := by
  rcases writer.tryRecord_cases record with ⟨-, -, queue, items, -, taken⟩ | ⟨taken, -, -⟩
  · rw [taken]
    exact { held with
      accepted := by
        change writer.accepted ++ [record] = _ ++ queue.items
        rw [held.accepted, items, List.append_assoc] }
  · rw [taken]
    exact { held with }

theorem held_step {old : Bytes} {action : Act} (taken : step writer action = some next)
    (held : Held old writer) : Held old next := by
  cases moves_of_step taken with
  | @recv record queue connected idle queued =>
      have accepted := held.accepted
      have file := held.file
      rw [idle, Option.toList_none, List.append_nil] at accepted file
      refine ⟨?_, ?_, held.within, ?_⟩
      · change writer.accepted = (writer.settled ++ [(record, 0)]).map Prod.fst ++ queue.items
        rw [accepted, queued, List.map_append, List.append_assoc]
        rfl
      · change writer.file = old ++ (writer.settled ++ [(record, 0)]).flatMap piece
        rw [file, List.flatMap_append, List.flatMap_singleton, piece, List.take_zero,
          List.append_nil]
      · intro entry member
        cases Option.mem_some_iff.mp member
        rw [isTorn, decide_eq_true_eq, AuditRecord.line, List.length_append]
        exact Nat.succ_pos _
  | @write record kept octets connected writing some_octets within =>
      have accepted := held.accepted
      have file := held.file
      rw [writing, Option.toList_some] at accepted file
      have settled : writer.accepted =
          (writer.settled ++ [(record, kept + octets)]).map Prod.fst ++
            writer.audit.queue.items := by
        rw [accepted, List.map_append, List.map_append, List.map_singleton, List.map_singleton]
      have more : writer.file ++ (record.line.drop kept).take octets =
          old ++ (writer.settled ++ [(record, kept + octets)]).flatMap piece := by
        rw [file, List.flatMap_append, List.flatMap_append, List.flatMap_singleton,
          List.flatMap_singleton, piece, piece, List.append_assoc, List.append_assoc,
          List.take_add]
      by_cases whole : kept + octets = record.line.length
      · rw [wrote_of_whole writer whole]
        refine ⟨?_, ?_, ?_, fun entry member => (Option.not_mem_none entry member).elim⟩
        · rw [Option.toList_none, List.append_nil]
          exact settled
        · rw [Option.toList_none, List.append_nil]
          exact more
        · intro entry member
          rcases List.mem_append.mp member with before | last
          · exact held.within entry before
          · rw [List.mem_singleton.mp last]
            exact within
      · rw [wrote_of_part writer whole]
        refine ⟨settled, more, held.within, ?_⟩
        intro entry member
        rw [← Option.mem_some_iff.mp member, isTorn, decide_eq_true_eq]
        exact Nat.lt_of_le_of_ne within whole
  | @fail record kept connected writing =>
      have accepted := held.accepted
      have file := held.file
      rw [writing, Option.toList_some] at accepted file
      refine ⟨?_, ?_, ?_, fun entry member => (Option.not_mem_none entry member).elim⟩
      · rw [Option.toList_none, List.append_nil]
        exact accepted
      · rw [Option.toList_none, List.append_nil]
        exact file
      · intro entry member
        rcases List.mem_append.mp member with before | last
        · exact held.within entry before
        · cases List.mem_singleton.mp last
          have torn := held.torn (record, kept) writing
          rw [isTorn, decide_eq_true_eq] at torn
          exact Nat.le_of_lt torn
  | close | stop | die => exact { held with }

end AuditWriter

/-- The record that was written. -/
def Write.record : Write → AuditRecord
  | complete entry => entry.record
  | torn entry _ => entry.record

/-- How many octets of its line reached the file. -/
def Write.kept : Write → Nat
  | complete entry => entry.record.line.length
  | torn _ kept => kept

theorem Write.bytes_eq (write : Write) :
    write.bytes = AuditWriter.piece (write.record, write.kept) := by
  cases write with
  | complete entry => exact List.take_length.symm
  | torn entry kept => rfl

namespace AuditWriter

/-- What has been written of canonical records is what a session writes. -/
theorem exists_session {entries : List (AuditRecord × Nat)}
    (canonical : ∀ entry ∈ entries, entry.1.Canonical)
    (within : ∀ entry ∈ entries, entry.2 ≤ entry.1.line.length) :
    ∃ session : List Write,
      session.map (fun write => (write.record, write.kept)) = entries := by
  induction entries with
  | nil => exact ⟨[], rfl⟩
  | cons entry entries ih =>
      obtain ⟨canonical, others⟩ := List.forall_mem_cons.mp canonical
      obtain ⟨bound, bounds⟩ := List.forall_mem_cons.mp within
      obtain ⟨session, same⟩ := ih others bounds
      obtain ⟨record, kept⟩ := entry
      rcases Nat.lt_or_eq_of_le bound with part | whole
      · refine ⟨.torn ⟨record, canonical⟩ ⟨kept, part⟩ :: session, ?_⟩
        rw [List.map_cons, same]
        rfl
      · refine ⟨.complete ⟨record, canonical⟩ :: session, ?_⟩
        rw [List.map_cons, same, Write.kept, ← whole]
        rfl

/-- **The file of a writer is what a session has appended to it**, in the order
the records were accepted. -/
theorem Held.session {old : Bytes} (held : Held old writer)
    (canonical : ∀ record ∈ writer.accepted, record.Canonical) :
    ∃ session : List Write,
      session.map (fun write => (write.record, write.kept)) =
          writer.settled ++ writer.writing.toList ∧
        writer.accepted = session.map Write.record ++ writer.audit.queue.items ∧
        writer.file = writeLoop old session := by
  have entries : ∀ entry ∈ writer.settled ++ writer.writing.toList,
      entry.1.Canonical ∧ entry.2 ≤ entry.1.line.length := by
    intro entry member
    constructor
    · apply canonical
      rw [held.accepted]
      exact List.mem_append_left _ (List.mem_map_of_mem member)
    · rcases List.mem_append.mp member with settled | writing
      · exact held.within entry settled
      · have torn : entry.2 < entry.1.line.length :=
          of_decide_eq_true (held.torn entry (Option.mem_toList.mp writing))
        exact Nat.le_of_lt torn
  obtain ⟨session, same⟩ := exists_session (fun entry member => (entries entry member).1)
    fun entry member => (entries entry member).2
  refine ⟨session, same, ?_, ?_⟩
  · rw [held.accepted, ← same, List.map_map]
    rfl
  · rw [held.file, ← same, writeLoop_eq, List.flatMap_map]
    congr 2
    funext write
    exact (write.bytes_eq).symm

/-- Each warning has been printed once if there was a reason for it, and nothing
else has been printed. -/
structure Warned (writer : AuditWriter) : Prop where
  dropped : writer.dropWarned = true ↔ writer.dropped ≠ []
  failed : writer.writeWarned = true ↔ ∃ entry ∈ writer.settled, isTorn entry = true
  stderr : writer.stderr.Perm ((if writer.dropWarned then [auditDropped] else []) ++
    if writer.writeWarned then [auditWriteFailed] else [])

theorem warned_spawn (old : Bytes) : Warned (spawn old) where
  dropped := ⟨fun warned => (Bool.false_ne_true warned).elim, fun more => (more rfl).elim⟩
  failed := by
    refine ⟨fun warned => (Bool.false_ne_true warned).elim, ?_⟩
    intro ⟨entry, member, _⟩
    cases member
  stderr := .nil

theorem warned_drop (warned : Warned writer) (record : AuditRecord) :
    Warned (writer.drop record) where
  dropped := by
    refine ⟨fun _ => ?_, fun _ => rfl⟩
    exact List.append_ne_nil_of_right_ne_nil _ (List.cons_ne_nil record [])
  failed := warned.failed
  stderr := by
    have stderr := warned.stderr
    cases told : writer.dropWarned with
    | true =>
        rw [told] at stderr
        rw [drop, told]
        exact stderr
    | false =>
        rw [told, if_neg Bool.false_ne_true, List.nil_append] at stderr
        rw [drop, told]
        exact (stderr.append_right _).trans List.perm_append_comm

theorem warned_tryRecord (warned : Warned writer) (record : AuditRecord) :
    Warned (writer.tryRecord record) := by
  rcases writer.tryRecord_cases record with ⟨-, -, queue, -, -, taken⟩ | ⟨taken, -, -⟩
  · rw [taken]
    exact ⟨warned.dropped, warned.failed, warned.stderr⟩
  · rw [taken]
    exact warned_drop warned record

theorem warned_step {old : Bytes} {action : Act} (taken : step writer action = some next)
    (held : Held old writer) (warned : Warned writer) : Warned next := by
  cases moves_of_step taken with
  | recv | close | stop | die => exact ⟨warned.dropped, warned.failed, warned.stderr⟩
  | @write record kept octets connected writing some_octets within =>
      by_cases whole : kept + octets = record.line.length
      · rw [wrote_of_whole writer whole]
        refine ⟨warned.dropped, warned.failed.trans ?_, warned.stderr⟩
        have sound : isTorn (record, kept + octets) = false :=
          decide_eq_false (Nat.not_lt_of_le (Nat.le_of_eq whole.symm))
        change _ ↔ ∃ entry ∈ writer.settled ++ [(record, kept + octets)], _
        simp only [List.mem_append, List.mem_singleton, or_and_right, exists_or, exists_eq_left,
          sound, Bool.false_eq_true, or_false]
      · rw [wrote_of_part writer whole]
        exact ⟨warned.dropped, warned.failed, warned.stderr⟩
  | @fail record kept connected writing =>
      refine ⟨warned.dropped, ⟨fun _ => ?_, fun _ => rfl⟩, ?_⟩
      · exact ⟨(record, kept), List.mem_append_right _ (List.mem_singleton_self _),
          held.torn _ writing⟩
      · have stderr := warned.stderr
        cases told : writer.writeWarned with
        | true =>
            rw [told] at stderr
            exact stderr
        | false =>
            rw [told, if_neg Bool.false_ne_true, List.append_nil] at stderr
            exact stderr.append_right _

/-- Without a warning nothing was dropped and no write failed. -/
theorem Warned.silent (warned : Warned writer) (silent : writer.stderr = []) :
    writer.dropped = [] ∧ writer.settled.any isTorn = false := by
  have nothing := warned.stderr
  rw [silent, List.nil_perm, List.append_eq_nil_iff] at nothing
  obtain ⟨kept, written⟩ := nothing
  constructor
  · by_contra dropped
    rw [if_pos (warned.dropped.mpr dropped)] at kept
    cases kept
  · rw [Bool.eq_false_iff]
    intro torn
    rw [if_pos (warned.failed.mpr (List.any_eq_true.mp torn))] at written
    cases written

/-- A writer that is there and has dropped a record has taken as many as the queue
holds. -/
def Roomy (writer : AuditWriter) : Prop :=
  writer.tx = true → writer.audit.connected = true → writer.dropped ≠ [] →
    auditQueueCapacity ≤ writer.accepted.length

theorem roomy_tryRecord {old : Bytes} (held : Held old writer) (roomy : Roomy writer)
    (record : AuditRecord) : Roomy (writer.tryRecord record) := by
  rcases writer.tryRecord_cases record with ⟨-, -, queue, -, -, taken⟩ | ⟨taken, -, full⟩
  · rw [taken]
    intro sender connected dropped
    have before := roomy sender connected dropped
    rw [List.length_append]
    exact Nat.le_add_right_of_le before
  · rw [taken]
    intro sender connected dropped
    have queued := full sender connected
    change auditQueueCapacity ≤ writer.accepted.length
    rw [held.accepted, List.length_append]
    exact Nat.le_add_left_of_le queued

theorem roomy_step {action : Act} (taken : step writer action = some next)
    (roomy : Roomy writer) : Roomy next := by
  cases moves_of_step taken with
  | recv | fail => exact roomy
  | @write record kept octets connected writing some_octets within =>
      rw [wrote]
      split_ifs <;> exact roomy
  | close sender =>
      intro closed
      cases closed
  | stop | die =>
      intro sender gone
      cases gone

/-- How many steps the thread has left at most, if nothing more is offered. -/
def left (writer : AuditWriter) : Nat :=
  writer.audit.connected.toNat + writer.audit.queue.items.length +
    (writer.audit.queue.items.flatMap AuditRecord.line).length +
    (writer.writing.elim 0 fun entry => entry.1.line.length - entry.2)

theorem left_lt {old : Bytes} {action : Act} (taken : step writer action = some next)
    (closed : writer.tx = false) (held : Held old writer) : next.left < writer.left := by
  cases moves_of_step taken with
  | @recv record queue connected idle queued =>
      simp only [left, idle, queued, Option.elim_some, Option.elim_none, List.length_cons,
        List.flatMap_cons, List.length_append]
      omega
  | @write record kept octets connected writing some_octets within =>
      by_cases whole : kept + octets = record.line.length
      · rw [wrote_of_whole writer whole]
        simp only [left, writing, Option.elim_some, Option.elim_none]
        omega
      · rw [wrote_of_part writer whole]
        simp only [left, writing, Option.elim_some]
        omega
  | @fail record kept connected writing =>
      have torn : kept < record.line.length := of_decide_eq_true (held.torn _ writing)
      simp only [left, writing, Option.elim_some, Option.elim_none]
      omega
  | close sender =>
      rw [closed] at sender
      cases sender
  | stop connected | die connected =>
      simp only [left, connected, Bool.toNat_true, Bool.toNat_false]
      omega

/-- The loop of a writer without handles goes on until it ends. -/
theorem step_of_connected {old : Bytes} (held : Held old writer) (closed : writer.tx = false)
    (connected : writer.audit.connected = true) : ∃ action, (step writer action).isSome := by
  cases writing : writer.writing with
  | some entry =>
      have torn : entry.2 < entry.1.line.length := of_decide_eq_true (held.torn entry writing)
      refine ⟨.write 1, ?_⟩
      simp only [step, connected, writing]
      rw [if_pos ⟨Nat.one_pos, torn⟩, Option.isSome_some]
  | none =>
      by_cases empty : writer.audit.queue.items = []
      · refine ⟨.stop, ?_⟩
        rw [step, if_pos ⟨connected, closed, writing, empty⟩, Option.isSome_some]
      · obtain ⟨record, queue, popped⟩ := BoundedQueue.pop_of_ne_nil empty
        refine ⟨.recv, ?_⟩
        simp only [step, connected, writing, popped, Option.isSome_some]

/-- What is kept when nobody offers anything any more. -/
structure Closed (old : Bytes) (accepted dropped : List AuditRecord) (writer : AuditWriter) :
    Prop where
  held : Held old writer
  warned : Warned writer
  closed : writer.tx = false
  accepted : writer.accepted = accepted
  dropped : writer.dropped = dropped

theorem closed_step {old : Bytes} {accepted dropped : List AuditRecord} {action : Act}
    (taken : step writer action = some next) (closed : Closed old accepted dropped writer) :
    Closed old accepted dropped next := by
  have held := held_step taken closed.held
  have warned := warned_step taken closed.held closed.warned
  cases moves_of_step taken with
  | @write record kept octets connected writing some_octets within =>
      by_cases whole : kept + octets = record.line.length
      · rw [wrote_of_whole writer whole] at held warned ⊢
        exact ⟨held, warned, closed.closed, closed.accepted, closed.dropped⟩
      · rw [wrote_of_part writer whole] at held warned ⊢
        exact ⟨held, warned, closed.closed, closed.accepted, closed.dropped⟩
  | recv | fail | stop | die =>
      exact ⟨held, warned, closed.closed, closed.accepted, closed.dropped⟩
  | close => exact ⟨held, warned, rfl, closed.accepted, closed.dropped⟩

/-- The loop has not ended before the queue was empty, unless the thread died. -/
def Emptied (writer : AuditWriter) : Prop :=
  writer.audit.connected = false → writer.writing = none ∧ writer.audit.queue.items = []

theorem emptied_step {action : Act} (taken : step writer action = some next)
    (alive : action ≠ .die) (emptied : Emptied writer) : Emptied next := by
  cases moves_of_step taken with
  | recv connected | fail connected =>
      intro gone
      exact (Bool.false_ne_true (gone.symm.trans connected)).elim
  | write connected =>
      intro gone
      rw [wrote] at gone
      split_ifs at gone <;> exact (Bool.false_ne_true (gone.symm.trans connected)).elim
  | close => exact emptied
  | stop connected closed idle empty => exact fun _ => ⟨idle, empty⟩
  | die => exact absurd rfl alive

end AuditWriter

/-- **A writer without handles comes to its end**: it takes no more steps than it
has left, and when there is none to take, its thread is gone and has emptied the
queue, unless it died. -/
theorem AuditWriter.drained {old : Bytes} {writer final : AuditWriter} {acts : List Act}
    (closed : Closed old writer.accepted writer.dropped writer)
    (ran : run step writer acts = some final) :
    acts.length ≤ writer.left ∧ Closed old writer.accepted writer.dropped final ∧
      ((∀ action, step final action = none) → final.audit.connected = false ∧
        (writer.audit.connected = true → .die ∉ acts →
          final.writing = none ∧ final.audit.queue.items = [])) := by
  have kept : Closed old writer.accepted writer.dropped final :=
    invariant (Closed old writer.accepted writer.dropped) closed_step ran closed
  have bounded := length_le_of_lessens (Closed old writer.accepted writer.dropped) left
    closed_step (fun taken before => left_lt taken before.closed before.held) ran closed
  refine ⟨Nat.le_of_add_right_le bounded, kept, fun stuck => ?_⟩
  have gone : final.audit.connected = false := by
    by_contra connected
    obtain ⟨action, possible⟩ :=
      step_of_connected kept.held kept.closed (Bool.eq_true_of_not_eq_false connected)
    rw [stuck action] at possible
    cases possible
  refine ⟨gone, fun connected alive => ?_⟩
  have careful : ∀ action ∈ acts, action ≠ .die := by
    intro action member same
    exact alive (same ▸ member)
  have emptied : Emptied final := by
    refine invariant_along Emptied emptied_step ran (along_of_forall careful writer) ?_
    intro disconnected
    exact (Bool.false_ne_true (disconnected.symm.trans connected)).elim
  exact emptied gone

end Debitmetre
