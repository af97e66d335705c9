import Debitmetre.Gateway.Service
import Debitmetre.Summary.Conservation
import Debitmetre.Summary.Recovery

/-!
# The summary of a service

What the local summary makes of the usage file of a gateway that serves requests
at the same time.  Whenever the gateway is interrupted, the file is read as the
records accepted first; and a gateway that is shut down without having printed a
warning has left a file whose summary tells of every request that was audited.
-/

namespace Debitmetre

open Wire Wire.Ascii Transition

theorem counted_written_append (entries : List Submission) (rest : Bytes) :
    counted (written entries ++ rest) = entries.map Submission.record ++ counted rest := by
  induction entries with
  | nil => rfl
  | cons entry entries ih =>
      rw [written, List.flatMap_cons, ← written, List.append_assoc, counted_line, ih,
        List.map_cons, List.cons_append]

/-- A line that is not ended is read if nothing but its newline is missing. -/
theorem counted_take_line (entry : Submission) {kept : Nat}
    (part : kept < entry.record.line.length) :
    counted (entry.record.line.take kept) =
      if kept = entry.record.toVec.length then [entry.record] else [] := by
  rw [length_line] at part
  rw [AuditRecord.line, List.take_append_of_le_length (Nat.le_of_lt_succ part)]
  by_cases whole : kept = entry.record.toVec.length
  · rw [if_pos whole, whole, List.take_length, counted_of_notMem entry.record.lf_notMem_toVec,
      recordOf_toVec]
    rfl
  · have split := List.take_append_drop kept entry.record.toVec
    have more : entry.record.toVec.drop kept ≠ [] := by
      rw [ne_eq, List.drop_eq_nil_iff]
      omega
    rw [if_neg whole, counted_of_notMem (lf_notMem_piece split),
      recordOf_of_malformed (malformed_piece split more)]
    rfl

/-- Writes that were not torn have written lines. -/
theorem exists_written {entries : List (AuditRecord × Nat)}
    (canonical : ∀ entry ∈ entries, entry.1.Canonical)
    (whole : ∀ entry ∈ entries, entry.2 = entry.1.line.length) :
    ∃ lines : List Submission, lines.map Submission.record = entries.map Prod.fst ∧
      entries.flatMap AuditWriter.piece = written lines := by
  induction entries with
  | nil => exact ⟨[], rfl, rfl⟩
  | cons entry entries ih =>
      obtain ⟨canonical, others⟩ := List.forall_mem_cons.mp canonical
      obtain ⟨first, wholes⟩ := List.forall_mem_cons.mp whole
      obtain ⟨lines, records, same⟩ := ih others wholes
      refine ⟨⟨entry.1, canonical⟩ :: lines, ?_, ?_⟩
      · rw [List.map_cons, List.map_cons, records]
      · rw [List.flatMap_cons, same, AuditWriter.piece, first, List.take_length, written,
          written, List.flatMap_cons]

namespace AuditWriter

/-- How many of the records that were accepted can be read from the file. -/
def readable (writer : AuditWriter) : Nat :=
  writer.settled.length +
    if writer.writing.any fun entry => entry.2 = entry.1.toVec.length then 1 else 0

/-- The writes that have settled without failing have written lines. -/
theorem Held.exists_lines {old : Bytes} {writer : AuditWriter} (held : Held old writer)
    (canonical : ∀ record ∈ writer.accepted, record.Canonical)
    (whole : writer.settled.any isTorn = false) :
    ∃ lines : List Submission, lines.map Submission.record = writer.settled.map Prod.fst ∧
      writer.settled.flatMap piece = written lines := by
  have settled : ∀ entry ∈ writer.settled, entry.1.Canonical := by
    intro entry member
    apply canonical
    rw [held.accepted, List.map_append, List.append_assoc]
    exact List.mem_append_left _ (List.mem_map_of_mem member)
  have wholes : ∀ entry ∈ writer.settled, entry.2 = entry.1.line.length := by
    intro entry member
    have sound : ¬ entry.2 < entry.1.line.length := of_decide_eq_false
      (Bool.eq_false_iff.mpr fun torn => List.any_eq_false.mp whole entry member torn)
    exact Nat.le_antisymm (held.within entry member) (Nat.le_of_not_lt sound)
  exact exists_written settled wholes

/-- A record that is being written has been accepted. -/
theorem Held.canonical_writing {old : Bytes} {writer : AuditWriter} (held : Held old writer)
    (canonical : ∀ record ∈ writer.accepted, record.Canonical) {entry : AuditRecord × Nat}
    (writing : writer.writing = some entry) : entry.1.Canonical := by
  apply canonical
  rw [held.accepted, List.map_append, List.append_assoc, writing]
  exact List.mem_append_right _ (List.mem_append_left _ (List.mem_singleton_self _))

/-- **The file of a writer whose writes did not fail** is read as what was there
before and the records accepted first. -/
theorem Held.counted_file {old : Bytes} {writer : AuditWriter} (held : Held old writer)
    (canonical : ∀ record ∈ writer.accepted, record.Canonical) (terminated : Terminated old)
    (whole : writer.settled.any isTorn = false) :
    counted writer.file = counted old ++ writer.accepted.take writer.readable := by
  have accepted := held.accepted
  rw [List.map_append, List.append_assoc] at accepted
  obtain ⟨lines, records, same⟩ := held.exists_lines canonical whole
  have length : (lines.map Submission.record).length = writer.settled.length := by
    rw [records, List.length_map]
  rw [held.file, List.flatMap_append, same, counted_append terminated, counted_written_append,
    accepted, ← records, readable]
  congr 1
  cases writing : writer.writing with
  | none =>
      rw [Option.any_none, if_neg Bool.false_ne_true, Nat.add_zero, ← length, List.take_left]
      exact List.append_nil _
  | some entry =>
      have part : entry.2 < entry.1.line.length := of_decide_eq_true (held.torn entry writing)
      have canonical : entry.1.Canonical := held.canonical_writing canonical writing
      rw [Option.toList_some, List.flatMap_singleton, piece,
        counted_take_line ⟨entry.1, canonical⟩ part, Option.any_some, ← length,
        List.take_length_add_append]
      by_cases text : entry.2 = entry.1.toVec.length
      · rw [if_pos text, decide_eq_true text, if_pos rfl]
        rfl
      · rw [if_neg text, decide_eq_false text, if_neg Bool.false_ne_true, List.take_zero]

end AuditWriter

/-- Records in another order are accounted for the same. -/
theorem accounted_perm {first second : List AuditRecord} (same : first.Perm second) :
    Reading.accounted first = Reading.accounted second := by
  rw [Reading.accounted_eq, Reading.accounted_eq]
  apply Reading.ext
  · exact Tally.tally_perm (same.filterMap _)
  · exact Tally.tally_perm (same.filterMap _)
  · exact Coverage.ext same.length_eq (same.filterMap _).length_eq
  · rfl

namespace Service

/-- The second line is written to its end. -/
def tidy : List (Incident Empty) := halfway ++ [.sink (.write (failure.line.length - 1))]

def afterTidy : Service Empty where
  members := afterHalfway.members
  sink :=
    { AuditWriter.spawn [] with
      file := success.line ++ failure.line.take 1 ++ failure.line.drop 1
      accepted := [success, failure]
      settled := [(success, success.line.length), (failure, failure.line.length)] }

theorem run_tidy : run step (.start none) tidy = some afterTidy := by
  have more := failure.one_lt_length_line
  have all : 1 + (failure.line.length - 1) = failure.line.length := by omega
  have rest : (failure.line.drop 1).take (failure.line.length - 1) = failure.line.drop 1 :=
    List.take_of_length_le (Nat.le_of_eq List.length_drop)
  refine run_concat_eq_some.mpr ⟨_, run_halfway, ?_⟩
  rw [step_write _ rfl rfl (by omega) (Nat.le_of_eq all), AuditWriter.wrote_of_whole _ all, rest,
    all]
  rfl

theorem terminated_start : Terminated (AuditWriter.start none) := by
  intro b last
  cases last

end Service

variable {F : Type} {file : Option Bytes} {incidents : List (Incident F)} {service : Service F}

/-- **Whenever a gateway is interrupted, its file is read as the records accepted
first.** No record is read twice, none out of its turn and none that no request
offered, as long as no write has failed. -/
theorem Service.read_interrupted (ran : run Service.step (.start file) incidents = some service)
    (terminated : Terminated (AuditWriter.start file))
    (whole : service.sink.settled.any AuditWriter.isTorn = false) :
    ∃ warnings, readUsageFile service.sink.file = (Reading.accounted
      (counted (AuditWriter.start file) ++
        service.sink.accepted.take service.sink.readable)).warned warnings := by
  have read := (Service.kept ran).held.counted_file
    (fun record accepted => Service.canonical_of_accepted ran accepted) terminated whole
  exact ⟨warningsOf service.sink.file, by rw [Debitmetre.readUsageFile_eq, read]⟩

/-- A gateway that is interrupted inside its second line: the first record is read. -/
theorem Service.read_interrupted_halfway :
    ∃ warnings, readUsageFile (success.line ++ failure.line.take 1) =
      (Reading.accounted [success]).warned warnings := by
  have readable : afterHalfway.sink.readable = 1 := by
    have part : (afterHalfway.sink.writing.any fun entry => entry.2 = entry.1.toVec.length) =
        false := decide_eq_false (Nat.ne_of_lt failure.one_lt_length_toVec)
    rw [AuditWriter.readable, part]
    rfl
  have whole : afterHalfway.sink.settled.any AuditWriter.isTorn = false := by
    change (AuditWriter.isTorn (success, success.line.length) || false) = false
    rw [not_isTorn, Bool.or_false]
  obtain ⟨warnings, read⟩ := Service.read_interrupted run_halfway terminated_start whole
  rw [readable] at read
  exact ⟨warnings, read⟩

/-- **A gateway that is shut down without a warning has told of everything**: the
summary of its file is that of the old file and of the records of all requests
that were audited, one for each. -/
theorem Service.reported (ran : run Service.step (.start file) incidents = some service)
    (terminated : Terminated (AuditWriter.start file))
    (connected : service.sink.audit.connected = true) {acts : List AuditWriter.Act}
    {writer : AuditWriter}
    (closed : run AuditWriter.step { service.sink with tx := false } acts = some writer)
    (ended : ∀ action, writer.step action = none) (alive : .die ∉ acts)
    (silent : writer.stderr = []) :
    (∃ warnings, readUsageFile writer.file = (Reading.accounted
        (counted (AuditWriter.start file) ++ service.offered)).warned warnings) ∧
      (readUsageFile writer.file).coverage.accepted =
        (readUsageFile (AuditWriter.start file)).coverage.accepted + service.audited := by
  obtain ⟨-, kept, drained⟩ := AuditWriter.drained (closed_of_kept (Service.kept ran)) closed
  obtain ⟨idle, empty⟩ := (drained ended).2 connected alive
  obtain ⟨dropped, whole⟩ := kept.warned.silent silent
  have read := kept.held.counted_file (by
    intro record accepted
    rw [kept.accepted] at accepted
    exact Service.canonical_of_accepted ran accepted) terminated whole
  have all : writer.accepted.take writer.readable = service.sink.accepted := by
    have accepted := kept.held.accepted
    rw [idle, empty, Option.toList_none, List.append_nil, List.append_nil] at accepted
    rw [AuditWriter.readable, idle, Option.any_none, if_neg Bool.false_ne_true, Nat.add_zero,
      List.take_of_length_le (by rw [accepted, List.length_map]), kept.accepted]
  have offered : service.offered.Perm service.sink.accepted := by
    have same := Service.conserved ran
    rw [← kept.dropped, dropped, List.append_nil] at same
    exact same
  rw [all] at read
  constructor
  · refine ⟨warningsOf writer.file, ?_⟩
    rw [Debitmetre.readUsageFile_eq, read, accounted_perm (offered.append_left _)]
  · rw [coverage_readUsageFile, coverage_readUsageFile, read, List.length_append,
      ← offered.length_eq, Service.length_offered_eq ran]

/-- A gateway that is shut down with both records in its file. -/
theorem Service.reported_tidy :
    (∃ warnings, readUsageFile afterTidy.sink.file =
        (Reading.accounted [success, failure]).warned warnings) ∧
      (readUsageFile afterTidy.sink.file).coverage.accepted =
        (readUsageFile (AuditWriter.start none)).coverage.accepted + afterTidy.audited := by
  have closed : run AuditWriter.step { afterTidy.sink with tx := false } [.stop] =
      some { afterTidy.sink with tx := false, audit := .detached } := rfl
  have ended : ∀ action, AuditWriter.step
      { afterTidy.sink with tx := false, audit := .detached } action = none := by
    intro action
    cases action <;> rfl
  have alive : AuditWriter.Act.die ∉ [AuditWriter.Act.stop] := by
    intro died
    cases List.mem_singleton.mp died
  have reported := Service.reported run_tidy terminated_start rfl closed ended alive rfl
  exact reported

end Debitmetre
