import Debitmetre.Summary.Installation

/-!
# What is counted stays counted

The usage file of an installation only grows, and a line that was counted is counted from
then on, whatever is written and whichever processes are killed.  Only the record that
the file ends in without a newline can be lost again, if the next line is glued to it.
-/

namespace Debitmetre

open Wire Transition AuditWriter

/-- Writing goes on: nothing happens, a record is taken, or some more is written of the
line of the last. -/
inductive GoesOn : List (AuditRecord × Nat) → List (AuditRecord × Nat) → Prop
  | same (entries : List (AuditRecord × Nat)) : GoesOn entries entries
  | begins (entries : List (AuditRecord × Nat)) (record : AuditRecord) :
      GoesOn entries (entries ++ [(record, 0)])
  | continues (entries : List (AuditRecord × Nat)) {record : AuditRecord} {kept : Nat}
      (torn : isTorn (record, kept) = true) (more : Nat) :
      GoesOn (entries ++ [(record, kept)]) (entries ++ [(record, more)])

/-- A write takes no record from those that are counted. -/
theorem Remains.counted_write (remains : Remains) (entry : AuditRecord × Nat) :
    remains.counted <+: (remains.write entry).counted := by
  obtain ⟨-, -, taken⟩ | ⟨-, -, taken⟩ | ⟨-, -, taken⟩ | ⟨-, -, taken⟩ := remains.write_cases entry
  · simp only [taken, List.prefix_refl]
  · simp only [taken, List.prefix_refl]
  · rw [taken]
    exact List.prefix_append _ _
  · simp only [taken, List.prefix_refl]

/-- A line that was not written whole is not counted. -/
theorem Remains.counted_write_torn (remains : Remains) {entry : AuditRecord × Nat}
    (torn : isTorn entry = true) : (remains.write entry).counted = remains.counted := by
  obtain ⟨-, -, taken⟩ | ⟨-, -, taken⟩ | ⟨sound, -, -⟩ | ⟨sound, -, -⟩ := remains.write_cases entry
  · rw [taken]
  · rw [taken]
  · rw [torn] at sound
    cases sound
  · rw [torn] at sound
    cases sound

namespace GoesOn

variable {before after : List (AuditRecord × Nat)}

/-- What goes on after some writes goes on after more. -/
theorem append_left (past : List (AuditRecord × Nat)) (goesOn : GoesOn before after) :
    GoesOn (past ++ before) (past ++ after) := by
  cases goesOn with
  | same => exact .same _
  | begins =>
      rw [← List.append_assoc]
      exact .begins _ _
  | continues entries torn more =>
      rw [← List.append_assoc, ← List.append_assoc]
      exact .continues _ torn more

/-- What was counted stays counted. -/
theorem counted (goesOn : GoesOn before after) :
    (remainsOf before).counted <+: (remainsOf after).counted := by
  cases goesOn with
  | same => exact List.prefix_refl _
  | begins =>
      rw [remainsOf_concat]
      exact Remains.counted_write _ _
  | continues entries torn more =>
      rw [remainsOf_concat, remainsOf_concat, Remains.counted_write_torn _ torn]
      exact Remains.counted_write _ _

end GoesOn

/-- Offering a record writes nothing. -/
theorem AuditWriter.goesOn_tryRecord (writer : AuditWriter) (record : AuditRecord) :
    GoesOn writer.entries (writer.tryRecord record).entries := by
  rcases writer.tryRecord_cases record with ⟨-, -, queue, -, -, taken⟩ | ⟨taken, -, -⟩
  · rw [taken]
    exact .same _
  · rw [taken]
    exact .same _

/-- The writer goes on with its writes. -/
theorem AuditWriter.goesOn_step {old : Bytes} {writer next : AuditWriter} {action : Act}
    (taken : AuditWriter.step writer action = some next) (held : Held old writer) :
    GoesOn writer.entries next.entries := by
  unfold entries
  cases moves_of_step taken with
  | @recv record queue connected idle queued =>
      rw [idle, Option.toList_none, List.append_nil]
      exact .begins _ record
  | @write record kept octets connected writing some_octets within =>
      have torn : isTorn (record, kept) = true := held.torn (record, kept) writing
      rw [writing, Option.toList_some]
      by_cases whole : kept + octets = record.line.length
      · rw [wrote_of_whole writer whole, Option.toList_none, List.append_nil]
        exact .continues _ torn _
      · rw [wrote_of_part writer whole, Option.toList_some]
        exact .continues _ torn _
  | @fail record kept connected writing =>
      rw [writing, Option.toList_some, Option.toList_none, List.append_nil]
      exact .same _
  | close | stop | die => exact .same _

variable {F : Type}

/-- So does a service with those of its writer. -/
theorem Service.goesOn_step {file : Option Bytes} {service next : Service F}
    {incident : Incident F} (taken : Service.step service incident = some next)
    (held : Held (AuditWriter.start file) service.sink) :
    GoesOn service.sink.entries next.sink.entries := by
  cases Pool.moves_of_step taken with
  | join seed => exact .same _
  | @member index arrival before after event output there moved =>
      cases output with
      | none => exact .same _
      | some record => exact goesOn_tryRecord _ record
  | sink served => exact AuditWriter.goesOn_step (Service.auditWriter_step served).2 held

/-- So does a process, in whatever state it is. -/
theorem Process.goesOn_step {file : Option Bytes} {process next : Process F}
    {event : Process.Event F} (taken : Process.step process event = some next)
    (lived : Process.Lived file process) : GoesOn process.written next.written := by
  have held := lived.held
  cases lived with
  | serving ran =>
      cases event with
      | serve incident =>
          obtain ⟨service, served, rfl⟩ := Option.map_eq_some_iff.mp taken
          exact Service.goesOn_step served held
      | close =>
          cases taken
          exact .same _
      | drain action => cases taken
  | closing ran closed =>
      cases event with
      | serve | close => cases taken
      | drain action =>
          obtain ⟨writer, drained, rfl⟩ := Option.map_eq_some_iff.mp taken
          exact AuditWriter.goesOn_step drained held

variable {first : Option Bytes} {happenings : List (Installation.Happening F)}
  {installation : Installation F}

namespace Installation

/-- Between two processes the writes are those of the earlier ones. -/
theorem written_idle (disk : Option Bytes) (ended : List (Process F)) :
    written ⟨disk, none, ended⟩ = ended.flatMap Process.written := by
  rw [written, Restart.Host.lives, Option.toList_none, List.append_nil]

/-- The writes of a process come after those of the earlier ones. -/
theorem written_running (disk : Option Bytes) (process : Process F) (ended : List (Process F)) :
    written ⟨disk, some process, ended⟩ =
      ended.flatMap Process.written ++ process.written := by
  rw [written, Restart.Host.lives, Option.toList_some, List.flatMap_append, List.flatMap_singleton]

/-- Writing goes on whatever happens to an installation. -/
theorem goesOn_step (ran : run step (start first) happenings = some installation)
    {next : Installation F} {happening : Happening F}
    (taken : step installation happening = some next) :
    GoesOn installation.written next.written := by
  have lived := (sound ran).lived
  obtain ⟨disk, running, ended⟩ := installation
  cases running with
  | none =>
      cases happening with
      | boot =>
          cases taken
          rw [written_idle, written_running]
          exact (List.append_nil (ended.flatMap Process.written)).symm ▸ .same _
      | abort =>
          cases taken
          exact .same _
      | act | halt => cases taken
  | some process =>
      cases happening with
      | boot | abort => cases taken
      | act event =>
          obtain ⟨after, acted, rfl⟩ := Option.map_eq_some_iff.mp taken
          obtain ⟨file, alive⟩ := lived process
            (List.mem_append_right _ (List.mem_singleton_self process))
          rw [written_running, written_running]
          exact (Process.goesOn_step acted alive).append_left _
      | halt =>
          cases taken
          rw [written_running, written_idle, List.flatMap_append, List.flatMap_singleton]
          exact .same _

/-- What is counted at some time is counted at any later one. -/
theorem counted_run {later : Installation F} {more : List (Happening F)}
    (ran : run step (start first) happenings = some installation)
    (went : run step installation more = some later) :
    installation.remains.counted <+: later.remains.counted := by
  refine (invariant (fun between : Installation F =>
    (∃ past, run step (start first) past = some between) ∧
      installation.remains.counted <+: between.remains.counted) ?_ went
    ⟨⟨happenings, ran⟩, List.prefix_refl _⟩).2
  intro between happening next taken kept
  obtain ⟨past, reached⟩ := kept.1
  exact ⟨⟨past ++ [happening], run_concat_eq_some.mpr ⟨between, reached, taken⟩⟩,
    kept.2.trans (goesOn_step reached taken).counted⟩

end Installation

/-- **What is counted stays counted**, whatever happens to an installation: the records of
the lines of its file are counted from then on, in their order, and all that can be lost
of what the summary tells is the record that the file ends in without a newline. -/
theorem Installation.keeps
    (ran : run Installation.step (.start first) happenings = some installation)
    (terminated : Terminated (AuditWriter.start first)) {later : Installation F}
    {more : List (Installation.Happening F)}
    (went : run Installation.step installation more = some later) :
    installation.remains.counted <+: later.remains.counted ∧
      (readUsageFile installation.file).coverage.accepted ≤
        (readUsageFile later.file).coverage.accepted +
          installation.remains.last.toList.length := by
  have counted := counted_run ran went
  refine ⟨counted, ?_⟩
  have fewer := counted.length_le
  rw [accepted_file ran terminated, accepted_file (run_append ran went) terminated]
  omega

/-- The record that a killed process has written is still counted when the next one has
had its line glued to a torn piece. -/
theorem Installation.keeps_glued :
    [Service.success] <+: afterGlued.remains.counted ∧
      (readUsageFile afterKilled.file).coverage.accepted ≤
        (readUsageFile afterGlued.file).coverage.accepted := by
  have kept := Installation.keeps run_killed Service.terminated_start run_restarted
  rwa [last_killed, remains_killed] at kept

end Debitmetre
