import Debitmetre.Gateway.Process
import Debitmetre.Summary.Remains
import Debitmetre.Summary.Service

/-!
# The summary of an installation

What the local summary makes of the usage file of a gateway that is run again and again,
whenever its processes were killed and whichever of their writes failed.  The summary is
that of what remains of the writes; no record is counted that no request offered, and
none twice; and it tells of every audited request exactly if nothing was dropped, left in
a queue or cut short.
-/

namespace Debitmetre

open Wire Transition

variable {F : Type} {first : Option Bytes} {happenings : List (Installation.Happening F)}
  {installation : Installation F}

namespace Installation

/-- What remains in the file of what all lives have written. -/
def remains (installation : Installation F) : Remains := remainsOf installation.written

/-- The octets of the usage file. -/
def file (installation : Installation F) : Bytes := AuditWriter.start installation.disk

/-- Every record was counted, glued to a torn piece, cut short, or not written at all. -/
theorem offered_perm_remains (ran : run step (start first) happenings = some installation) :
    installation.offered.Perm (installation.remains.counted ++ installation.remains.glued ++
      cutShort installation.written ++ installation.unwritten) :=
  (offered_perm ran).trans ((remainsOf_perm installation.written).append_right _)

/-- An audited request has its record in one of five places. -/
theorem length_audited (ran : run step (start first) happenings = some installation) :
    installation.audited = installation.remains.counted.length + installation.remains.glued.length +
      (cutShort installation.written).length + installation.unwritten.length := by
  rw [← length_offered ran, (offered_perm_remains ran).length_eq, List.length_append,
    List.length_append, List.length_append]

/-- What was offered was read, or it was cut short, glued or not written at all. -/
theorem offered_perm_read (ran : run step (start first) happenings = some installation) :
    ∃ lost, installation.offered.Perm (installation.remains.read ++ lost) ∧
      lost.length ≤
        2 * (cutShort installation.written).length + installation.unwritten.length := by
  obtain ⟨others, cut⟩ := exists_cutShort_perm installation.written
  have few := length_glued_le installation.written
  have fewer := cut.length_eq
  rw [List.length_append] at fewer
  refine ⟨installation.remains.glued ++ others ++ installation.unwritten, ?_, ?_⟩
  · have moved : (installation.remains.counted ++ installation.remains.glued ++
        cutShort installation.written).Perm
        (installation.remains.read ++ (installation.remains.glued ++ others)) := by
      rw [Remains.read, List.append_assoc, List.append_assoc]
      refine List.Perm.append_left _ ?_
      exact (cut.append_left _).trans (List.perm_append_comm_assoc _ _ _)
    rw [← List.append_assoc]
    exact (offered_perm_remains ran).trans (moved.append_right _)
  · rw [List.length_append, List.length_append]
    change (remainsOf installation.written).glued.length + _ + _ ≤ _
    omega

/-- The summary of an installation's file is that of what remains. -/
theorem readUsageFile_file (ran : run step (start first) happenings = some installation)
    (terminated : Terminated (AuditWriter.start first)) :
    readUsageFile installation.file =
      (Reading.accounted (counted (AuditWriter.start first) ++ installation.remains.read)).warned
        ⟨installation.remains.unfinished,
          (warningsOf (AuditWriter.start first)).unparseable +
            installation.remains.glued.length⟩ := by
  rw [file, (sound ran).file]
  exact readUsageFile_remains terminated (canonical_written ran)

/-- The accepted lifecycles of the file are those from before and what remains of the
writes. -/
theorem accepted_file (ran : run step (start first) happenings = some installation)
    (terminated : Terminated (AuditWriter.start first)) :
    (readUsageFile installation.file).coverage.accepted =
      (readUsageFile (AuditWriter.start first)).coverage.accepted +
        (installation.remains.counted.length + installation.remains.last.toList.length) := by
  rw [readUsageFile_file ran terminated, Reading.accounted_eq, coverage_readUsageFile,
    ← List.length_append, ← List.length_append]
  rfl

/-- A process is started, serves, and is killed. -/
def life (incidents : List (Incident Empty)) : List (Happening Empty) :=
  .boot :: (incidents.map .serve).map .act ++ [.halt]

/-- A process that runs and is killed is one life. -/
theorem run_life {disk : Option Bytes} {incidents : List (Incident Empty)}
    {service : Service Empty} (ran : run Service.step (.start disk) incidents = some service)
    (ended : List (Process Empty)) :
    run step ⟨disk, none, ended⟩ (life incidents) =
      some ⟨some service.sink.file, none, ended ++ [.serving service]⟩ := by
  have served := Restart.run_act gateway ended (Process.run_serving ran)
  exact run_concat_eq_some.mpr ⟨_, run_cons_eq_some.mpr ⟨_, rfl, served⟩, rfl⟩

/-- A process that is started again answers a request. -/
theorem run_again (old : Bytes) :
    run Service.step (.start (some old)) (.join answered :: Service.relayed) =
      some ⟨[(answered, Service.afterAnswered)], Service.received old Service.success⟩ := by
  have joined : Service.step (.start (some old)) (.join answered) =
      some ⟨[(answered, .awaiting "laptop" (some .response) .detached)], .spawn old⟩ := by
    rw [← start_answered]
    rfl
  exact run_cons_eq_some.mpr ⟨_, joined, Service.run_relayed [] old⟩

/-- A process that is killed inside its second line, and another one, whose line is
glued to what there is of that. -/
def glued : List (Happening Empty) :=
  life Service.halfway ++
    life (.join answered :: Service.relayed ++ [.sink (.write Service.success.line.length)])

/-- The first process was killed inside its second line. -/
def afterKilled : Installation Empty :=
  ⟨some Service.afterHalfway.sink.file, none, [.serving Service.afterHalfway]⟩

/-- The second process has glued its first line to the torn one. -/
def afterGlued : Installation Empty :=
  ⟨some (Service.afterHalfway.sink.file ++ Service.success.line), none,
    [.serving Service.afterHalfway, .serving ⟨[(answered, Service.afterAnswered)],
      Service.wrote Service.afterHalfway.sink.file Service.success⟩]⟩

/-- The first life can be lived. -/
theorem run_killed : run step (start none) (life Service.halfway) = some afterKilled :=
  run_life Service.run_halfway []

/-- The second life can be lived after the first. -/
theorem run_restarted : run step afterKilled
    (life (.join answered :: Service.relayed ++ [.sink (.write Service.success.line.length)])) =
      some afterGlued :=
  run_life (run_concat_eq_some.mpr ⟨_, run_again _, Service.step_write_line _ _ _⟩) _

theorem run_glued : run step (start none) glued = some afterGlued :=
  run_append run_killed run_restarted

/-- What remains is one counted record and a torn one. -/
theorem remains_killed : afterKilled.remains =
    ⟨[Service.success], [], [(Service.failure, 1)]⟩ := by
  have some_octets := Nat.ne_of_gt Service.success.length_line_pos
  have written : afterKilled.written =
      [(Service.success, Service.success.line.length), (Service.failure, 1)] := rfl
  rw [remains, written, remainsOf, List.foldl_cons, List.foldl_cons, List.foldl_nil]
  simp only [Remains.write, some_octets, Nat.one_ne_zero, Service.isTorn_failure,
    Service.not_isTorn, if_false, if_true, Bool.false_eq_true, Remains.start, List.nil_append]

theorem last_killed : afterKilled.remains.last = none := by
  rw [remains_killed, Remains.last]
  exact if_neg (Nat.ne_of_lt Service.failure.one_lt_length_toVec)

/-- What the two processes have written. -/
theorem written_glued : afterGlued.written =
    [(Service.success, Service.success.line.length), (Service.failure, 1),
      (Service.success, Service.success.line.length)] := rfl

/-- What remains is one counted record and one that was glued to a torn line. -/
theorem remains_glued : afterGlued.remains = ⟨[Service.success], [Service.success], []⟩ := by
  have some_octets := Nat.ne_of_gt Service.success.length_line_pos
  rw [remains, written_glued, remainsOf, List.foldl_cons, List.foldl_cons, List.foldl_cons,
    List.foldl_nil]
  simp only [Remains.write, some_octets, Nat.one_ne_zero, Service.isTorn_failure,
    Service.not_isTorn, if_false, if_true, Bool.false_eq_true, Remains.start, List.nil_append,
    List.cons_ne_nil]

theorem cutShort_glued : cutShort afterGlued.written = [Service.failure] := by
  rw [written_glued]
  simp only [cutShort, List.filter_cons, Service.isTorn_failure, Service.not_isTorn,
    Bool.false_eq_true, if_false, if_true, List.filter_nil, List.map_cons, List.map_nil]

/-- A process that has written its two lines, and another one, which is killed before
the newline of its line. -/
def unended : List (Happening Empty) :=
  life Service.tidy ++
    life (.join answered :: Service.relayed ++ [.sink (.write Service.success.toVec.length)])

/-- The second process was killed before the newline of its only line. -/
def afterUnended : Installation Empty :=
  ⟨some (Service.afterTidy.sink.file ++ Service.success.toVec), none,
    [.serving Service.afterTidy, .serving ⟨[(answered, Service.afterAnswered)],
      Service.wroteText Service.afterTidy.sink.file Service.success⟩]⟩

theorem run_unended : run step (start none) unended = some afterUnended :=
  run_append (run_life Service.run_tidy [])
    (run_life (run_concat_eq_some.mpr ⟨_, run_again _, Service.step_write_text _ _ _⟩) _)

theorem written_unended : afterUnended.written =
    [(Service.success, Service.success.line.length),
      (Service.failure, Service.failure.line.length),
      (Service.success, Service.success.toVec.length)] := rfl

/-- A line without its newline is cut short. -/
theorem isTorn_text (record : AuditRecord) :
    AuditWriter.isTorn (record, record.toVec.length) = true :=
  decide_eq_true record.length_toVec_lt

/-- What remains is two counted records and one that lacks its newline. -/
theorem remains_unended : afterUnended.remains =
    ⟨[Service.success, Service.failure], [],
      [(Service.success, Service.success.toVec.length)]⟩ := by
  have first := Nat.ne_of_gt Service.success.length_line_pos
  have second := Nat.ne_of_gt Service.failure.length_line_pos
  have third := Nat.ne_of_gt (Nat.lt_of_succ_lt Service.success.one_lt_length_toVec)
  rw [remains, written_unended, remainsOf, List.foldl_cons, List.foldl_cons, List.foldl_cons,
    List.foldl_nil]
  simp only [Remains.write, first, second, third, Service.not_isTorn, isTorn_text, if_false,
    if_true, Bool.false_eq_true, Remains.start, List.nil_append, List.cons_append]

theorem cutShort_unended : cutShort afterUnended.written = [Service.success] := by
  rw [written_unended]
  simp only [cutShort, List.filter_cons, isTorn_text, Service.not_isTorn, Bool.false_eq_true,
    if_false, if_true, List.filter_nil, List.map_cons, List.map_nil]

/-- The record that lacks its newline is read. -/
theorem last_unended : afterUnended.remains.last = some Service.success := by
  rw [remains_unended, Remains.last]
  exact if_pos rfl

end Installation

/-- **The summary of an installation** is that of what remains of the writes of all its
lives: it counts no record that was not offered, and none twice, and what it does not
count was dropped, left in a queue, cut short, or glued to a record that was. -/
theorem Installation.tells
    (ran : run Installation.step (.start first) happenings = some installation)
    (terminated : Terminated (AuditWriter.start first)) :
    ∃ lost, readUsageFile installation.file =
        (Reading.accounted (counted (AuditWriter.start first) ++ installation.remains.read)).warned
          ⟨installation.remains.unfinished,
            (warningsOf (AuditWriter.start first)).unparseable +
              installation.remains.glued.length⟩ ∧
      installation.offered.Perm (installation.remains.read ++ lost) ∧
        lost.length ≤
          2 * (cutShort installation.written).length + installation.unwritten.length := by
  obtain ⟨lost, perm, few⟩ := offered_perm_read ran
  exact ⟨lost, readUsageFile_file ran terminated, perm, few⟩

/-- The first record is counted; the second was cut short and the third is glued to it. -/
theorem Installation.tells_glued : ∃ lost,
    readUsageFile afterGlued.file = (Reading.accounted [Service.success]).warned ⟨false, 1⟩ ∧
      [Service.success, Service.failure, Service.success].Perm ([Service.success] ++ lost) ∧
      lost.length ≤ 2 := by
  obtain ⟨lost, read, perm, few⟩ := Installation.tells run_glued Service.terminated_start
  rw [cutShort_glued] at few
  rw [remains_glued] at read perm
  exact ⟨lost, read, perm, few⟩

/-- **The summary tells of every audited request** of all lives of an installation if and only
if every record was written, and whole, but for the newline of the last. -/
theorem Installation.complete_iff
    (ran : run Installation.step (.start first) happenings = some installation)
    (terminated : Terminated (AuditWriter.start first)) :
    (readUsageFile installation.file).coverage.accepted =
        (readUsageFile (AuditWriter.start first)).coverage.accepted + installation.audited ↔
      installation.unwritten = [] ∧
        cutShort installation.written = installation.remains.last.toList := by
  have audited := length_audited ran
  have few := length_last_le installation.written
  change installation.remains.glued.length + installation.remains.last.toList.length ≤ _ at few
  obtain ⟨others, cut⟩ := exists_cutShort_perm installation.written
  change (cutShort installation.written).Perm (installation.remains.last.toList ++ others) at cut
  have lengths := cut.length_eq
  rw [List.length_append] at lengths
  rw [accepted_file ran terminated, audited]
  constructor
  · intro all
    have none_other : others.length = 0 := by omega
    rw [List.length_eq_zero_iff.mp none_other, List.append_nil] at cut
    refine ⟨List.length_eq_zero_iff.mp (by omega), ?_⟩
    cases last : installation.remains.last with
    | none =>
        rw [last] at cut
        exact List.perm_nil.mp cut
    | some record =>
        rw [last] at cut
        exact List.perm_singleton.mp cut
  · intro both
    have unwritten := congrArg List.length both.1
    have single := congrArg List.length both.2
    rw [List.length_nil] at unwritten
    omega

/-- Of three records that were written whole, but for the last newline, all are told. -/
theorem Installation.complete_iff_unended :
    (readUsageFile afterUnended.file).coverage.accepted =
      (readUsageFile (AuditWriter.start none)).coverage.accepted + afterUnended.audited := by
  refine (Installation.complete_iff run_unended Service.terminated_start).mpr ⟨rfl, ?_⟩
  rw [cutShort_unended, last_unended]
  rfl

end Debitmetre
