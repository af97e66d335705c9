import Debitmetre.Summary.Installation

/-!
# What the summary warns about

The summary warns about a file that ends in a piece of a line, and about lines that are
no records.  For the file of an installation it is silent exactly if every line of which
something was written was written whole, but for the newline of the last; and then what
it does not tell of are the records of which nothing was written.
-/

namespace Debitmetre

open Wire Transition AuditWriter

/-- The lines on standard error. -/
def printWarnings (warnings : ReadWarnings) : List String :=
  (if warnings.partialTail then
    ["debitmetre: summary: ignored 1 unfinished trailing line " ++
      "(possible crash partial write)"]
  else []) ++
    if 0 < warnings.unparseable then
      ["debitmetre: summary: skipped " ++ toString warnings.unparseable ++
        " unparseable record(s); only complete canonical records are counted"]
    else []

/-- Nothing is printed if no line was torn and none was unparseable. -/
theorem printWarnings_eq_nil_iff {warnings : ReadWarnings} :
    printWarnings warnings = [] ↔ warnings.partialTail = false ∧ warnings.unparseable = 0 := by
  rw [printWarnings, List.append_eq_nil_iff]
  refine and_congr ?_ ?_
  · cases warnings.partialTail with
    | false => exact iff_of_true rfl rfl
    | true => exact iff_of_false (List.cons_ne_nil _ _) fun same => by cases same
  · by_cases broken : 0 < warnings.unparseable
    · rw [if_pos broken]
      exact iff_of_false (List.cons_ne_nil _ _) (Nat.pos_iff_ne_zero.mp broken)
    · rw [if_neg broken]
      exact iff_of_true rfl (Nat.eq_zero_of_not_pos broken)

/-- The lines of which something was written. -/
def begun (entries : List (AuditRecord × Nat)) : List (AuditRecord × Nat) :=
  entries.filter fun entry => entry.2 ≠ 0

/-- The records of the lines of which nothing was written. -/
def unbegun (entries : List (AuditRecord × Nat)) : List AuditRecord :=
  (entries.filter fun entry => !decide (entry.2 ≠ 0)).map Prod.fst

/-- Every line that was begun was written whole, but for the newline of the last. -/
def WrittenWhole (entries : List (AuditRecord × Nat)) : Prop :=
  ∃ lines, (∀ line ∈ lines, isTorn line = false) ∧
    (begun entries = lines ∨ ∃ record, begun entries = lines ++ [(record, record.toVec.length)])

/-- Something was written of a record, or nothing was. -/
theorem perm_begun (entries : List (AuditRecord × Nat)) :
    (entries.map Prod.fst).Perm ((begun entries).map Prod.fst ++ unbegun entries) := by
  rw [unbegun, ← List.map_append]
  exact (List.filter_append_perm _ entries).symm.map Prod.fst

theorem begun_concat_of_zero (entries : List (AuditRecord × Nat)) {entry : AuditRecord × Nat}
    (nothing : entry.2 = 0) : begun (entries ++ [entry]) = begun entries := by
  rw [begun, List.filter_append, List.filter_singleton, nothing]
  exact List.append_nil _

theorem begun_concat (entries : List (AuditRecord × Nat)) {entry : AuditRecord × Nat}
    (some_octets : entry.2 ≠ 0) : begun (entries ++ [entry]) = begun entries ++ [entry] := by
  rw [begun, List.filter_append, List.filter_singleton, decide_eq_true some_octets]
  rfl

theorem ne_zero_of_whole {entry : AuditRecord × Nat} (whole : isTorn entry = false) :
    entry.2 ≠ 0 := by
  have long := of_decide_eq_false whole
  rw [length_line] at long
  omega

/-- As long as no line was glued, the pieces that were begun are the last ones. -/
theorem begun_of_glued {entries : List (AuditRecord × Nat)}
    (sound : (remainsOf entries).glued = []) :
    ∃ lines, (∀ line ∈ lines, isTorn line = false) ∧
      (remainsOf entries).counted = lines.map Prod.fst ∧
        begun entries = lines ++ (remainsOf entries).pending := by
  induction entries using List.reverseRecOn with
  | nil => exact ⟨[], List.forall_mem_nil _, rfl, rfl⟩
  | append_singleton entries entry ih =>
      rw [remainsOf_concat] at sound ⊢
      obtain ⟨nothing, -, taken⟩ | ⟨some_octets, -, taken⟩ | ⟨whole, clean, taken⟩ |
        ⟨-, -, taken⟩ := (remainsOf entries).write_cases entry
      · rw [taken] at sound ⊢
        rw [begun_concat_of_zero entries nothing]
        exact ih sound
      · rw [taken] at sound ⊢
        obtain ⟨lines, wholes, counted, same⟩ := ih sound
        refine ⟨lines, wholes, counted, ?_⟩
        rw [begun_concat entries some_octets, same, List.append_assoc]
      · rw [taken] at sound ⊢
        obtain ⟨lines, wholes, counted, same⟩ := ih sound
        refine ⟨lines ++ [entry], List.forall_mem_append.mpr ⟨wholes, ?_⟩, ?_, ?_⟩
        · exact List.forall_mem_singleton.mpr whole
        · rw [counted, List.map_append, List.map_singleton]
        · rw [begun_concat entries (ne_zero_of_whole whole), same, clean, List.append_nil,
            List.append_nil]
      · rw [taken] at sound
        cases (List.append_eq_nil_iff.mp sound).2

/-- Lines of which nothing was written leave nothing. -/
theorem remainsOf_begun (entries : List (AuditRecord × Nat)) :
    remainsOf (begun entries) = remainsOf entries := by
  induction entries using List.reverseRecOn with
  | nil => rfl
  | append_singleton entries entry ih =>
      by_cases nothing : entry.2 = 0
      · rw [begun_concat_of_zero entries nothing, ih, remainsOf_concat, Remains.write,
          if_pos nothing]
      · rw [begun_concat entries nothing, remainsOf_concat, ih, remainsOf_concat]

/-- All whole lines are counted. -/
theorem remainsOf_lines {lines : List (AuditRecord × Nat)}
    (whole : ∀ line ∈ lines, isTorn line = false) :
    remainsOf lines = ⟨lines.map Prod.fst, [], []⟩ := by
  induction lines using List.reverseRecOn with
  | nil => rfl
  | append_singleton lines line ih =>
      obtain ⟨wholes, whole⟩ := List.forall_mem_append.mp whole
      have own : isTorn line = false := whole line (List.mem_singleton_self line)
      rw [remainsOf_concat, ih wholes, Remains.write, if_neg (ne_zero_of_whole own), own,
        if_neg Bool.false_ne_true, if_pos rfl, List.map_append, List.map_singleton]

/-- A file that does not end in a piece ends in a line. -/
theorem Remains.pending_of_last {remains : Remains} (complete : remains.unfinished = false)
    (last : remains.last = none) : remains.pending = [] := by
  by_contra torn
  exact of_decide_eq_false complete ⟨torn, last⟩

/-- The summary finds nothing wrong exactly if what was begun was written whole. -/
theorem writtenWhole_iff {entries : List (AuditRecord × Nat)} :
    WrittenWhole entries ↔
      (remainsOf entries).unfinished = false ∧ (remainsOf entries).glued = [] := by
  constructor
  · intro written
    obtain ⟨lines, whole, same⟩ := written
    rcases same with same | ⟨record, same⟩
    · rw [← remainsOf_begun, same, remainsOf_lines whole]
      exact ⟨rfl, rfl⟩
    · have member : (record, record.toVec.length) ∈ begun entries :=
        same ▸ List.mem_append_right _ (List.mem_singleton_self _)
      have some_octets : record.toVec.length ≠ 0 := of_decide_eq_true (List.mem_filter.mp member).2
      have torn : isTorn (record, record.toVec.length) = true := by
        rw [isTorn, length_line]
        exact decide_eq_true (Nat.lt_succ_self _)
      have left : remainsOf entries =
          ⟨lines.map Prod.fst, [], [(record, record.toVec.length)]⟩ := by
        rw [← remainsOf_begun, same, remainsOf_concat, remainsOf_lines whole, Remains.write,
          if_neg some_octets, if_pos torn, List.nil_append]
      have last : (remainsOf entries).last = some record := by
        rw [left]
        exact if_pos rfl
      refine ⟨decide_eq_false fun both => ?_, congrArg Remains.glued left⟩
      cases last.symm.trans both.2
  · intro silent
    obtain ⟨lines, whole, -, same⟩ := begun_of_glued silent.2
    refine ⟨lines, whole, ?_⟩
    cases last : (remainsOf entries).last with
    | none =>
        rw [Remains.pending_of_last silent.1 last, List.append_nil] at same
        exact .inl same
    | some record =>
        obtain ⟨kept, pending⟩ := Remains.mem_pending_of_last last
        rw [Remains.last, pending] at last
        have all : kept = record.toVec.length := (Option.ite_none_right_eq_some.mp last).1
        rw [pending, all] at same
        exact .inr ⟨record, same⟩

/-- What was written whole is read. -/
theorem read_of_writtenWhole {entries : List (AuditRecord × Nat)}
    (written : WrittenWhole entries) :
    (remainsOf entries).read = (begun entries).map Prod.fst := by
  obtain ⟨complete, sound⟩ := writtenWhole_iff.mp written
  obtain ⟨lines, -, counted, same⟩ := begun_of_glued sound
  rw [Remains.read, counted, same, List.map_append]
  congr 1
  cases last : (remainsOf entries).last with
  | none =>
      rw [Remains.pending_of_last complete last]
      rfl
  | some record =>
      obtain ⟨kept, pending⟩ := Remains.mem_pending_of_last last
      rw [pending]
      rfl

namespace Installation

/-- There is nothing to warn of in an empty file. -/
theorem silent_start : printWarnings (readUsageFile (AuditWriter.start none)).warnings = [] := by
  rw [readUsageFile_eq, Reading.warnings_warned]
  exact printWarnings_eq_nil_iff.mpr ⟨rfl, rfl⟩

/-- The line without its newline is a whole record. -/
theorem unfinished_unended : afterUnended.remains.unfinished = false := by
  refine decide_eq_false fun both => ?_
  cases last_unended.symm.trans both.2

theorem writtenWhole_unended : WrittenWhole afterUnended.written :=
  writtenWhole_iff.mpr ⟨unfinished_unended, congrArg Remains.glued remains_unended⟩

end Installation

section Results

variable {F : Type} {first : Option Bytes} {happenings : List (Installation.Happening F)}
  {installation : Installation F}

/-- **The summary of an installation is silent** if and only if that of the file before was and
every line that any process has begun was written whole, but for the newline of the last. -/
theorem Installation.silent_iff
    (ran : run Installation.step (.start first) happenings = some installation)
    (terminated : Terminated (AuditWriter.start first)) :
    printWarnings (readUsageFile installation.file).warnings = [] ↔
      printWarnings (readUsageFile (AuditWriter.start first)).warnings = [] ∧
        WrittenWhole installation.written := by
  have before : (warningsOf (AuditWriter.start first)).partialTail = false :=
    Remains.partialTail_of_clean (tail_eq_nil_iff.mpr terminated)
  rw [readUsageFile_file ran terminated, readUsageFile_eq, Reading.warnings_warned,
    Reading.warnings_warned, printWarnings_eq_nil_iff, printWarnings_eq_nil_iff, before,
    writtenWhole_iff, Nat.add_eq_zero_iff, List.length_eq_zero_iff, and_iff_right rfl]
  exact and_left_comm

/-- The summary is silent about a line that only lacks its newline, and warns of one to
which another was glued. -/
theorem Installation.silent_iff_glued :
    printWarnings (readUsageFile afterUnended.file).warnings = [] ∧
      printWarnings (readUsageFile afterGlued.file).warnings ≠ [] := by
  constructor
  · exact (Installation.silent_iff run_unended Service.terminated_start).mpr
      ⟨silent_start, writtenWhole_unended⟩
  · intro silent
    obtain ⟨-, whole⟩ := (Installation.silent_iff run_glued Service.terminated_start).mp silent
    have none_glued := (writtenWhole_iff.mp whole).2
    rw [← remains, remains_glued] at none_glued
    cases none_glued

/-- **A silent summary** tells of all records that were offered but for those of which nothing
was written: no line that was begun is lost without a warning. -/
theorem Installation.tells_of_silent
    (ran : run Installation.step (.start first) happenings = some installation)
    (terminated : Terminated (AuditWriter.start first))
    (silent : printWarnings (readUsageFile installation.file).warnings = []) :
    ∃ told, readUsageFile installation.file =
        (Reading.accounted (counted (AuditWriter.start first) ++ told)).warned ⟨false, 0⟩ ∧
      installation.offered.Perm
        (told ++ (unbegun installation.written ++ installation.unwritten)) := by
  have file := readUsageFile_file ran terminated
  have warnings := printWarnings_eq_nil_iff.mp silent
  rw [file, Reading.warnings_warned] at warnings
  obtain ⟨complete, parsed⟩ := warnings
  have sound := List.length_eq_zero_iff.mp (Nat.add_eq_zero_iff.mp parsed).2
  refine ⟨installation.remains.read, ?_, ?_⟩
  · rw [file]
    exact congrArg _ (ReadWarnings.ext complete parsed)
  · have read := read_of_writtenWhole (writtenWhole_iff.mpr ⟨complete, sound⟩)
    rw [remains, read, ← List.append_assoc]
    exact (offered_perm ran).trans ((perm_begun installation.written).append_right _)

end Results

/-- Of two processes whose lines are whole, but for the last newline, all is told. -/
theorem Installation.tells_of_silent_unended : ∃ told,
    readUsageFile afterUnended.file = (Reading.accounted told).warned ⟨false, 0⟩ ∧
      [Service.success, Service.failure, Service.success].Perm
        (told ++ (unbegun afterUnended.written ++ [])) := by
  have silent : printWarnings (readUsageFile afterUnended.file).warnings = [] := by
    rw [readUsageFile_file run_unended Service.terminated_start, Reading.warnings_warned,
      unfinished_unended, remains_unended]
    exact printWarnings_eq_nil_iff.mpr ⟨rfl, rfl⟩
  exact Installation.tells_of_silent run_unended Service.terminated_start silent

end Debitmetre
