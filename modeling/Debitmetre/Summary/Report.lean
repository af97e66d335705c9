import Debitmetre.Summary.Labels

/-!
# Reports

A report has one line for each group, and no line can be taken for another.  Labels
are printed as they were recorded, so what a record holds can break that: a label
that contains a newline is split into lines, keys can be printed alike, an effort can
be called what a machine and its model are printed as, and a label can end in the
first digits of the number of records that comes after another one.
-/

namespace Debitmetre

open Wire Columns

/-- What a group is printed as: its label and its totals. -/
abbrev Row := List Char × GroupTotals

/-- The sums of a group, without the number of its records. -/
def GroupTotals.sums (totals : GroupTotals) : List (Option UInt64) :=
  [totals.inputTotal, totals.uncached, totals.cacheRead, totals.cacheWrite, totals.outputTotal,
    totals.reasoning, totals.total]

namespace Row

def line (row : Row) : List Char := row.1 ++ row.2.columns

/-- A label and the number of records that is printed after it. -/
def numbered (row : Row) : List Char × List Char := (row.1, (toString row.2.records).toList)

/-- Rows of which the lines are the same: they have the same sums, and the same label and
number of records, unless a label goes on into the number. -/
def Alike (first second : Row) : Prop :=
  first.2.sums = second.2.sums ∧
    (first.numbered = second.numbered ∨ RunsOn RECORDS_W first.numbered second.numbered ∨
      RunsOn RECORDS_W second.numbered first.numbered)

end Row

theorem toString_injective {first second : Nat}
    (same : (toString first).toList = (toString second).toList) : first = second := by
  rw [toList_toString, toList_toString] at same
  have read := congrArg (fun digits => Nat.ofDigitChars 10 digits 0) same
  rwa [Nat.ofDigitChars_ten_toDigits, Nat.ofDigitChars_ten_toDigits] at read

/-- A counter is known from what it is printed as. -/
theorem cell_injective : Function.Injective cell := by
  have apart (value : UInt64) : cell (some value) ≠ cell none := by
    intro same
    have dash : '-' ∈ (toString value.toNat).toList := by
      change '-' ∈ cell (some value)
      rw [same]
      exact List.mem_singleton_self _
    exact absurd (isDigit_of_mem_toString dash) (by decide)
  intro first second same
  cases first with
  | none =>
      cases second with
      | none => rfl
      | some value => exact absurd same.symm (apart value)
  | some value =>
      cases second with
      | none => exact absurd same (apart value)
      | some other => rw [UInt64.toNat_inj.mp (toString_injective same)]

theorem blank_notMem_toString (n : Nat) : ' ' ∉ (toString n).toList := fun member =>
  absurd (isDigit_of_mem_toString member) (by decide)

/-- **Lines are the same** exactly if their rows are alike. -/
theorem Row.line_eq_iff (first second : Row) : first.line = second.line ↔ first.Alike second := by
  have shape (row : Row) : row.line =
      (row.numbered.1 ++ alignRight ' ' RECORDS_W row.numbered.2) ++
        (row.2.sums.map cell).flatMap fun text => ' ' :: alignRight ' ' COUNTER_W text :=
    (List.append_assoc _ _ _).symm
  have blanks (row : Row) : ∀ text ∈ row.2.sums.map cell, ' ' ∉ text := by
    refine List.forall_mem_map.mpr fun value _ member => ?_
    exact absurd (isCell_of_mem_cell member) (by decide)
  have numbers (row : Row) : ' ' ∉ row.numbered.2 := blank_notMem_toString _
  rw [shape, shape]
  constructor
  · intro same
    have lengths : (first.2.sums.map cell).length = (second.2.sums.map cell).length := rfl
    obtain ⟨starts, texts⟩ := append_cells_inj ' ' lengths (blanks first) (blanks second) same
    exact ⟨List.map_injective_iff.mpr cell_injective texts,
      (append_alignRight_eq_iff ' ' (numbers first) (numbers second)).mp starts⟩
  · rintro ⟨sums, starts⟩
    rw [sums, (append_alignRight_eq_iff ' ' (numbers first) (numbers second)).mpr starts]

/-- The lines that are not about a group start with characters of their own. -/
theorem nodup_fixedLines {F : Type} (floats : Floats F) (coverage : Coverage) :
    (fixedLines floats coverage).Nodup := by
  have starts : (fixedLines floats coverage).map List.head? =
      [some 'm', none, some 'e', some '-', some 'c'] := rfl
  have distinct : [some 'm', none, some 'e', some '-', some 'c'].Nodup := by decide
  rw [← starts] at distinct
  exact distinct.of_map _

/-- No two lines of a report are the same exactly if no two lines of groups are. -/
theorem nodup_reportLines_iff {F : Type} (floats : Floats F) (reading : Reading) :
    (reportLines floats reading).Nodup ↔
      (reading.groups.toList.map groupRow).Nodup ∧
        (reading.effortGroups.toList.map effortRow).Nodup ∧
          ∀ first ∈ reading.groups.toList, ∀ second ∈ reading.effortGroups.toList,
            groupRow first ≠ effortRow second := by
  have rows : (reportLines floats reading).Perm (fixedLines floats reading.coverage ++
      (reading.groups.toList.map groupRow ++ reading.effortGroups.toList.map effortRow)) := by
    refine List.perm_iff_count.mpr fun line => ?_
    simp only [reportLines, fixedLines, List.count_append, List.count_cons, List.count_nil]
    ac_rfl
  have apart : (fixedLines floats reading.coverage).Disjoint
      (reading.groups.toList.map groupRow ++ reading.effortGroups.toList.map effortRow) := by
    intro line fixed row
    rcases List.mem_append.mp row with row | row <;>
      obtain ⟨entry, -, rfl⟩ := List.mem_map.mp row <;>
      exact notMem_fixedLines floats _ _ _ fixed
  rw [rows.nodup_iff, List.nodup_append', List.nodup_append', and_iff_right (nodup_fixedLines _ _),
    and_iff_left apart]
  refine and_congr_right fun _ => and_congr_right fun _ => ?_
  constructor
  · intro disjoint first member second member' same
    exact disjoint (List.mem_map_of_mem member) (same ▸ List.mem_map_of_mem member')
  · intro distinct line row row'
    obtain ⟨first, member, rfl⟩ := List.mem_map.mp row
    obtain ⟨second, member', same⟩ := List.mem_map.mp row'
    exact distinct first member second member' same.symm

/-- What the group of a record is printed as. -/
def AuditRecord.groupRow (record : AuditRecord) (records : List AuditRecord) : Row :=
  (record.groupKey.label, totalsOf AuditRecord.groupKey records record.groupKey)

/-- What the effort of a record is printed as. -/
def AuditRecord.effortRow (record : AuditRecord) (records : List AuditRecord) : Row :=
  (EffortKey.label record.reasoningEffort,
    totalsOf AuditRecord.reasoningEffort records record.reasoningEffort)

/-- No two lines of a report are the same exactly if no two groups, of one table or of
both, are printed as the same line. -/
theorem nodup_reportLines_readUsageFile {F : Type} (floats : Floats F) (file : Bytes) :
    (reportLines floats (readUsageFile file)).Nodup ↔
      (∀ first ∈ counted file, first.usage.isSome = true →
        ∀ second ∈ counted file, second.usage.isSome = true → first.groupKey ≠ second.groupKey →
          ¬ (first.groupRow (counted file)).Alike (second.groupRow (counted file))) ∧
      (∀ first ∈ counted file, first.usage.isSome = true →
        ∀ second ∈ counted file, second.usage.isSome = true →
          first.reasoningEffort ≠ second.reasoningEffort →
            ¬ (first.effortRow (counted file)).Alike (second.effortRow (counted file))) ∧
      ∀ first ∈ counted file, first.usage.isSome = true →
        ∀ second ∈ counted file, second.usage.isSome = true →
          ¬ (first.groupRow (counted file)).Alike (second.effortRow (counted file)) := by
  rw [nodup_reportLines_iff, Tally.nodup_map_toList_iff, Tally.nodup_map_toList_iff,
    groups_readUsageFile, effortGroups_readUsageFile]
  simp only [← Row.line_eq_iff]
  have groups := forall_toList_rowsBy_pair GroupKey.cmp GroupKey.cmp AuditRecord.groupKey
    AuditRecord.groupKey (counted file) fun first totals second totals' =>
      first ≠ second → Row.line (first.label, totals) ≠ Row.line (second.label, totals')
  have efforts := forall_toList_rowsBy_pair compare compare AuditRecord.reasoningEffort
    AuditRecord.reasoningEffort (counted file) fun first totals second totals' =>
      first ≠ second →
        Row.line (EffortKey.label first, totals) ≠ Row.line (EffortKey.label second, totals')
  have tables := forall_toList_rowsBy_pair GroupKey.cmp compare AuditRecord.groupKey
    AuditRecord.reasoningEffort (counted file) fun first totals second totals' =>
      Row.line (first.label, totals) ≠ Row.line (EffortKey.label second, totals')
  exact and_congr groups (and_congr efforts tables)

/-- A report that is what it claims to be: its lines are the header, one for each
group in the order of the keys, a blank one, and so on, no two of them are the same,
and groups of one table are told apart by their labels. -/
structure Reports {F : Type} (floats : Floats F) (reading : Reading) (output : List Char) :
    Prop where
  lines : output.splitOn '\n' =
    header :: reading.groups.toList.map groupRow ++
      [] :: effortHeader :: reading.effortGroups.toList.map effortRow ++
      [footnote, coverageLine floats reading.coverage] ++ [[]]
  number : output.count '\n' = 5 + reading.groups.size + reading.effortGroups.size
  ordered : (reading.groups.toList.Pairwise fun first second =>
      GroupKey.cmp first.1 second.1 = .lt) ∧
    reading.effortGroups.toList.Pairwise fun first second => compare first.1 second.1 = .lt
  distinct : (output.splitOn '\n').dropLast.Nodup
  told : Told reading

/-- Records of which the groups can be told apart by their labels and are not printed
as the same line, in one table or in both. -/
structure AuditRecord.Apart (records : List AuditRecord) (first second : AuditRecord) : Prop where
  groups : first.groupKey ≠ second.groupKey → ¬ first.groupKey.Alike second.groupKey ∧
    ¬ (first.groupRow records).Alike (second.groupRow records)
  efforts : first.reasoningEffort ≠ second.reasoningEffort →
    ¬ EffortKey.Alike first.reasoningEffort second.reasoningEffort ∧
      ¬ (first.effortRow records).Alike (second.effortRow records)
  tables : ¬ (first.groupRow records).Alike (second.effortRow records)

/-- **A report has a line for each group, of its own, and no others** if and only if no
label of a record with usage contains a newline and no two records with usage have
groups that are printed alike. -/
theorem reports_printSummary_iff {F : Type} (floats : Floats F) (file : Bytes) :
    Reports floats (readUsageFile file) (printSummary floats file) ↔
      (∀ record ∈ counted file, record.usage.isSome = true → record.SingleLine) ∧
        ∀ first ∈ counted file, first.usage.isSome = true →
          ∀ second ∈ counted file, second.usage.isSome = true →
            first.Apart (counted file) second := by
  rw [← lines_printSummary_iff floats]
  constructor
  · intro reports
    have lines : (printSummary floats file).splitOn '\n' =
        reportLines floats (readUsageFile file) ++ [[]] := reports.lines
    have distinct := reports.distinct
    rw [lines, List.dropLast_concat, nodup_reportLines_readUsageFile] at distinct
    obtain ⟨groups, efforts, tables⟩ := distinct
    obtain ⟨labels, declared⟩ := (told_readUsageFile file).mp reports.told
    refine ⟨lines, fun first member used second member' used' => ⟨fun other => ?_, fun other => ?_,
      tables first member used second member' used'⟩⟩
    · exact ⟨labels first member used second member' used' other,
        groups first member used second member' used' other⟩
    · exact ⟨declared first member used second member' used' other,
        efforts first member used second member' used' other⟩
  · rintro ⟨lines, apart⟩
    exact {
      lines := lines
      number := by
        have pieces := congrArg List.length lines
        rw [length_splitOn, List.length_append, length_reportLines, List.length_singleton]
          at pieces
        exact Nat.succ.inj pieces
      ordered := ⟨Std.ExtTreeMap.ordered_keys_toList, Std.ExtTreeMap.ordered_keys_toList⟩
      distinct := by
        rw [lines, List.dropLast_concat, nodup_reportLines_readUsageFile]
        refine ⟨?_, ?_, ?_⟩ <;> intro first member used second member' used'
        · exact fun other => ((apart first member used second member' used').groups other).2
        · exact fun other => ((apart first member used second member' used').efforts other).2
        · exact (apart first member used second member' used').tables
      told := by
        rw [told_readUsageFile]
        refine ⟨?_, ?_⟩ <;> intro first member used second member' used' other
        · exact ((apart first member used second member' used').groups other).1
        · exact ((apart first member used second member' used').efforts other).1 }

/-- A metered request whose effort goes on with a line of its own. -/
def forged : Submission where
  record :=
    { AuditRecord.new ⟨"0", "2026-01-01T00:00:00Z"⟩ "laptop" .response with
      reasoningEffort := some "high\ncoverage: accepted=9 metered=9 unmetered=0 (100.0%)"
      usage := some ⟨some 1, none, none, none, some 1, none, some 2⟩ }
  canonical := ⟨rfl, rfl⟩

/-- An effort that a caller declares can add a line to the report. -/
theorem not_reports_forged :
    ¬ ∀ file, Reports tenths (readUsageFile file) (printSummary tenths file) := by
  intro reports
  have lines := (reports (written [forged])).lines
  have single := (lines_printSummary_iff tenths (written [forged])).mp lines
  rw [counted_written] at single
  refine (single forged.record (List.mem_singleton_self _) rfl).2.2 _ rfl ?_
  decide +kernel

end Debitmetre
