import Debitmetre.Foundation.Columns
import Debitmetre.Summary.Recovery

/-!
# The printed summary

Both tables are printed with one line for each group, its label in columns of
characters and its counters aligned on the right.  Labels are printed as they were
recorded, so one that contains a newline makes lines of its own.
-/

namespace Debitmetre

open Wire Wire.Ascii Columns

/-- What arithmetic on percentages is left to. -/
structure Floats (F : Type) where
  ofU64 : Nat → F
  mul : F → F → F
  div : F → F → F
  /-- The format `{:.1}`. -/
  oneDecimal : F → List Char
  single : ∀ x, '\n' ∉ oneDecimal x

/-- Accepted lifecycles without a usage. -/
def Coverage.unmetered (coverage : Coverage) : Nat := coverage.accepted - coverage.metered

/-- Coverage as a percentage of accepted lifecycles. -/
def Coverage.percentage {F : Type} (floats : Floats F) (coverage : Coverage) : Option F :=
  if coverage.accepted = 0 then none
  else
    some (floats.div (floats.mul (floats.ofU64 coverage.metered) (floats.ofU64 100))
      (floats.ofU64 coverage.accepted))

def MACHINE_W : Nat := 14
def MODEL_W : Nat := 16
def RECORDS_W : Nat := 8
def COUNTER_W : Nat := 12

/-- A counter, or a dash if it was never recorded. -/
def cell : Option UInt64 → List Char
  | some value => (toString value.toNat).toList
  | none => "-".toList

/-- The columns after the labels. -/
def columns (records : List Char) (cells : List (List Char)) : List Char :=
  alignRight ' ' RECORDS_W records ++ cells.flatMap fun cell => ' ' :: alignRight ' ' COUNTER_W cell

/-- The headings of the counters. -/
def headings : List Char :=
  columns "records".toList
    ["input".toList, "uncached".toList, "cache_read".toList, "cache_write".toList,
      "output".toList, "reasoning".toList, "total".toList]

/-- The counters of a group. -/
def GroupTotals.columns (totals : GroupTotals) : List Char :=
  Debitmetre.columns (toString totals.records).toList
    [cell totals.inputTotal, cell totals.uncached, cell totals.cacheRead, cell totals.cacheWrite,
      cell totals.outputTotal, cell totals.reasoning, cell totals.total]

/-- The text of a machine and a model, a dash if there is no model. -/
def GroupKey.texts (key : GroupKey) : List Char × List Char :=
  (key.1.toList, (key.2.getD "-").toList)

/-- What a machine and a model are printed as. -/
def GroupKey.label (key : GroupKey) : List Char := alignPair ' ' MACHINE_W MODEL_W key.texts

/-- The text of an effort, a dash if none was declared. -/
def EffortKey.text (effort : EffortKey) : List Char := (effort.getD "-").toList

/-- What an effort is printed as. -/
def EffortKey.label (effort : EffortKey) : List Char := alignLeft ' ' MACHINE_W effort.text

def header : List Char :=
  alignPair ' ' MACHINE_W MODEL_W ("machine".toList, "model".toList) ++ headings

/-- The line of a machine and a model. -/
def groupRow (entry : GroupKey × GroupTotals) : List Char := entry.1.label ++ entry.2.columns

def effortHeader : List Char := alignLeft ' ' MACHINE_W "effort".toList ++ headings

/-- The line of an effort. -/
def effortRow (entry : EffortKey × GroupTotals) : List Char :=
  EffortKey.label entry.1 ++ entry.2.columns

def footnote : List Char :=
  "- = not recorded in any record; totals sum only recorded values".toList

/-- A percentage in parentheses. -/
def percentageText {F : Type} (floats : Floats F) : Option F → List Char
  | some pct => "(".toList ++ floats.oneDecimal pct ++ "%)".toList
  | none => "(no accepted lifecycles)".toList

/-- The last line of the report. -/
def coverageLine {F : Type} (floats : Floats F) (coverage : Coverage) : List Char :=
  "coverage: accepted=".toList ++ (toString coverage.accepted).toList ++ " metered=".toList ++
    (toString coverage.metered).toList ++ " unmetered=".toList ++
    (toString coverage.unmetered).toList ++ " ".toList ++
    percentageText floats (coverage.percentage floats)

/-- `writeln!`. -/
def writeln (out line : List Char) : List Char := out ++ line ++ ['\n']

/-- Both tables, the footnote and the coverage. -/
def render {F : Type} (floats : Floats F) (groups : Groups) (effortGroups : EffortGroups)
    (coverage : Coverage) : List Char :=
  let out := writeln [] header
  let out := groups.foldl (fun out key totals => writeln out (groupRow (key, totals))) out
  let out := writeln out []
  let out := writeln out effortHeader
  let out := effortGroups.foldl (fun out key totals => writeln out (effortRow (key, totals))) out
  let out := writeln out footnote
  writeln out (coverageLine floats coverage)

/-- `print_summary`, up to its warnings. -/
def printSummary {F : Type} (floats : Floats F) (file : Bytes) : List Char :=
  let reading := readUsageFile file
  render floats reading.groups reading.effortGroups reading.coverage

/-- The lines of a report that are not about one group. -/
def fixedLines {F : Type} (floats : Floats F) (coverage : Coverage) : List (List Char) :=
  [header, [], effortHeader, footnote, coverageLine floats coverage]

/-- What is printed, line by line. -/
def reportLines {F : Type} (floats : Floats F) (reading : Reading) : List (List Char) :=
  header :: reading.groups.toList.map groupRow ++
    [] :: effortHeader :: reading.effortGroups.toList.map effortRow ++
    [footnote, coverageLine floats reading.coverage]

/-- A table is written row by row. -/
theorem foldl_writeln {κ : Type} {cmp : κ → κ → Ordering} [Std.TransCmp cmp]
    (row : κ × GroupTotals → List Char) (groups : Std.ExtTreeMap κ GroupTotals cmp)
    (out : List Char) :
    groups.foldl (fun out key totals => writeln out (row (key, totals))) out =
      out ++ ended '\n' (groups.toList.map row) := by
  rw [Std.ExtTreeMap.foldl_eq_foldl_toList]
  induction groups.toList generalizing out with
  | nil => exact (List.append_nil out).symm
  | cons entry entries ih =>
      rw [List.foldl_cons, ih, List.map_cons, ended, ended, List.flatMap_cons, writeln]
      simp only [List.append_assoc]

/-- Each line is written with a newline after it. -/
theorem printSummary_eq {F : Type} (floats : Floats F) (file : Bytes) :
    printSummary floats file = ended '\n' (reportLines floats (readUsageFile file)) := by
  rw [printSummary, render, foldl_writeln groupRow, foldl_writeln effortRow]
  simp only [writeln, reportLines, ended, List.flatMap_append, List.flatMap_cons,
    List.flatMap_nil, List.append_assoc, List.nil_append, List.append_nil, List.cons_append]

/-- A report has five lines and one for each group. -/
theorem length_reportLines {F : Type} (floats : Floats F) (reading : Reading) :
    (reportLines floats reading).length = 5 + reading.groups.size + reading.effortGroups.size := by
  simp only [reportLines, List.length_append, List.length_cons, List.length_map,
    Std.ExtTreeMap.length_toList, List.length_nil]
  omega

theorem toList_toString (n : Nat) : (toString n).toList = Nat.toDigits 10 n := by
  rw [Nat.toString_eq_ofList_toDigits, String.toList_ofList]

/-- Numbers are printed with digits only. -/
theorem isDigit_of_mem_toString {n : Nat} {c : Char} (member : c ∈ (toString n).toList) :
    c.isDigit = true := by
  rw [toList_toString] at member
  exact Nat.isDigit_of_mem_toDigits (by decide) (by decide) member

/-- What a counter is printed with. -/
def isCell (c : Char) : Bool := c.isDigit || c == '-'

/-- Counters are printed with digits, or as a dash. -/
theorem isCell_of_mem_cell {value : Option UInt64} {c : Char} (member : c ∈ cell value) :
    isCell c = true := by
  cases value with
  | none =>
      rw [List.mem_singleton.mp member]
      rfl
  | some value => rw [isCell, isDigit_of_mem_toString member, Bool.true_or]

theorem cell_ne_nil (value : Option UInt64) : cell value ≠ [] := by
  cases value with
  | none => exact List.cons_ne_nil _ _
  | some value =>
      rw [cell, toList_toString]
      exact Nat.toDigits_ne_nil

/-- The counters of a group are printed without newlines. -/
theorem newline_notMem_columns (totals : GroupTotals) : '\n' ∉ totals.columns := by
  have apart : ∀ value, '\n' ∉ cell value := fun value member =>
    absurd (isCell_of_mem_cell member) (by decide)
  have records : '\n' ∉ (toString totals.records).toList := fun member =>
    absurd (isDigit_of_mem_toString member) (by decide)
  have other : '\n' ≠ ' ' := by decide
  simp only [GroupTotals.columns, columns, List.flatMap_cons, List.flatMap_nil, List.mem_append,
    List.mem_cons, mem_alignRight ' ' _ other, other, apart, records, List.not_mem_nil, or_self,
    not_false_eq_true]

/-- A group's line ends in its last counter. -/
theorem getLast?_columns (label : List Char) (totals : GroupTotals) :
    (label ++ totals.columns).getLast? = (cell totals.total).getLast? := by
  have more : alignRight ' ' COUNTER_W (cell totals.total) ≠ [] :=
    List.append_ne_nil_of_right_ne_nil _ (cell_ne_nil _)
  have others : ∃ start, label ++ totals.columns =
      start ++ alignRight ' ' COUNTER_W (cell totals.total) := by
    refine ⟨label ++ columns (toString totals.records).toList
      [cell totals.inputTotal, cell totals.uncached, cell totals.cacheRead,
        cell totals.cacheWrite, cell totals.outputTotal, cell totals.reasoning] ++ [' '], ?_⟩
    simp only [GroupTotals.columns, columns, List.flatMap_cons, List.flatMap_nil, List.append_nil,
      List.append_assoc, List.cons_append, List.nil_append]
  obtain ⟨start, shape⟩ := others
  rw [shape, List.getLast?_append_of_ne_nil _ more, getLast?_alignRight _ _ (cell_ne_nil _)]

/-- The lines with headings end in `total`. -/
theorem getLast?_headings (label : List Char) : (label ++ headings).getLast? = some 'l' := by
  have more : headings ≠ [] := by decide
  rw [List.getLast?_append_of_ne_nil _ more]
  decide

theorem getLast?_percentageText {F : Type} (floats : Floats F) (percentage : Option F) :
    (percentageText floats percentage).getLast? = some ')' := by
  cases percentage with
  | none =>
      have ending : "(no accepted lifecycles)".toList.getLast? = some ')' := by decide +kernel
      exact ending
  | some pct =>
      have more : "%)".toList ≠ [] := by decide
      unfold percentageText
      rw [List.getLast?_append_of_ne_nil _ more]
      decide

/-- The coverage ends in a parenthesis. -/
theorem getLast?_coverageLine {F : Type} (floats : Floats F) (coverage : Coverage) :
    (coverageLine floats coverage).getLast? = some ')' := by
  have ending := getLast?_percentageText floats (coverage.percentage floats)
  have more : percentageText floats (coverage.percentage floats) ≠ [] := by
    intro none
    rw [none] at ending
    cases ending
  unfold coverageLine
  rw [List.getLast?_append_of_ne_nil _ more, ending]

/-- A group's line is not taken for another line of the report. -/
theorem notMem_fixedLines {F : Type} (floats : Floats F) (coverage : Coverage)
    (label : List Char) (totals : GroupTotals) :
    label ++ totals.columns ∉ fixedLines floats coverage := by
  obtain ⟨last, shown⟩ : ∃ last, (cell totals.total).getLast? = some last :=
    ⟨_, List.getLast?_eq_some_getLast (cell_ne_nil _)⟩
  have own : isCell last = true := isCell_of_mem_cell (List.mem_of_getLast? shown)
  have ending := (getLast?_columns label totals).trans shown
  have footnote_ending : footnote.getLast? = some 's' := by decide +kernel
  have marks : (fixedLines floats coverage).map List.getLast? =
      [some 'l', none, some 'l', some 's', some ')'] := by
    simp only [fixedLines, List.map_cons, List.map_nil, header, effortHeader, getLast?_headings,
      List.getLast?_nil, footnote_ending, getLast?_coverageLine]
  intro member
  have others := List.mem_map_of_mem (f := List.getLast?) member
  rw [ending, marks] at others
  simp only [List.mem_cons, Option.some.injEq, reduceCtorEq, List.not_mem_nil, or_false,
    false_or] at others
  rcases others with rfl | rfl | rfl | rfl <;> exact absurd own (by decide)

theorem newline_notMem_percentageText {F : Type} (floats : Floats F) (percentage : Option F) :
    '\n' ∉ percentageText floats percentage := by
  cases percentage with
  | none =>
      have single : '\n' ∉ "(no accepted lifecycles)".toList := by decide +kernel
      exact single
  | some pct =>
      have texts : '\n' ∉ "(".toList ∧ '\n' ∉ "%)".toList := by decide
      unfold percentageText
      simp only [List.mem_append, texts, floats.single, or_self, not_false_eq_true]

/-- No fixed line contains a newline. -/
theorem newline_notMem_fixedLines {F : Type} (floats : Floats F) (coverage : Coverage) :
    ∀ line ∈ fixedLines floats coverage, '\n' ∉ line := by
  have digits : ∀ n, '\n' ∉ (toString n).toList := fun n member =>
    absurd (isDigit_of_mem_toString member) (by decide)
  have texts : '\n' ∉ "coverage: accepted=".toList ∧ '\n' ∉ " metered=".toList ∧
      '\n' ∉ " unmetered=".toList ∧ '\n' ∉ " ".toList := by decide +kernel
  have summed : '\n' ∉ coverageLine floats coverage := by
    unfold coverageLine
    simp only [List.mem_append, digits, texts, newline_notMem_percentageText, or_self,
      not_false_eq_true]
  have others : '\n' ∉ header ∧ '\n' ∉ effortHeader ∧ '\n' ∉ footnote := by decide +kernel
  simp only [fixedLines, List.forall_mem_cons, others, summed, List.not_mem_nil,
    not_false_eq_true, true_and, IsEmpty.forall_iff, implies_true]

/-- A record whose labels have no newline. -/
def AuditRecord.SingleLine (record : AuditRecord) : Prop :=
  '\n' ∉ record.machineId.toList ∧ (∀ model ∈ record.model, '\n' ∉ model.toList) ∧
    ∀ effort ∈ record.reasoningEffort, '\n' ∉ effort.toList

section Keys

variable {κ : Type} {cmp : κ → κ → Ordering} [Std.TransCmp cmp] [Std.LawfulEqCmp cmp]
  [DecidableEq κ]

/-- The totals of the records of a key. -/
def totalsOf (key : AuditRecord → κ) (records : List AuditRecord) (own : κ) : GroupTotals :=
  (Tally.amounts own (rowsBy key records)).sum

variable (cmp) in
/-- The lines of a table are those of the keys of the records with usage. -/
theorem forall_toList_rowsBy (key : AuditRecord → κ) (records : List AuditRecord)
    (holds : κ → GroupTotals → Prop) :
    (∀ entry ∈ (Tally.tally (rowsBy key records) : Std.ExtTreeMap κ GroupTotals cmp).toList,
        holds entry.1 entry.2) ↔
      ∀ record ∈ records, record.usage.isSome = true →
        holds (key record) (totalsOf key records (key record)) := by
  rw [Tally.forall_mem_toList_tally_iff]
  constructor
  · intro all record member used
    obtain ⟨usage, used⟩ := Option.isSome_iff_exists.mp used
    exact all (key record, .ofUsage usage)
      (List.mem_filterMap.mpr ⟨record, member, by rw [used, Option.map_some]⟩)
  · rintro all ⟨own, totals⟩ member
    obtain ⟨record, counted, row⟩ := List.mem_filterMap.mp member
    obtain ⟨usage, used, same⟩ := Option.map_eq_some_iff.mp row
    obtain rfl := congrArg Prod.fst same
    exact all record counted (Option.isSome_of_eq_some used)

variable (cmp) in
/-- The keys of a table are those of the records with usage. -/
theorem forall_toList_tally (key : AuditRecord → κ) (records : List AuditRecord)
    (holds : κ → Prop) :
    (∀ entry ∈ (Tally.tally (rowsBy key records) : Std.ExtTreeMap κ GroupTotals cmp).toList,
        holds entry.1) ↔
      ∀ record ∈ records, record.usage.isSome = true → holds (key record) :=
  forall_toList_rowsBy cmp key records fun own _ => holds own

end Keys

theorem newline_notMem_getD_iff (text : Option String) :
    '\n' ∉ (text.getD "-").toList ↔ ∀ own ∈ text, '\n' ∉ own.toList := by
  cases text with
  | none => exact ⟨fun _ => nofun, fun _ => by decide⟩
  | some own => simp only [Option.getD_some, Option.mem_def, Option.some.injEq, forall_eq']

/-- The line of a machine and a model is one line if neither has a newline. -/
theorem newline_notMem_groupRow_iff (entry : GroupKey × GroupTotals) :
    '\n' ∉ groupRow entry ↔
      '\n' ∉ entry.1.1.toList ∧ ∀ model ∈ entry.1.2, '\n' ∉ model.toList := by
  have other : '\n' ≠ ' ' := by decide
  simp only [groupRow, GroupKey.label, GroupKey.texts, alignPair, List.mem_append,
    mem_alignLeft ' ' _ other, newline_notMem_columns, or_false, not_or, newline_notMem_getD_iff]

/-- The line of an effort is one line if the effort has no newline. -/
theorem newline_notMem_effortRow_iff (entry : EffortKey × GroupTotals) :
    '\n' ∉ effortRow entry ↔ ∀ effort ∈ entry.1, '\n' ∉ effort.toList := by
  have other : '\n' ≠ ' ' := by decide
  simp only [effortRow, EffortKey.label, EffortKey.text, List.mem_append,
    mem_alignLeft ' ' _ other, newline_notMem_columns, or_false, newline_notMem_getD_iff]

/-- The lines of a report contain no newline if and only if the lines of its groups do not. -/
theorem newline_notMem_reportLines_iff {F : Type} (floats : Floats F) (reading : Reading) :
    (∀ line ∈ reportLines floats reading, '\n' ∉ line) ↔
      (∀ entry ∈ reading.groups.toList, '\n' ∉ groupRow entry) ∧
        ∀ entry ∈ reading.effortGroups.toList, '\n' ∉ effortRow entry := by
  have fixed := newline_notMem_fixedLines floats reading.coverage
  simp only [fixedLines, List.forall_mem_cons, List.not_mem_nil, IsEmpty.forall_iff, implies_true,
    and_true] at fixed
  simp only [reportLines, List.forall_mem_append, List.forall_mem_cons, List.forall_mem_map,
    fixed, List.not_mem_nil, IsEmpty.forall_iff, implies_true, and_true, true_and,
    not_false_eq_true]

/-- The lines of a report are those that are written if and only if no label of a
record with usage contains a newline. -/
theorem lines_printSummary_iff {F : Type} (floats : Floats F) (file : Bytes) :
    (printSummary floats file).splitOn '\n' = reportLines floats (readUsageFile file) ++ [[]] ↔
      ∀ record ∈ counted file, record.usage.isSome = true → record.SingleLine := by
  have machines := forall_toList_tally GroupKey.cmp AuditRecord.groupKey (counted file)
    fun key => '\n' ∉ key.1.toList ∧ ∀ model ∈ key.2, '\n' ∉ model.toList
  have efforts := forall_toList_tally compare AuditRecord.reasoningEffort (counted file)
    fun key => ∀ effort ∈ key, '\n' ∉ effort.toList
  rw [printSummary_eq, splitOn_ended_iff, newline_notMem_reportLines_iff]
  simp only [newline_notMem_groupRow_iff, newline_notMem_effortRow_iff, groups_readUsageFile,
    effortGroups_readUsageFile]
  rw [machines, efforts]
  simp only [← forall_and, AuditRecord.SingleLine, AuditRecord.groupKey, and_assoc]

/-- Percentages in tenths. -/
def tenths : Floats Nat where
  ofU64 := id
  mul := (· * ·)
  div := fun first second => 10 * first / second
  oneDecimal := fun n => (toString (n / 10)).toList ++ '.' :: (toString (n % 10)).toList
  single := by
    intro n member
    rcases List.mem_append.mp member with member | member
    · exact absurd (isDigit_of_mem_toString member) (by decide)
    · rcases List.mem_cons.mp member with point | member
      · exact absurd point (by decide)
      · exact absurd (isDigit_of_mem_toString member) (by decide)

end Debitmetre
