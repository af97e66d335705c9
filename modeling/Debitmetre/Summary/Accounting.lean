import Debitmetre.Summary.Read
import Debitmetre.Wire.Lines

/-!
# What a usage file accounts for

The reader's loop, seen from outside: the file's lines and its tail each hold a
canonical record or none, the groups and the coverage are those records
accounted for in their order, and the warnings count what is left.
-/

namespace Debitmetre

open Wire Wire.Ascii

/-- The canonical record a line holds. -/
def recordOf (line : Bytes) : Option AuditRecord :=
  (AuditRecord.fromSlice (stripSuffix cr line)).filter fun record => record.Canonical

/-- A line that holds no record at all. -/
def malformed (line : Bytes) : Bool := (AuditRecord.fromSlice (stripSuffix cr line)).isNone

/-- The canonical records of a file, in their order. -/
def counted (file : Bytes) : List AuditRecord := (file.splitOn lf).filterMap recordOf

/-- A newline separates what is counted before it from what is counted after it. -/
theorem counted_append_lf (first second : Bytes) :
    counted (first ++ lf :: second) = counted first ++ counted second := by
  rw [counted, splitOn_append_lf, List.filterMap_append]
  rfl

/-- A single line holds one record at most. -/
theorem counted_of_notMem {text : Bytes} (single : lf ∉ text) :
    counted text = (recordOf text).toList := by
  rw [counted, List.splitOn_eq_singleton single, List.filterMap_cons]
  cases recordOf text <;> rfl

/-- An empty line holds no record. -/
theorem recordOf_nil : recordOf [] = none := rfl

/-- What is counted of a file is that of its lines and of what comes after the last. -/
theorem counted_eq (file : Bytes) :
    counted file = (lines file).filterMap recordOf ++ (recordOf (tail file)).toList := by
  rw [counted, splitOn_lf, List.filterMap_append, List.filterMap_cons]
  cases recordOf (tail file) <;> rfl

/-- The records of a file whose lines all end in a newline are those of its
lines. -/
theorem counted_of_terminated {file : Bytes} (terminated : Terminated file) :
    counted file = (lines file).filterMap recordOf := by
  rw [counted_eq, tail_eq_nil_iff.mpr terminated, recordOf_nil, Option.toList_none,
    List.append_nil]

/-- What is counted after whole lines is counted as well. -/
theorem counted_append {first : Bytes} (terminated : Terminated first) (second : Bytes) :
    counted (first ++ second) = counted first ++ counted second := by
  rw [counted_eq, terminated.lines_append, tail_append, tail_eq_nil_iff.mpr terminated,
    List.nil_append, List.filterMap_append, counted_of_terminated terminated, counted_eq second,
    List.append_assoc]

/-- Records accounted for in their order. -/
def Reading.accounted (records : List AuditRecord) : Reading :=
  records.foldl Reading.account .start

/-- A reading with other warnings. -/
def Reading.warned (reading : Reading) (warnings : ReadWarnings) : Reading :=
  { reading with warnings := warnings }

/-- The warnings of a reading with other warnings. -/
@[simp] theorem Reading.warnings_warned (reading : Reading) (warnings : ReadWarnings) :
    (reading.warned warnings).warnings = warnings := rfl

@[simp] theorem Reading.warned_warned (reading : Reading) (first second : ReadWarnings) :
    (reading.warned first).warned second = reading.warned second := rfl

@[simp] theorem Reading.account_warnings (reading : Reading) (record : AuditRecord) :
    (reading.account record).warnings = reading.warnings := by
  unfold Reading.account
  split <;> rfl

/-- Accounting for a record does not depend on the warnings. -/
theorem Reading.account_warned (reading : Reading) (warnings : ReadWarnings)
    (record : AuditRecord) :
    (reading.warned warnings).account record = (reading.account record).warned warnings := by
  unfold Reading.account
  split <;> rfl

/-- Nor does accounting for several. -/
theorem Reading.foldl_account_warned (records : List AuditRecord) (reading : Reading)
    (warnings : ReadWarnings) :
    records.foldl Reading.account (reading.warned warnings) =
      (records.foldl Reading.account reading).warned warnings := by
  induction records generalizing reading with
  | nil => rfl
  | cons record records ih => rw [List.foldl_cons, List.foldl_cons, account_warned, ih]

/-- A line that cannot be read is malformed. -/
theorem malformed_of_none {line : Bytes}
    (read : AuditRecord.fromSlice (stripSuffix cr line) = none) : malformed line = true := by
  rw [malformed, read]
  rfl

/-- A line that can be read is not. -/
theorem malformed_of_some {line : Bytes} {record : AuditRecord}
    (read : AuditRecord.fromSlice (stripSuffix cr line) = some record) :
    malformed line = false := by
  rw [malformed, read]
  rfl

/-- A malformed line holds no record. -/
theorem recordOf_of_malformed {line : Bytes} (broken : malformed line = true) :
    recordOf line = none := by
  rw [recordOf, Option.isNone_iff_eq_none.mp broken]
  rfl

/-- A line that can be read accounts for its record if that is canonical. -/
theorem recordOf_of_some {line : Bytes} {record : AuditRecord}
    (read : AuditRecord.fromSlice (stripSuffix cr line) = some record) (reading : Reading) :
    (recordOf line).toList.foldl Reading.account reading =
      if record.Canonical then reading.account record else reading := by
  rw [recordOf, read, Option.filter_some]
  by_cases canonical : record.Canonical
  · simp only [canonical, decide_true, ↓reduceIte, Option.toList_some, List.foldl_cons,
      List.foldl_nil]
  · simp only [canonical, decide_false, Bool.false_eq_true, ↓reduceIte, Option.toList_none,
      List.foldl_nil]

/-- A line that cannot be read accounts for nothing. -/
theorem recordOf_of_none {line : Bytes}
    (read : AuditRecord.fromSlice (stripSuffix cr line) = none) (reading : Reading) :
    (recordOf line).toList.foldl Reading.account reading = reading := by
  rw [recordOf, read]
  rfl

/-- A line with its newline accounts for its canonical record, and is warned
about if it holds no record. -/
theorem Reading.line_lf (reading : Reading) (line : Bytes) :
    reading.line (line ++ [lf]) =
      ((recordOf line).toList.foldl Reading.account reading).warned
        ⟨reading.warnings.partialTail,
          reading.warnings.unparseable + if malformed line then 1 else 0⟩ := by
  simp only [Reading.line, List.getLast?_concat, ↓reduceIte, List.dropLast_concat]
  cases read : AuditRecord.fromSlice (stripSuffix cr line) with
  | none =>
      simp only [recordOf_of_none read, malformed_of_none read, ↓reduceIte]
      rfl
  | some record =>
      simp only [recordOf_of_some read, malformed_of_some read, Bool.false_eq_true, ↓reduceIte,
        Nat.add_zero]
      by_cases canonical : record.Canonical
      · simp only [canonical, ↓reduceIte]
        rw [← reading.account_warnings record]
        rfl
      · simp only [canonical, ↓reduceIte]
        rfl

/-- A last line without a newline accounts for its canonical record too, and is
warned about if it is neither a record nor blank. -/
theorem Reading.line_tail (reading : Reading) {text : Bytes} (single : lf ∉ text) :
    reading.line text =
      ((recordOf text).toList.foldl Reading.account reading).warned
        ⟨reading.warnings.partialTail ||
            (malformed text && !(stripSuffix cr text).all isAsciiWhitespace),
          reading.warnings.unparseable⟩ := by
  have ending : text.getLast? ≠ some lf := fun last => single (List.mem_of_getLast? last)
  simp only [Reading.line, ending, ↓reduceIte]
  cases read : AuditRecord.fromSlice (stripSuffix cr text) with
  | none =>
      rw [recordOf_of_none read, malformed_of_none read]
      cases blank : (stripSuffix cr text).all isAsciiWhitespace with
      | true =>
          simp only [Bool.true_eq_false, ↓reduceIte, Bool.not_true, Bool.and_false, Bool.or_false]
          rfl
      | false =>
          simp only [↓reduceIte, Bool.not_false, Bool.and_self, Bool.or_true]
          rfl
  | some record =>
      rw [recordOf_of_some read, malformed_of_some read, Bool.false_and, Bool.or_false]
      by_cases canonical : record.Canonical
      · simp only [canonical, ↓reduceIte]
        rw [← reading.account_warnings record]
        rfl
      · simp only [canonical, ↓reduceIte]
        rfl

/-- Reading stops after a newline. -/
theorem readUntil_line {piece : Bytes} (single : lf ∉ piece) (rest : Bytes) :
    readUntil lf (piece ++ lf :: rest) = (piece ++ [lf], rest) := by
  induction piece with
  | nil => rfl
  | cons b piece ih =>
      rw [List.mem_cons, not_or] at single
      simp only [List.cons_append, readUntil, ih single.2, Ne.symm single.1, ↓reduceIte]

/-- Without a newline everything is read. -/
theorem readUntil_tail {text : Bytes} (single : lf ∉ text) : readUntil lf text = (text, []) := by
  induction text with
  | nil => rfl
  | cons b text ih =>
      rw [List.mem_cons, not_or] at single
      simp only [readUntil, ih single.2, Ne.symm single.1, ↓reduceIte]

/-- The loop reads a line and goes on with the rest. -/
theorem Reading.loop_line (reading : Reading) {piece : Bytes} (single : lf ∉ piece)
    (rest : Bytes) :
    reading.loop (piece ++ lf :: rest) = (reading.line (piece ++ [lf])).loop rest := by
  rw [Reading.loop, readUntil_line single]
  simp only [List.append_eq_nil_iff, List.cons_ne_self, and_false, ↓reduceIte,
    List.getLast?_concat]

/-- The loop ends with what has no newline. -/
theorem Reading.loop_tail (reading : Reading) {text : Bytes} (single : lf ∉ text) :
    reading.loop text = reading.line text := by
  rw [Reading.loop, readUntil_tail single]
  by_cases empty : text = []
  · subst empty
    rfl
  · have unterminated : text.getLast? ≠ some lf := fun last => single (List.mem_of_getLast? last)
    simp only [empty, unterminated, ↓reduceIte]

/-- The warnings a file gives rise to. -/
def warningsOf (file : Bytes) : ReadWarnings where
  partialTail := malformed (tail file) && !(stripSuffix cr (tail file)).all isAsciiWhitespace
  unparseable := (lines file).countP malformed

/-- The loop accounts for the records of the remaining file and adds its
warnings. -/
theorem Reading.loop_eq (file : Bytes) : ∀ reading : Reading,
    reading.loop file =
      ((counted file).foldl Reading.account reading).warned
        ⟨reading.warnings.partialTail || (warningsOf file).partialTail,
          reading.warnings.unparseable + (warningsOf file).unparseable⟩ := by
  induction file using lines_induction with
  | last text single =>
      intro reading
      rw [reading.loop_tail single, reading.line_tail single, counted_of_notMem single,
        warningsOf, tail_of_notMem single, lines_of_notMem single, List.countP_nil, Nat.add_zero]
  | line piece rest single ih =>
      intro reading
      rw [reading.loop_line single, reading.line_lf, ih, foldl_account_warned, warned_warned]
      simp only [warningsOf, lines_cons single, tail_append_lf, List.countP_cons,
        counted_append_lf, counted_of_notMem single, List.foldl_append, warnings_warned,
        Nat.add_assoc, Nat.add_comm (List.countP malformed (lines rest))]

/-- **What the reader returns**: the canonical records of the file, accounted
for in their order, and the warnings its other lines give rise to. -/
theorem readUsageFile_eq (file : Bytes) :
    readUsageFile file = (Reading.accounted (counted file)).warned (warningsOf file) := by
  rw [readUsageFile, Reading.loop_eq, Reading.accounted]
  simp only [Reading.start, Bool.false_or, Nat.zero_add]

end Debitmetre
