import Debitmetre.Summary.Conservation
import Debitmetre.Usage.Writer

/-!
# Reading after a crash

What the summary makes of a usage file whose writes may have been torn.  A file
that is cut off anywhere is read as the records whose text is still whole.  A
file that was written to after a torn write is another matter: the next line is
glued to the torn piece and its record is lost.
-/

namespace Debitmetre

open Wire Wire.Json Wire.Ascii

/-- A suffix that is not there is not stripped. -/
theorem stripSuffix_of_getLast? {suffix : UInt8} {text : Bytes}
    (other : text.getLast? ≠ some suffix) : stripSuffix suffix text = text := if_neg other

theorem stripSuffix_of_visible {text : Bytes} (visible : Visible text) :
    stripSuffix cr text = text :=
  stripSuffix_of_getLast? fun last => absurd (visible cr (List.mem_of_getLast? last)) (by decide)

/-- A line that was written is read as its record. -/
theorem recordOf_toVec (entry : Submission) :
    recordOf entry.record.toVec = some entry.record := by
  rw [recordOf, stripSuffix_of_visible entry.record.visible_toVec, AuditRecord.fromSlice_toVec,
    Option.filter_some, if_pos (decide_eq_true entry.canonical)]

/-- A line that was written is not malformed. -/
theorem malformed_toVec (record : AuditRecord) : malformed record.toVec = false := by
  rw [malformed, stripSuffix_of_visible record.visible_toVec, AuditRecord.fromSlice_toVec]
  rfl

/-- A piece of a line has no control characters. -/
theorem visible_piece {record : AuditRecord} {piece rest : Bytes}
    (split : piece ++ rest = record.toVec) : Visible piece := fun b member =>
  record.visible_toVec b (split ▸ List.mem_append_left rest member)

/-- A piece of a line has no newline. -/
theorem lf_notMem_piece {record : AuditRecord} {piece rest : Bytes}
    (split : piece ++ rest = record.toVec) : lf ∉ piece := fun member =>
  record.lf_notMem_toVec (split ▸ List.mem_append_left rest member)

/-- A piece of a line that was cut short is malformed. -/
theorem malformed_piece {record : AuditRecord} {piece rest : Bytes}
    (split : piece ++ rest = record.toVec) (more : rest ≠ []) : malformed piece = true := by
  rw [malformed, stripSuffix_of_visible (visible_piece split),
    AuditRecord.fromSlice_piece split more]
  rfl

/-- A piece of a record's text is blank only if it is empty. -/
theorem blank_piece {record : AuditRecord} {piece rest : Bytes}
    (split : piece ++ rest = record.toVec) :
    (stripSuffix cr piece).all isAsciiWhitespace = true ↔ piece = [] := by
  rw [stripSuffix_of_visible (visible_piece split)]
  cases piece with
  | nil => simp only [List.all_nil]
  | cons b piece =>
      obtain ⟨body, shape⟩ := record.toVec_shape
      rw [shape, List.cons_append] at split
      injection split with brace _
      subst brace
      simp only [reduceCtorEq, iff_false, List.all_cons, Bool.and_eq_true, not_and]
      exact fun blank => absurd blank (by decide)

/-- The lines of some records, one after the other. -/
def written (entries : List Submission) : Bytes := entries.flatMap (·.record.line)

/-- A whole line is counted first. -/
theorem counted_line (entry : Submission) (file : Bytes) :
    counted (entry.record.line ++ file) = entry.record :: counted file := by
  rw [AuditRecord.line, List.append_assoc, List.singleton_append, counted_append_lf,
    counted_of_notMem entry.record.lf_notMem_toVec, recordOf_toVec]
  rfl

/-- The records of a file that was written without a crash. -/
theorem counted_written (entries : List Submission) :
    counted (written entries) = entries.map Submission.record := by
  induction entries with
  | nil => rfl
  | cons entry entries ih =>
      rw [written, List.flatMap_cons, ← written, counted_line, ih, List.map_cons]

/-- Where the JSON text of each record ends in a file whose first line starts at
an offset. -/
def textEnds (offset : Nat) : List Submission → List Nat
  | [] => []
  | entry :: rest =>
      (offset + entry.record.toVec.length) :: textEnds (offset + entry.record.line.length) rest

/-- Texts end after they start. -/
theorem le_of_mem_textEnds {entries : List Submission} {offset position : Nat}
    (member : position ∈ textEnds offset entries) : offset ≤ position := by
  induction entries generalizing offset with
  | nil => cases member
  | cons entry rest ih =>
      rcases List.mem_cons.mp member with rfl | member
      · exact Nat.le_add_right ..
      · exact Nat.le_trans (Nat.le_add_right ..) (ih member)

/-- Before the first text no text has ended. -/
theorem countP_textEnds_of_lt {entries : List Submission} {offset n : Nat} (before : n < offset) :
    (textEnds offset entries).countP (· ≤ n) = 0 := by
  rw [List.countP_eq_zero]
  intro position member
  have after := le_of_mem_textEnds member
  simp only [decide_eq_true_eq]
  omega

/-- Complete writes give the lines one after the other. -/
theorem writeLoop_complete (entries : List Submission) :
    writeLoop (AuditWriter.start none) (entries.map Write.complete) = written entries := by
  rw [writeLoop_eq, AuditWriter.start, Option.getD_none, List.nil_append, written,
    List.flatMap_map]
  rfl

/-- A file that starts with the lines of some records is read as the first of
them, and what is left of it is a piece of another. -/
structure ReadsBack (entries : List Submission) (k : Nat) (file : Bytes) : Prop where
  counted_eq : counted file = (entries.take k).map Submission.record
  sound : ∀ line ∈ lines file, malformed line = false
  warned : (warningsOf file).partialTail = true ↔
    file.drop (written (entries.take k)).length ≠ []
  piece : file.drop (written (entries.take k)).length ≠ [] → ∃ entry ∈ entries,
    file.drop (written (entries.take k)).length <+: entry.record.toVec ∧
      file.drop (written (entries.take k)).length ≠ entry.record.toVec

namespace ReadsBack

theorem nil : ReadsBack [] 0 [] where
  counted_eq := rfl
  sound := fun line member => by cases member
  warned := ⟨fun warned => (Bool.false_ne_true warned).elim, fun more => (more rfl).elim⟩
  piece := fun more => (more rfl).elim

/-- A cut inside a record's text. -/
theorem ofPiece {entry : Submission} {piece rest : Bytes} (entries : List Submission)
    (split : piece ++ rest = entry.record.toVec) (more : rest ≠ []) :
    ReadsBack (entry :: entries) 0 piece := by
  have single := lf_notMem_piece split
  have broken := malformed_piece split more
  refine ⟨?_, ?_, ?_, fun _ => ⟨entry, List.mem_cons_self, ⟨rest, split⟩, fun whole => ?_⟩⟩
  · rw [counted_of_notMem single, recordOf_of_malformed broken]
    rfl
  · rw [lines_of_notMem single]
    exact fun line member => (List.not_mem_nil member).elim
  · change (malformed (tail piece) && !(stripSuffix cr (tail piece)).all isAsciiWhitespace) = true ↔
      piece ≠ []
    rw [tail_of_notMem single, broken, Bool.true_and, Bool.not_eq_true', ← Bool.not_eq_true,
      blank_piece split]
  · change piece = _ at whole
    rw [whole, List.append_right_eq_self] at split
    exact more split

/-- A cut between a record's text and its newline. -/
theorem ofText (entry : Submission) (entries : List Submission) :
    ReadsBack (entry :: entries) 1 entry.record.toVec := by
  have single := entry.record.lf_notMem_toVec
  have whole : written ((entry :: entries).take 1) = entry.record.line := by
    rw [List.take_succ_cons, List.take_zero, written, List.flatMap_singleton]
  have nothing : entry.record.toVec.drop (written ((entry :: entries).take 1)).length = [] := by
    rw [whole, length_line, List.drop_eq_nil_iff]
    exact Nat.le_succ _
  refine ⟨?_, ?_, ?_, fun more => (more nothing).elim⟩
  · rw [counted_of_notMem single, recordOf_toVec]
    rfl
  · rw [lines_of_notMem single]
    exact fun line member => (List.not_mem_nil member).elim
  · rw [nothing, warningsOf, tail_of_notMem single, malformed_toVec, Bool.false_and]
    exact ⟨fun warned => (Bool.false_ne_true warned).elim, fun more => (more rfl).elim⟩

/-- A cut after a record's line. -/
theorem line {entries : List Submission} {k : Nat} {file : Bytes}
    (read : ReadsBack entries k file) (entry : Submission) :
    ReadsBack (entry :: entries) (k + 1) (entry.record.line ++ file) := by
  have single := entry.record.lf_notMem_toVec
  have split : entry.record.line ++ file = entry.record.toVec ++ lf :: file := by
    rw [AuditRecord.line, List.append_assoc, List.singleton_append]
  have left : (entry.record.line ++ file).drop (written ((entry :: entries).take (k + 1))).length =
      file.drop (written (entries.take k)).length := by
    rw [List.take_succ_cons, written, List.flatMap_cons, List.length_append, ← written,
      List.drop_length_add_append]
  refine ⟨?_, ?_, ?_, ?_⟩
  · rw [counted_line, read.counted_eq]
    rfl
  · rw [split, lines_cons single]
    exact List.forall_mem_cons.mpr ⟨malformed_toVec entry.record, read.sound⟩
  · rw [left, ← read.warned, split, warningsOf, tail_append_lf]
    rfl
  · rw [left]
    intro more
    obtain ⟨other, member, piece⟩ := read.piece more
    exact ⟨other, List.mem_cons_of_mem _ member, piece⟩

end ReadsBack

/-- A file cut off anywhere is read as the records whose text ends before the
cut. -/
theorem readsBack_take (entries : List Submission) : ∀ offset n : Nat,
    ReadsBack entries ((textEnds offset entries).countP (· ≤ offset + n))
      ((written entries).take n) := by
  induction entries with
  | nil => intro offset n; rw [written, List.flatMap_nil, List.take_nil]; exact .nil
  | cons entry entries ih =>
      intro offset n
      have length := length_line entry.record
      rw [written, List.flatMap_cons, ← written, textEnds, List.countP_cons]
      rcases Nat.lt_trichotomy n entry.record.toVec.length with inside | rfl | beyond
      · rw [countP_textEnds_of_lt (by omega), if_neg (by simp only [decide_eq_true_eq]; omega),
          AuditRecord.line, List.append_assoc, List.take_append_of_le_length (by omega)]
        apply ReadsBack.ofPiece entries (List.take_append_drop n entry.record.toVec)
        rw [ne_eq, List.drop_eq_nil_iff]
        omega
      · rw [countP_textEnds_of_lt (by omega), if_pos (by simp only [decide_eq_true_eq]; omega),
          AuditRecord.line, List.append_assoc, List.take_left]
        exact .ofText entry entries
      · obtain ⟨more, rfl⟩ : ∃ more, n = entry.record.line.length + more :=
          ⟨n - entry.record.line.length, by omega⟩
        rw [if_pos (by simp only [decide_eq_true_eq]; omega), List.take_length_add_append,
          ← Nat.add_assoc]
        exact (ih (offset + entry.record.line.length) more).line entry

/-- **Reading back what a crash left.** The file of some records, cut off after
any number of octets, is read as the records whose JSON text lies before the
cut.  No line is unparseable, and the warning about a partial tail is given
exactly when what is left is a piece of another record. -/
theorem readUsageFile_take (entries : List Submission) (n : Nat) :
    let file := (writeLoop (AuditWriter.start none) (entries.map Write.complete)).take n
    let k := (textEnds 0 entries).countP (· ≤ n)
    let rest := file.drop (written (entries.take k)).length
    (readUsageFile file).groups =
        (Reading.accounted ((entries.take k).map Submission.record)).groups ∧
      (readUsageFile file).effortGroups =
        (Reading.accounted ((entries.take k).map Submission.record)).effortGroups ∧
      (readUsageFile file).coverage =
        (Reading.accounted ((entries.take k).map Submission.record)).coverage ∧
      (readUsageFile file).warnings.unparseable = 0 ∧
      ((readUsageFile file).warnings.partialTail = true ↔
        rest ≠ [] ∧
          ∃ entry ∈ entries, rest <+: entry.record.toVec ∧ rest ≠ entry.record.toVec) := by
  intro file k rest
  have read : ReadsBack entries k file := by
    have taken := readsBack_take entries 0 n
    rw [Nat.zero_add] at taken
    rw [show file = (written entries).take n from congrArg (·.take n) (writeLoop_complete entries)]
    exact taken
  rw [readUsageFile_eq, read.counted_eq]
  refine ⟨rfl, rfl, rfl, ?_, ?_⟩
  · exact List.countP_eq_zero.mpr fun line member => by
      rw [read.sound line member]
      exact Bool.false_ne_true
  · exact read.warned.trans ⟨fun more => ⟨more, read.piece more⟩, fun left => left.1⟩

end Debitmetre
