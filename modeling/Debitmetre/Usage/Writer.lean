import Debitmetre.Usage.Record
import Debitmetre.Wire.Lines
import Mathlib.Data.List.Induction

/-!
# Writing the usage file

A gateway session opens the usage file for appending, whatever it ends in, and
appends one line per record.  A write may stop after any strict initial piece of
its line: the write fails midway and the loop goes on with the next record, or
the process dies and the session is over.  What a torn write leaves is where the
next line starts.
-/

namespace Debitmetre

open Wire Wire.Json Wire.Ascii

/-- A record the gateway submits for writing, with the version and kind
`AuditRecord.new` gives it. -/
structure Submission where
  record : AuditRecord
  canonical : record.Canonical

/-- The text of a record and a newline. -/
def AuditRecord.line (record : AuditRecord) : Bytes := record.toVec ++ [lf]

theorem length_line (record : AuditRecord) : record.line.length = record.toVec.length + 1 := by
  rw [AuditRecord.line, List.length_append, List.length_singleton]

theorem AuditRecord.length_line_pos (record : AuditRecord) : 0 < record.line.length := by
  rw [length_line]
  exact Nat.succ_pos _

theorem AuditRecord.length_toVec_lt (record : AuditRecord) :
    record.toVec.length < record.line.length := by
  rw [length_line]
  exact Nat.lt_succ_self _

/-- What became of the write of a record's line. -/
inductive Write
  | complete (entry : Submission)
  | torn (entry : Submission) (kept : Fin entry.record.line.length)

namespace Write

/-- The octets that reached the file. -/
def bytes : Write → Bytes
  | complete entry => entry.record.line
  | torn entry kept => entry.record.line.take kept

/-- The line was written completely. -/
def completes : Write → Bool
  | complete _ => true
  | torn _ _ => false

/-- The write stopped inside the line and left a piece of it. -/
def tears : Write → Bool
  | complete _ => false
  | torn _ kept => kept.val ≠ 0

end Write

/-- Open the file for appending, creating it if needed. -/
def AuditWriter.start (file : Option Bytes) : Bytes := file.getD []

/-- Append the lines of a session's records. -/
def writeLoop (file : Bytes) (session : List Write) : Bytes :=
  session.foldl (fun file write => file ++ write.bytes) file

/-- The file after some sessions, the first of which creates it. -/
def usageFile (sessions : List (List Write)) : Bytes :=
  sessions.foldl (fun file session => writeLoop (AuditWriter.start (some file)) session)
    (AuditWriter.start none)

/-- The records whose lines were written completely. -/
def completed (writes : List Write) : List AuditRecord :=
  writes.filterMap fun
    | .complete entry => some entry.record
    | .torn _ _ => none

theorem writeLoop_eq (file : Bytes) (session : List Write) :
    writeLoop file session = file ++ session.flatMap Write.bytes := by
  induction session generalizing file with
  | nil => exact (List.append_nil file).symm
  | cons write session ih =>
      rw [writeLoop, List.foldl_cons, ← writeLoop, ih, List.flatMap_cons, List.append_assoc]

/-- Sessions leave no trace in the file but their writes. -/
theorem usageFile_eq (sessions : List (List Write)) :
    usageFile sessions = sessions.flatten.flatMap Write.bytes := by
  induction sessions using List.reverseRecOn with
  | nil => rfl
  | append_singleton sessions session ih =>
      rw [usageFile, List.foldl_append, ← usageFile, List.foldl_cons, List.foldl_nil,
        writeLoop_eq, AuditWriter.start, Option.getD_some, ih, List.flatten_append,
        List.flatMap_append, List.flatten_singleton]

namespace AuditRecord

/-- A record's text starts with the key of its version and ends with a brace. -/
theorem toVec_shape (record : AuditRecord) :
    ∃ body, record.toVec = lbrace :: quote :: 0x73 :: (body ++ [rbrace]) := by
  obtain ⟨body, shape⟩ := print_object (StrLit.ofString "schema_version")
    (ofNat record.schemaVersion.toNat)
    ((record.members.tail).map fun member => (StrLit.ofString member.1, member.2))
  refine ⟨(StrLit.ofString "schema_version").text.tail ++ body, ?_⟩
  exact shape

theorem one_lt_length_toVec (record : AuditRecord) : 1 < record.toVec.length := by
  obtain ⟨body, shape⟩ := record.toVec_shape
  rw [shape]
  exact Nat.succ_lt_succ (Nat.succ_pos _)

theorem one_lt_length_line (record : AuditRecord) : 1 < record.line.length := by
  rw [length_line]
  exact Nat.lt_succ_of_lt record.one_lt_length_toVec

theorem visible_toVec (record : AuditRecord) : Visible record.toVec := visible_print _

theorem lf_notMem_toVec (record : AuditRecord) : lf ∉ record.toVec := by
  intro member
  have visible := record.visible_toVec lf member
  exact absurd visible (by decide)

/-- Reading a record's text ends where its brace is closed. -/
theorem runFrom_toVec (record : AuditRecord) :
    ∃ value, texts.runFrom texts.start record.toVec = some ⟨[], .done value⟩ := by
  obtain ⟨body, shape⟩ := record.toVec_shape
  have whole : parse record.toVec = some record.toJson := parse_print record.toJson
  rw [shape] at whole ⊢
  exact ⟨_, done_of_parse (.inl rfl) whole⟩

/-- A proper piece of a record's text ends before its brace. -/
theorem rbrace_mem_of_append {record : AuditRecord} {piece rest : Bytes}
    (split : piece ++ rest = record.toVec) (more : rest ≠ []) : rbrace ∈ rest := by
  obtain ⟨body, shape⟩ := record.toVec_shape
  have ending := congrArg List.getLast? (split.trans shape)
  rw [List.getLast?_append_of_ne_nil _ more, ← List.cons_append, ← List.cons_append,
    ← List.cons_append, List.getLast?_concat] at ending
  exact List.mem_of_getLast? ending

end AuditRecord

/-- What is appended after this text will not be read as a JSON text: it is
refused, it leaves a bracket open, or it is complete. -/
def Dangling (text : Bytes) : Prop :=
  ∀ s, texts.runFrom texts.start text = some s → s.Open ∨ ∃ value, s = ⟨[], .done value⟩

/-- The first octet of a record after a complete text is refused. -/
theorem runFrom_done_lbrace (value : Json) (rest : Bytes) :
    texts.runFrom ⟨[], .done value⟩ (lbrace :: rest) = none := rfl

/-- An initial piece of a record's text leaves a bracket open, or is all of
it. -/
theorem dangling_of_piece {record : AuditRecord} {piece rest : Bytes}
    (split : piece ++ rest = record.toVec) (nonempty : piece ≠ []) : Dangling piece := by
  intro s read
  obtain ⟨value, whole⟩ := record.runFrom_toVec
  rw [← split] at whole
  obtain ⟨middle, first, second⟩ := texts.runFrom_append_eq_some whole
  rw [read] at first
  cases first
  by_cases all : rest = []
  · subst all
    cases second
    exact .inr ⟨value, rfl⟩
  · have closing := AuditRecord.rbrace_mem_of_append split all
    obtain ⟨body, shape⟩ := record.toVec_shape
    obtain ⟨b, before, rfl⟩ := List.exists_cons_of_ne_nil nonempty
    rw [shape, List.cons_append] at split
    injection split with brace _
    subst brace
    exact .inl (open_of_append (.inl rfl) read second ⟨rbrace, closing, rfl⟩)

/-- **A torn tail swallows what follows it**: nothing a record's text starts
with makes a dangling text a JSON text. -/
theorem Dangling.append_piece {text : Bytes} (dangling : Dangling text) {record : AuditRecord}
    {piece rest : Bytes} (split : piece ++ rest = record.toVec) (nonempty : piece ≠ []) {s : State}
    (read : texts.runFrom texts.start (text ++ piece) = some s) : s.Open := by
  obtain ⟨middle, first, second⟩ := texts.runFrom_append_eq_some read
  obtain ⟨value, whole⟩ := record.runFrom_toVec
  obtain ⟨body, shape⟩ := record.toVec_shape
  rw [shape] at split whole
  rcases dangling middle first with opened | ⟨value, rfl⟩
  · exact open_append_object opened (by decide) (by decide) split whole second
  · obtain ⟨b, piece, rfl⟩ := List.exists_cons_of_ne_nil nonempty
    rw [List.cons_append] at split
    injection split with brace _
    subst brace
    rw [runFrom_done_lbrace] at second
    cases second

theorem Dangling.append {text : Bytes} (dangling : Dangling text) {record : AuditRecord}
    {piece rest : Bytes} (split : piece ++ rest = record.toVec) (nonempty : piece ≠ []) :
    Dangling (text ++ piece) := fun _ read => .inl (dangling.append_piece split nonempty read)

/-- A record whose line starts after a dangling text is not read. -/
theorem Dangling.fromSlice_append {text : Bytes} (dangling : Dangling text)
    (record : AuditRecord) : AuditRecord.fromSlice (text ++ record.toVec) = none := by
  obtain ⟨body, shape⟩ := record.toVec_shape
  have nonempty : record.toVec ≠ [] := by rw [shape]; exact List.cons_ne_nil _ _
  have unread : parse (text ++ record.toVec) = none := by
    rw [parse, Option.bind_eq_none_iff]
    intro s read
    exact State.result?_of_open
      (dangling.append_piece (List.append_nil record.toVec) nonempty read)
  rw [AuditRecord.fromSlice, unread, Option.bind_none]

/-- No proper piece of a record's text is a JSON text. -/
theorem AuditRecord.parse_piece {record : AuditRecord} {piece rest : Bytes}
    (split : piece ++ rest = record.toVec) (more : rest ≠ []) : parse piece = none := by
  cases piece with
  | nil => rfl
  | cons b piece =>
      have closing := rbrace_mem_of_append split more
      obtain ⟨body, shape⟩ := record.toVec_shape
      have whole : parse (b :: piece ++ rest) = some record.toJson :=
        split ▸ parse_print record.toJson
      rw [shape, List.cons_append] at split
      injection split with brace _
      subst brace
      exact parse_prefix_eq_none (.inl rfl) whole ⟨rbrace, closing, rfl⟩

/-- No proper piece of a record's text is read. -/
theorem AuditRecord.fromSlice_piece {record : AuditRecord} {piece rest : Bytes}
    (split : piece ++ rest = record.toVec) (more : rest ≠ []) :
    AuditRecord.fromSlice piece = none := by
  rw [AuditRecord.fromSlice, AuditRecord.parse_piece split more, Option.bind_none]

end Debitmetre
