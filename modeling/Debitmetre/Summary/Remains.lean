import Debitmetre.Gateway.AuditWriter
import Debitmetre.Summary.Recovery

/-!
# What remains of some writes

What the summary makes of a file that any writes were appended to, whichever of them
stopped inside their lines.  A line that starts after a torn piece is glued to it and
its record is lost, and the next one is sound again; a piece that the file ends in is
read only if it is the whole text of a record.  Each line that is lost is warned about.
-/

namespace Debitmetre

open Wire Wire.Json Wire.Ascii AuditWriter

/-- What remains of some writes: the records of the lines that were written whole, those
of the lines that were glued to a torn piece, and the pieces that have yet to be
continued. -/
structure Remains where
  counted : List AuditRecord
  glued : List AuditRecord
  pending : List (AuditRecord × Nat)

namespace Remains

/-- Nothing has been written. -/
def start : Remains := ⟨[], [], []⟩

def write (remains : Remains) (entry : AuditRecord × Nat) : Remains :=
  if entry.2 = 0 then remains
  else if isTorn entry then { remains with pending := remains.pending ++ [entry] }
  else if remains.pending = [] then { remains with counted := remains.counted ++ [entry.1] }
  else { remains with glued := remains.glued ++ [entry.1], pending := [] }

/-- The record whose text the file ends in, with nothing but its newline missing. -/
def last (remains : Remains) : Option AuditRecord :=
  match remains.pending with
  | [entry] => if entry.2 = entry.1.toVec.length then some entry.1 else none
  | _ => none

/-- The file ends in pieces that are no record. -/
def unfinished (remains : Remains) : Bool := remains.pending ≠ [] ∧ remains.last = none

/-- All records that are read. -/
def read (remains : Remains) : List AuditRecord := remains.counted ++ remains.last.toList

end Remains

/-- What remains of writes, one after another. -/
def remainsOf (entries : List (AuditRecord × Nat)) : Remains := entries.foldl Remains.write .start

theorem remainsOf_concat (entries : List (AuditRecord × Nat)) (entry : AuditRecord × Nat) :
    remainsOf (entries ++ [entry]) = (remainsOf entries).write entry := by
  rw [remainsOf, List.foldl_append, ← remainsOf, List.foldl_cons, List.foldl_nil]

namespace Remains

variable {remains : Remains} {entry : AuditRecord × Nat}

/-- What a write can do. -/
theorem write_cases (remains : Remains) (entry : AuditRecord × Nat) :
    entry.2 = 0 ∧ isTorn entry = true ∧ remains.write entry = remains ∨
      entry.2 ≠ 0 ∧ isTorn entry = true ∧
          remains.write entry = { remains with pending := remains.pending ++ [entry] } ∨
        isTorn entry = false ∧ remains.pending = [] ∧
            remains.write entry = { remains with counted := remains.counted ++ [entry.1] } ∨
          isTorn entry = false ∧ remains.pending ≠ [] ∧ remains.write entry =
            { remains with glued := remains.glued ++ [entry.1], pending := [] } := by
  unfold write
  by_cases nothing : entry.2 = 0
  · have torn : isTorn entry = true := by
      rw [isTorn, nothing, length_line]
      exact decide_eq_true (Nat.succ_pos _)
    rw [if_pos nothing]
    exact .inl ⟨nothing, torn, rfl⟩
  · rw [if_neg nothing]
    cases torn : isTorn entry with
    | true => exact .inr (.inl ⟨nothing, rfl, if_pos rfl⟩)
    | false =>
        rw [if_neg Bool.false_ne_true]
        by_cases clean : remains.pending = []
        · exact .inr (.inr (.inl ⟨rfl, clean, if_pos clean⟩))
        · exact .inr (.inr (.inr ⟨rfl, clean, if_neg clean⟩))

theorem last_of_pending (clean : remains.pending = []) : remains.last = none := by
  rw [last, clean]

/-- Pieces that follow each other are no record. -/
theorem last_concat (torn : remains.pending ≠ []) (entry : AuditRecord × Nat) :
    ({ remains with pending := remains.pending ++ [entry] } : Remains).last = none := by
  obtain ⟨first, others, pending⟩ := List.exists_cons_of_ne_nil torn
  rw [last, pending]
  cases others <;> rfl

/-- What was written of a line is a piece of its text. -/
theorem piece_append (torn : isTorn entry = true) :
    piece entry ++ entry.1.toVec.drop entry.2 = entry.1.toVec := by
  have part : entry.2 < entry.1.line.length := of_decide_eq_true torn
  rw [length_line] at part
  rw [piece, AuditRecord.line, List.take_append_of_le_length (Nat.le_of_lt_succ part),
    List.take_append_drop]

theorem piece_ne_nil (torn : isTorn entry = true) (some_octets : entry.2 ≠ 0) :
    piece entry ≠ [] := by
  have part : entry.2 < entry.1.line.length := of_decide_eq_true torn
  rw [piece, ne_eq, List.take_eq_nil_iff, not_or]
  exact ⟨some_octets, List.ne_nil_of_length_pos (Nat.zero_lt_of_lt part)⟩

/-- A text that a piece of a record's text ends has no suffix to be stripped. -/
theorem stripSuffix_append {text piece rest : Bytes} {record : AuditRecord}
    (split : piece ++ rest = record.toVec) (nonempty : piece ≠ []) :
    stripSuffix cr (text ++ piece) = text ++ piece := by
  apply stripSuffix_of_getLast?
  rw [List.getLast?_append_of_ne_nil _ nonempty]
  intro ends
  have visible := visible_piece split cr (List.mem_of_getLast? ends)
  exact absurd visible (by decide)

/-- It is not blank. -/
theorem not_blank_append {text piece rest : Bytes} {record : AuditRecord}
    (split : piece ++ rest = record.toVec) (nonempty : piece ≠ []) :
    (stripSuffix cr (text ++ piece)).all isAsciiWhitespace = false := by
  have blank := mt (blank_piece split).mp nonempty
  rw [stripSuffix_of_visible (visible_piece split)] at blank
  rw [stripSuffix_append split nonempty, List.all_append, Bool.eq_false_iff.mpr blank,
    Bool.and_false]

end Remains

/-- **A piece that follows a dangling text** does not make it a record. -/
theorem Dangling.malformed_append {text piece rest : Bytes} (dangling : Dangling text)
    {record : AuditRecord} (split : piece ++ rest = record.toVec) (nonempty : piece ≠ []) :
    malformed (text ++ piece) = true := by
  have unread : parse (text ++ piece) = none := by
    rw [parse, Option.bind_eq_none_iff]
    intro s read
    exact State.result?_of_open (dangling.append_piece split nonempty read)
  rw [malformed, Remains.stripSuffix_append split nonempty, AuditRecord.fromSlice, unread,
    Option.bind_none]
  rfl

namespace Remains

/-- What remains of the writes to a file is what the summary makes of it. -/
structure Shown (remains : Remains) (text : Bytes) : Prop where
  counted : (lines text).filterMap recordOf = remains.counted
  glued : (lines text).countP malformed = remains.glued.length
  clean : remains.pending = [] → tail text = []
  dangling : remains.pending ≠ [] → Dangling (tail text)
  last : recordOf (tail text) = remains.last
  unfinished : (warningsOf text).partialTail = remains.unfinished

theorem shown_start : Shown .start [] where
  counted := rfl
  glued := rfl
  clean := fun _ => rfl
  dangling := fun torn => (torn rfl).elim
  last := rfl
  unfinished := rfl

variable {remains : Remains} {entry : AuditRecord × Nat} {text : Bytes}

/-- A text without a newline goes on with the tail of a file. -/
theorem lines_append_of_notMem (text : Bytes) {more : Bytes} (single : lf ∉ more) :
    lines (text ++ more) = lines text ∧ tail (text ++ more) = tail text ++ more := by
  have joined : lf ∉ tail text ++ more := by
    rw [List.mem_append, not_or]
    exact ⟨notMem_tail _, single⟩
  rw [lines_append, lines_of_notMem joined, List.append_nil, tail_append, tail_of_notMem joined]
  exact ⟨rfl, rfl⟩

/-- A line goes on with the tail of a file and ends it. -/
theorem lines_append_line (text : Bytes) (record : AuditRecord) :
    lines (text ++ record.line) = lines text ++ [tail text ++ record.toVec] ∧
      tail (text ++ record.line) = [] := by
  have joined : lf ∉ tail text ++ record.toVec := by
    rw [List.mem_append, not_or]
    exact ⟨notMem_tail _, record.lf_notMem_toVec⟩
  rw [lines_append, tail_append, AuditRecord.line, ← List.append_assoc, lines_cons joined,
    tail_append_lf]
  exact ⟨rfl, rfl⟩

/-- A file that ends in no tail is not warned about. -/
theorem partialTail_of_clean (clean : tail text = []) :
    (warningsOf text).partialTail = false := by
  rw [warningsOf, clean]
  rfl

/-- A piece is read if it is the whole text of a record. -/
theorem recordOf_piece (canonical : entry.1.Canonical) (torn : isTorn entry = true) :
    recordOf (piece entry) = if entry.2 = entry.1.toVec.length then some entry.1 else none := by
  have split := piece_append torn
  by_cases whole : entry.2 = entry.1.toVec.length
  · rw [whole, List.drop_length, List.append_nil] at split
    rw [if_pos whole, split]
    exact recordOf_toVec ⟨entry.1, canonical⟩
  · have part : entry.2 < entry.1.line.length := of_decide_eq_true torn
    rw [length_line] at part
    have more : entry.1.toVec.drop entry.2 ≠ [] := by
      rw [ne_eq, List.drop_eq_nil_iff]
      omega
    rw [if_neg whole, recordOf_of_malformed (malformed_piece split more)]

/-- A piece is malformed if it is not read. -/
theorem malformed_of_piece (canonical : entry.1.Canonical) (torn : isTorn entry = true) :
    malformed (piece entry) = (recordOf (piece entry)).isNone := by
  rw [recordOf_piece canonical torn]
  have split := piece_append torn
  by_cases whole : entry.2 = entry.1.toVec.length
  · rw [whole, List.drop_length, List.append_nil] at split
    rw [if_pos whole, split, malformed_toVec, Option.isNone_some]
  · have part : entry.2 < entry.1.line.length := of_decide_eq_true torn
    rw [length_line] at part
    have more : entry.1.toVec.drop entry.2 ≠ [] := by
      rw [ne_eq, List.drop_eq_nil_iff]
      omega
    rw [if_neg whole, malformed_piece split more, Option.isNone_none]

/-- A piece that is appended. -/
theorem Shown.torn (shown : Shown remains text) (canonical : entry.1.Canonical)
    (some_octets : entry.2 ≠ 0) (torn : isTorn entry = true) :
    Shown { remains with pending := remains.pending ++ [entry] } (text ++ piece entry) := by
  have split := piece_append torn
  have nonempty := piece_ne_nil torn some_octets
  obtain ⟨same, ending⟩ := lines_append_of_notMem text (lf_notMem_piece split)
  have more : remains.pending ++ [entry] ≠ [] := List.concat_ne_nil _ _
  have warned (last : recordOf (tail text ++ piece entry) =
      ({ remains with pending := remains.pending ++ [entry] } : Remains).last)
      (broken : malformed (tail text ++ piece entry) =
        (recordOf (tail text ++ piece entry)).isNone) :
      (warningsOf (text ++ piece entry)).partialTail =
        ({ remains with pending := remains.pending ++ [entry] } : Remains).unfinished := by
    rw [warningsOf, ending, not_blank_append split nonempty, broken, last, Remains.unfinished]
    cases ({ remains with pending := remains.pending ++ [entry] } : Remains).last <;> simp
  by_cases clean : remains.pending = []
  · have nothing := shown.clean clean
    have last : recordOf (tail text ++ piece entry) =
        ({ remains with pending := remains.pending ++ [entry] } : Remains).last := by
      rw [nothing, List.nil_append, recordOf_piece canonical torn, Remains.last, clean]
      rfl
    refine ⟨same ▸ shown.counted, same ▸ shown.glued, fun clean => (more clean).elim, fun _ => ?_,
      ending ▸ last, warned last ?_⟩
    · rw [ending, nothing, List.nil_append]
      exact dangling_of_piece split nonempty
    · rw [nothing, List.nil_append]
      exact malformed_of_piece canonical torn
  · have broken := (shown.dangling clean).malformed_append split nonempty
    have last : recordOf (tail text ++ piece entry) =
        ({ remains with pending := remains.pending ++ [entry] } : Remains).last := by
      rw [last_concat clean, recordOf_of_malformed broken]
    refine ⟨same ▸ shown.counted, same ▸ shown.glued, fun clean => (more clean).elim, fun _ => ?_,
      ending ▸ last, warned last ?_⟩
    · rw [ending]
      exact (shown.dangling clean).append split nonempty
    · rw [broken, recordOf_of_malformed broken, Option.isNone_none]

/-- A file that ends in no tail shows all there is. -/
theorem Shown.of_clean (counted : (lines text).filterMap recordOf = remains.counted)
    (glued : (lines text).countP malformed = remains.glued.length) (clean : tail text = [])
    (pending : remains.pending = []) : Shown remains text where
  counted := counted
  glued := glued
  clean := fun _ => clean
  dangling := fun torn => (torn pending).elim
  last := by rw [clean, recordOf_nil, last_of_pending pending]
  unfinished := by
    rw [partialTail_of_clean clean, Remains.unfinished, pending]
    rfl

/-- A line that is appended. -/
theorem Shown.line (shown : Shown remains text) (canonical : entry.1.Canonical)
    (clean : remains.pending = []) :
    Shown { remains with counted := remains.counted ++ [entry.1] } (text ++ entry.1.line) := by
  obtain ⟨same, ending⟩ := lines_append_line text entry.1
  rw [shown.clean clean, List.nil_append] at same
  refine Shown.of_clean ?_ ?_ ending clean
  · rw [same, List.filterMap_append, shown.counted,
      List.filterMap_cons_some (recordOf_toVec ⟨entry.1, canonical⟩), List.filterMap_nil]
  · rw [same, List.countP_append, shown.glued, List.countP_singleton, malformed_toVec,
      if_neg Bool.false_ne_true, Nat.add_zero]

/-- A line that is appended to a torn piece. -/
theorem Shown.glue (shown : Shown remains text) (torn : remains.pending ≠ []) :
    Shown { remains with glued := remains.glued ++ [entry.1], pending := [] }
      (text ++ entry.1.line) := by
  obtain ⟨same, ending⟩ := lines_append_line text entry.1
  have some_octets : entry.1.toVec ≠ [] := by
    obtain ⟨body, shape⟩ := entry.1.toVec_shape
    rw [shape]
    exact List.cons_ne_nil _ _
  have broken := (shown.dangling torn).malformed_append (List.append_nil entry.1.toVec) some_octets
  refine Shown.of_clean ?_ ?_ ending rfl
  · rw [same, List.filterMap_append, shown.counted,
      List.filterMap_cons_none (recordOf_of_malformed broken), List.filterMap_nil, List.append_nil]
  · rw [same, List.countP_append, shown.glued, List.countP_singleton, if_pos broken,
      List.length_append, List.length_singleton]

theorem Shown.write (shown : Shown remains text) (canonical : entry.1.Canonical) :
    Shown (remains.write entry) (text ++ piece entry) := by
  have whole (sound : isTorn entry = false) : piece entry = entry.1.line :=
    List.take_of_length_le (Nat.le_of_not_lt (of_decide_eq_false sound))
  obtain ⟨nothing, -, taken⟩ | ⟨some_octets, torn, taken⟩ | ⟨sound, clean, taken⟩ |
    ⟨sound, torn, taken⟩ := remains.write_cases entry
  · rw [taken, piece, nothing, List.take_zero, List.append_nil]
    exact shown
  · rw [taken]
    exact shown.torn canonical some_octets torn
  · rw [taken, whole sound]
    exact shown.line canonical clean
  · rw [taken, whole sound]
    exact shown.glue torn

end Remains

/-- What remains of some writes is what their file shows. -/
theorem shown_remainsOf {entries : List (AuditRecord × Nat)}
    (canonical : ∀ entry ∈ entries, entry.1.Canonical) :
    (remainsOf entries).Shown (entries.flatMap piece) := by
  induction entries using List.reverseRecOn with
  | nil => exact Remains.shown_start
  | append_singleton entries entry ih =>
      obtain ⟨canonicals, canonical⟩ := List.forall_mem_append.mp canonical
      rw [remainsOf_concat, List.flatMap_append, List.flatMap_singleton]
      exact (ih canonicals).write (canonical entry (List.mem_singleton_self entry))

/-- Warnings of a file that goes on after a newline. -/
theorem warningsOf_append {first : Bytes} (terminated : Terminated first) (second : Bytes) :
    warningsOf (first ++ second) = ⟨(warningsOf second).partialTail,
      (warningsOf first).unparseable + (warningsOf second).unparseable⟩ := by
  rw [warningsOf, warningsOf, warningsOf, terminated.lines_append, tail_append,
    tail_eq_nil_iff.mpr terminated, List.nil_append, List.countP_append]

/-- **The summary of a file that any writes were appended to** is that of what remains
of them: it warns about each record that was lost on a torn piece, and about a piece
that the file ends in. -/
theorem readUsageFile_remains {old : Bytes} (terminated : Terminated old)
    {entries : List (AuditRecord × Nat)} (canonical : ∀ entry ∈ entries, entry.1.Canonical) :
    readUsageFile (old ++ entries.flatMap piece) =
      (Reading.accounted (counted old ++ (remainsOf entries).read)).warned
        ⟨(remainsOf entries).unfinished,
          (warningsOf old).unparseable + (remainsOf entries).glued.length⟩ := by
  have shown := shown_remainsOf canonical
  have records : counted (entries.flatMap piece) = (remainsOf entries).read := by
    rw [counted_eq, shown.counted, shown.last]
    rfl
  have warnings : warningsOf (entries.flatMap piece) =
      ⟨(remainsOf entries).unfinished, (remainsOf entries).glued.length⟩ :=
    ReadWarnings.ext shown.unfinished shown.glued
  rw [readUsageFile_eq, counted_append terminated, records, warningsOf_append terminated, warnings]

/-- The writes that stopped inside their lines. -/
def cutShort (entries : List (AuditRecord × Nat)) : List AuditRecord :=
  (entries.filter isTorn).map Prod.fst

theorem cutShort_concat (entries : List (AuditRecord × Nat)) (entry : AuditRecord × Nat) :
    cutShort (entries ++ [entry]) =
      cutShort entries ++ if isTorn entry then [entry.1] else [] := by
  rw [cutShort, List.filter_append, List.map_append, ← cutShort, List.filter_singleton]
  cases isTorn entry <;> rfl

/-- Every record is read, or lost on a torn piece, or cut short itself. -/
theorem remainsOf_perm (entries : List (AuditRecord × Nat)) :
    (entries.map Prod.fst).Perm
      ((remainsOf entries).counted ++ (remainsOf entries).glued ++ cutShort entries) := by
  induction entries using List.reverseRecOn with
  | nil => exact .nil
  | append_singleton entries entry ih =>
      have moved (first second : List AuditRecord) :
          (first ++ second ++ [entry.1]).Perm (first ++ [entry.1] ++ second) := by
        rw [List.append_assoc, List.append_assoc]
        exact List.perm_append_comm.append_left first
      have more := ih.append_right [entry.1]
      rw [remainsOf_concat, List.map_append, List.map_singleton, cutShort_concat]
      obtain ⟨-, torn, taken⟩ | ⟨-, torn, taken⟩ | ⟨sound, -, taken⟩ | ⟨sound, -, taken⟩ :=
        (remainsOf entries).write_cases entry
      · rw [taken, torn, if_pos rfl, ← List.append_assoc]
        exact more
      · rw [taken, torn, if_pos rfl, ← List.append_assoc]
        exact more
      · rw [taken, sound, if_neg Bool.false_ne_true, List.append_nil, List.append_assoc]
        rw [List.append_assoc (remainsOf entries).counted] at more
        exact more.trans (moved _ _)
      · rw [taken, sound, if_neg Bool.false_ne_true, List.append_nil, ← List.append_assoc]
        exact more.trans (moved _ _)

/-- Each line that was glued had a torn piece before it. -/
theorem length_glued_le (entries : List (AuditRecord × Nat)) :
    (remainsOf entries).glued.length + (remainsOf entries).pending.length ≤
      (cutShort entries).length := by
  induction entries using List.reverseRecOn with
  | nil => exact Nat.le_refl 0
  | append_singleton entries entry ih =>
      rw [remainsOf_concat, cutShort_concat, List.length_append]
      obtain ⟨-, torn, taken⟩ | ⟨-, torn, taken⟩ | ⟨sound, -, taken⟩ | ⟨-, pending, taken⟩ :=
        (remainsOf entries).write_cases entry
      · rw [taken]
        exact Nat.le_add_right_of_le ih
      · rw [taken, torn, if_pos rfl, List.length_append, ← Nat.add_assoc]
        exact Nat.add_le_add_right ih 1
      · rw [taken]
        exact Nat.le_add_right_of_le ih
      · have some_pending := List.length_pos_of_ne_nil pending
        rw [taken, List.length_append, List.length_singleton, List.length_nil]
        omega

/-- The pieces that have yet to be continued are among those cut short. -/
theorem mem_pending {entries : List (AuditRecord × Nat)} {piece : AuditRecord × Nat}
    (pending : piece ∈ (remainsOf entries).pending) : piece.1 ∈ cutShort entries := by
  induction entries using List.reverseRecOn with
  | nil => cases pending
  | append_singleton entries entry ih =>
      rw [remainsOf_concat] at pending
      rw [cutShort_concat, List.mem_append]
      obtain ⟨-, -, taken⟩ | ⟨-, torn, taken⟩ | ⟨-, -, taken⟩ | ⟨-, -, taken⟩ :=
        (remainsOf entries).write_cases entry
      · rw [taken] at pending
        exact .inl (ih pending)
      · rw [taken] at pending
        rcases List.mem_append.mp pending with before | now
        · exact .inl (ih before)
        · rw [torn, if_pos rfl, List.mem_singleton.mp now]
          exact .inr (List.mem_singleton_self _)
      · rw [taken] at pending
        exact .inl (ih pending)
      · rw [taken] at pending
        cases pending

theorem Remains.mem_pending_of_last {remains : Remains} {record : AuditRecord}
    (last : remains.last = some record) : ∃ kept, remains.pending = [(record, kept)] := by
  unfold Remains.last at last
  cases pending : remains.pending with
  | nil => rw [pending] at last; cases last
  | cons entry others =>
      cases others with
      | nil =>
          rw [pending] at last
          obtain ⟨-, same⟩ := Option.ite_none_right_eq_some.mp last
          exact ⟨entry.2, by rw [← Option.some.inj same]⟩
      | cons other others => rw [pending] at last; cases last

/-- The record whose text the file ends in is one of those cut short. -/
theorem exists_cutShort_perm (entries : List (AuditRecord × Nat)) :
    ∃ others, (cutShort entries).Perm ((remainsOf entries).last.toList ++ others) := by
  cases last : (remainsOf entries).last with
  | none => exact ⟨cutShort entries, .refl _⟩
  | some record =>
      obtain ⟨kept, pending⟩ := Remains.mem_pending_of_last last
      have member : (record, kept) ∈ (remainsOf entries).pending :=
        pending ▸ List.mem_singleton_self _
      exact ⟨_, List.perm_cons_erase (mem_pending member)⟩

/-- The pieces that lines were glued to have not been read. -/
theorem length_last_le (entries : List (AuditRecord × Nat)) :
    (remainsOf entries).glued.length + (remainsOf entries).last.toList.length ≤
      (cutShort entries).length := by
  refine Nat.le_trans (Nat.add_le_add_left ?_ _) (length_glued_le entries)
  cases last : (remainsOf entries).last with
  | none => exact Nat.zero_le _
  | some record =>
      obtain ⟨kept, pending⟩ := Remains.mem_pending_of_last last
      rw [pending]
      exact Nat.le_refl 1

end Debitmetre
