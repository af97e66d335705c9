import Debitmetre.Summary.Recovery

/-!
# Appending after a torn write

A session appends to whatever the sessions before it left.  As long as nothing
is appended to a torn piece, every record that was written completely is
counted, at every moment, and counts only grow.  The first complete line after a
torn piece is glued to it and its record is never counted, so this condition is
exact (`Debitmetre.lossless_iff`).
-/

namespace Debitmetre

open Wire Wire.Json Wire.Ascii

/-- The history up to the moment after its first writes. -/
def cut : Nat → List (List Write) → List (List Write)
  | _, [] => []
  | n, session :: rest =>
      if n ≤ session.length then [session.take n] else session :: cut (n - session.length) rest

/-- A history that is cut has the first writes. -/
theorem cut_flatten (n : Nat) (history : List (List Write)) :
    (cut n history).flatten = history.flatten.take n := by
  induction history generalizing n with
  | nil => simp only [cut, List.flatten_nil, List.take_nil]
  | cons session rest ih =>
      rw [cut, List.flatten_cons, List.take_append]
      split
      · rename_i inside
        rw [List.flatten_singleton, Nat.sub_eq_zero_of_le inside, List.take_zero, List.append_nil]
      · rename_i beyond
        rw [List.flatten_cons, ih,
          List.take_of_length_le (Nat.le_of_lt (Nat.lt_of_not_le beyond) : session.length ≤ n)]

/-- A summary that accounts for some records, in their order, among others. -/
def Reading.Counts (reading : Reading) (records : List AuditRecord) : Prop :=
  ∃ all, records.Sublist all ∧ reading = (Reading.accounted all).warned reading.warnings

/-- At every moment the summary counts every record whose line was written
completely, and writing complete lines never lowers the counts. -/
def Lossless (history : List (List Write)) : Prop :=
  ∀ n, (readUsageFile (usageFile (cut n history))).Counts (completed (cut n history).flatten) ∧
    ∀ m, n ≤ m → (∀ write ∈ (cut m history).flatten.drop n, write.completes = true) →
      (readUsageFile (usageFile (cut n history))).coverage.accepted ≤
          (readUsageFile (usageFile (cut m history))).coverage.accepted ∧
        (readUsageFile (usageFile (cut n history))).coverage.metered ≤
          (readUsageFile (usageFile (cut m history))).coverage.metered

/-- The octets of some writes. -/
abbrev octets (writes : List Write) : Bytes := writes.flatMap Write.bytes

/-- No write that left a torn piece is followed by a complete one. -/
def Unglued (writes : List Write) : Prop :=
  writes.Pairwise fun earlier later => earlier.tears = true → later.completes = false

theorem unglued_concat {writes : List Write} {write : Write} :
    Unglued (writes ++ [write]) ↔ Unglued writes ∧
      ∀ earlier ∈ writes, earlier.tears = true → write.completes = false := by
  simp only [Unglued, List.pairwise_append, List.pairwise_singleton, true_and,
    List.mem_singleton, forall_eq]

/-- What was completed is counted write by write. -/
theorem completed_append (first second : List Write) :
    completed (first ++ second) = completed first ++ completed second := List.filterMap_append

/-- Each write adds its octets. -/
theorem octets_concat (writes : List Write) (write : Write) :
    octets (writes ++ [write]) = octets writes ++ write.bytes := by
  rw [octets, List.flatMap_append, List.flatMap_singleton]

/-- A torn write leaves a piece of a record's text. -/
theorem bytes_torn (entry : Submission) (kept : Fin entry.record.line.length) :
    (Write.torn entry kept).bytes ++ entry.record.toVec.drop kept = entry.record.toVec := by
  obtain ⟨kept, inside⟩ := kept
  have length := length_line entry.record
  change entry.record.line.take kept ++ entry.record.toVec.drop kept = entry.record.toVec
  rw [AuditRecord.line, List.take_append_of_le_length (by omega), List.take_append_drop]

/-- The piece is not empty if the write tears. -/
theorem tears_torn (entry : Submission) (kept : Fin entry.record.line.length) :
    (Write.torn entry kept).tears = true ↔ (Write.torn entry kept).bytes ≠ [] := by
  have inside := kept.isLt
  have nonempty : entry.record.line ≠ [] := List.append_ne_nil_of_right_ne_nil _ (by decide)
  rw [Write.bytes, Write.tears, decide_eq_true_eq, ne_eq, ne_eq, List.take_eq_nil_iff]
  exact not_congr ⟨.inl, fun zero => zero.resolve_right nonempty⟩

/-- What the file consists of as long as nothing is glued: the completed records
line by line, and a tail that is empty until a write tears. -/
structure Intact (writes : List Write) : Prop where
  lines_eq : lines (octets writes) = (completed writes).map AuditRecord.toVec
  tail_eq : (∀ write ∈ writes, write.tears = false) → tail (octets writes) = []
  dangling : (∃ write ∈ writes, write.tears = true) → Dangling (tail (octets writes))

/-- An intact file ends in a newline or in one torn piece. -/
theorem Intact.tail_eq_or {writes : List Write} (intact : Intact writes) :
    tail (octets writes) = [] ∨ Dangling (tail (octets writes)) := by
  by_cases torn : ∃ write ∈ writes, write.tears = true
  · exact .inr (intact.dangling torn)
  · refine .inl (intact.tail_eq fun write member => ?_)
    exact Bool.eq_false_iff.mpr fun tears => torn ⟨write, member, tears⟩

/-- A complete line after an intact file without a torn tail. -/
theorem Intact.complete {writes : List Write} (intact : Intact writes)
    (clean : ∀ write ∈ writes, write.tears = false) (entry : Submission) :
    Intact (writes ++ [.complete entry]) := by
  have split : octets (writes ++ [.complete entry]) =
      octets writes ++ (entry.record.toVec ++ lf :: []) := octets_concat writes (.complete entry)
  have ended := intact.tail_eq clean
  refine ⟨?_, fun _ => ?_, fun ⟨write, member, tears⟩ => ?_⟩
  · rw [split, lines_append, ended, List.nil_append, lines_cons entry.record.lf_notMem_toVec,
      intact.lines_eq, completed_append, List.map_append]
    rfl
  · rw [split, tail_append, ended, List.nil_append, tail_append_lf]
    rfl
  · rcases List.mem_append.mp member with member | member
    · rw [clean write member] at tears
      cases tears
    · rw [List.mem_singleton.mp member] at tears
      cases tears

/-- A torn write after an intact file. -/
theorem Intact.torn {writes : List Write} (intact : Intact writes) (entry : Submission)
    (kept : Fin entry.record.line.length) : Intact (writes ++ [.torn entry kept]) := by
  have split := bytes_torn entry kept
  have single : lf ∉ tail (octets writes) ++ (Write.torn entry kept).bytes := by
    rw [List.mem_append, not_or]
    exact ⟨notMem_tail _, lf_notMem_piece split⟩
  have ending : tail (octets (writes ++ [.torn entry kept])) =
      tail (octets writes) ++ (Write.torn entry kept).bytes := by
    rw [octets_concat, tail_append, tail_of_notMem single]
  refine ⟨?_, fun clean => ?_, fun torn => ?_⟩
  · rw [octets_concat, lines_append, lines_of_notMem single, List.append_nil, intact.lines_eq,
      completed_append]
    exact congrArg _ (List.append_nil _).symm
  · have before := intact.tail_eq fun write member => clean write (List.mem_append_left _ member)
    have kept_ := clean _ (List.mem_append_right _ (List.mem_singleton_self _))
    rw [ending, before, List.nil_append]
    by_contra nonempty
    rw [(tears_torn entry kept).mpr nonempty] at kept_
    cases kept_
  · rw [ending]
    by_cases empty : (Write.torn entry kept).bytes = []
    · rw [empty, List.append_nil]
      apply intact.dangling
      obtain ⟨write, member, tears⟩ := torn
      rcases List.mem_append.mp member with member | member
      · exact ⟨write, member, tears⟩
      · rw [List.mem_singleton.mp member] at tears
        exact absurd empty ((tears_torn entry kept).mp tears)
    · rcases intact.tail_eq_or with nothing | dangling
      · rw [nothing, List.nil_append]
        exact dangling_of_piece split empty
      · exact dangling.append split empty

theorem clean_of_apart {writes : List Write} {entry : Submission}
    (apart : ∀ earlier ∈ writes, earlier.tears = true → (Write.complete entry).completes = false) :
    ∀ write ∈ writes, write.tears = false := fun write member =>
  Bool.eq_false_iff.mpr fun tears => by cases apart write member tears

/-- **If nothing is glued to a torn piece the file is intact.** -/
theorem intact_of_unglued {writes : List Write} (unglued : Unglued writes) : Intact writes := by
  induction writes using List.reverseRecOn with
  | nil => exact ⟨rfl, fun _ => rfl, fun ⟨_, member, _⟩ => by cases member⟩
  | append_singleton writes write ih =>
      obtain ⟨before, apart⟩ := unglued_concat.mp unglued
      cases write with
      | complete entry => exact (ih before).complete (clean_of_apart apart) entry
      | torn entry kept => exact (ih before).torn entry kept

theorem recordOf_of_completed (writes : List Write) :
    ((completed writes).map AuditRecord.toVec).filterMap recordOf = completed writes := by
  induction writes with
  | nil => rfl
  | cons write writes ih =>
      cases write with
      | complete entry =>
          change
            (entry.record.toVec :: (completed writes).map AuditRecord.toVec).filterMap recordOf =
              entry.record :: completed writes
          rw [List.filterMap_cons_some (recordOf_toVec entry), ih]
      | torn entry kept => exact ih

/-- An intact file has the completed records, and that of its tail if it is whole. -/
theorem Intact.counted {writes : List Write} (intact : Intact writes) :
    counted (octets writes) = completed writes ++ (recordOf (tail (octets writes))).toList := by
  rw [counted_eq, intact.lines_eq, recordOf_of_completed]

/-- **The first line after a torn piece is lost.** The file counts the records
that were complete before, and not this one. -/
theorem Intact.glued {writes : List Write} (intact : Intact writes)
    (torn : ∃ write ∈ writes, write.tears = true) (entry : Submission) :
    Debitmetre.counted (octets (writes ++ [.complete entry])) = completed writes := by
  have dangling := intact.dangling torn
  have split : octets (writes ++ [.complete entry]) =
      octets writes ++ (entry.record.toVec ++ lf :: []) := octets_concat writes (.complete entry)
  have single : lf ∉ tail (octets writes) ++ entry.record.toVec := by
    rw [List.mem_append, not_or]
    exact ⟨notMem_tail _, entry.record.lf_notMem_toVec⟩
  have unstripped : stripSuffix cr (tail (octets writes) ++ entry.record.toVec) =
      tail (octets writes) ++ entry.record.toVec := by
    obtain ⟨body, shape⟩ := entry.record.toVec_shape
    apply stripSuffix_of_getLast?
    rw [shape, ← List.cons_append, ← List.cons_append, ← List.cons_append, ← List.append_assoc,
      List.getLast?_concat]
    decide
  have lost : recordOf (tail (octets writes) ++ entry.record.toVec) = none := by
    rw [recordOf, unstripped, dangling.fromSlice_append]
    rfl
  rw [counted_eq, split, lines_append, tail_append, ← List.append_assoc, lines_cons single,
    tail_append_lf, intact.lines_eq, List.filterMap_append, recordOf_of_completed,
    List.filterMap_cons_none lost, lines_nil, List.filterMap_nil, List.append_nil, tail_nil,
    recordOf_nil]
  exact List.append_nil _

/-- Records that are counted are not more than there are. -/
theorem counts_length {file : Bytes} {records : List AuditRecord}
    (counts : (readUsageFile file).Counts records) : records.length ≤ (counted file).length := by
  obtain ⟨all, among, reading⟩ := counts
  have accepted := congrArg (·.coverage.accepted) reading
  rw [coverage_readUsageFile, Reading.accounted_eq] at accepted
  exact Nat.le_trans among.length_le (Nat.le_of_eq (Eq.symm accepted))

/-- What was completed is counted in an intact file. -/
theorem Intact.counts {writes : List Write} (intact : Intact writes) :
    (readUsageFile (octets writes)).Counts (completed writes) := by
  refine ⟨Debitmetre.counted (octets writes), ?_, ?_⟩
  · rw [intact.counted]
    exact List.sublist_append_left _ _
  · rw [readUsageFile_eq]
    rfl

/-- A complete line after a torn piece makes the summary count too few
records. -/
theorem Intact.not_counts {writes : List Write} (intact : Intact writes)
    (torn : ∃ write ∈ writes, write.tears = true) (entry : Submission) :
    ¬ (readUsageFile (octets (writes ++ [.complete entry]))).Counts
      (completed (writes ++ [.complete entry])) := by
  intro counts
  have short := counts_length counts
  rw [intact.glued torn, completed_append, List.length_append] at short
  exact absurd short (Nat.not_succ_le_self _)

/-- The file at a moment is that of the writes before it. -/
theorem usageFile_cut (n : Nat) (history : List (List Write)) :
    usageFile (cut n history) = octets (history.flatten.take n) := by
  rw [usageFile_eq, cut_flatten]

/-- What was never glued was not glued before either. -/
theorem Unglued.take {writes : List Write} (unglued : Unglued writes) (n : Nat) :
    Unglued (writes.take n) := List.Pairwise.sublist (List.take_sublist n writes) unglued

/-- Complete lines appended to an unglued file add their records. -/
theorem Unglued.counted_append {before after : List Write} (unglued : Unglued (before ++ after))
    (complete : ∀ write ∈ after, write.completes = true) :
    (counted (octets before)).Sublist (counted (octets (before ++ after))) := by
  cases after with
  | nil => rw [List.append_nil]
  | cons write after =>
      have apart := (List.pairwise_append.mp unglued).2.2
      have clean : ∀ earlier ∈ before, earlier.tears = false := fun earlier member =>
        Bool.eq_false_iff.mpr fun tears => by
          have torn := apart earlier member write List.mem_cons_self tears
          rw [complete write List.mem_cons_self] at torn
          cases torn
      have first := intact_of_unglued (List.Pairwise.sublist (List.sublist_append_left _ _) unglued)
      rw [first.counted, first.tail_eq clean, recordOf_nil, Option.toList_none, List.append_nil,
        (intact_of_unglued unglued).counted, completed_append, List.append_assoc]
      exact List.sublist_append_left _ _

/-- What is lossless is never glued. -/
theorem unglued_of_lossless {history : List (List Write)} (lossless : Lossless history) (n : Nat) :
    Unglued (history.flatten.take n) := by
  induction n with
  | zero => exact List.Pairwise.nil
  | succ n ih =>
      rw [List.take_add_one]
      cases next : history.flatten[n]? with
      | none => rwa [Option.toList_none, List.append_nil]
      | some write =>
          refine unglued_concat.mpr ⟨ih, fun earlier member tears => ?_⟩
          cases write with
          | torn entry kept => rfl
          | complete entry =>
              have counts := (lossless (n + 1)).1
              rw [usageFile_cut, cut_flatten, List.take_add_one, next] at counts
              exact ((intact_of_unglued ih).not_counts ⟨earlier, member, tears⟩ entry counts).elim

/-- **When no record is lost.** Every completely written record is counted, at
every moment of a history of sessions, if and only if no write that stopped
inside its line is followed by a complete one. -/
theorem lossless_iff (history : List (List Write)) :
    Lossless history ↔ history.flatten.Pairwise fun earlier later =>
      earlier.tears = true → later.completes = false := by
  constructor
  · intro lossless
    have all := unglued_of_lossless lossless history.flatten.length
    rwa [List.take_length] at all
  · intro unglued n
    have taken := Unglued.take unglued
    rw [usageFile_cut, cut_flatten]
    refine ⟨(intact_of_unglued (taken n)).counts, fun m later complete => ?_⟩
    rw [cut_flatten] at complete
    have split : history.flatten.take m =
        history.flatten.take n ++ (history.flatten.take m).drop n := by
      conv_lhs => rw [← List.take_append_drop n (history.flatten.take m), List.take_take,
        Nat.min_eq_left later]
    have among := Unglued.counted_append (split ▸ taken m) complete
    rw [← split] at among
    rw [usageFile_cut, coverage_readUsageFile, coverage_readUsageFile]
    exact ⟨among.length_le, (among.filterMap _).length_le⟩

theorem one_lt_length_line (record : AuditRecord) : 1 < record.line.length := by
  obtain ⟨body, shape⟩ := record.toVec_shape
  rw [length_line, shape]
  exact Nat.le_add_left _ _

/-- A session that died after the first octet of a line, and one that wrote a line:
the line is lost. -/
theorem not_lossless_of_crash :
    let entry : Submission := ⟨AuditRecord.new ⟨"a", "t"⟩ "laptop" .response, rfl, rfl⟩
    ¬ Lossless [[.torn entry ⟨1, one_lt_length_line entry.record⟩], [.complete entry]] := by
  intro entry lossless
  have counts := (lossless 2).1
  rw [usageFile_cut, cut_flatten] at counts
  exact (intact_of_unglued (List.pairwise_singleton _ _)).not_counts
    ⟨_, List.mem_singleton_self _, rfl⟩ entry counts

end Debitmetre
