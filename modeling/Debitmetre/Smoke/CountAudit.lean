import Debitmetre.Foundation.Columns
import Debitmetre.Summary.Recovery
import Debitmetre.Usage.Text
import Debitmetre.Wire.Json.Written

/-!
# Counting the audit of a smoke run

The smoke test reads the usage file as a text and looks at the fields of untyped
values.  It counts what the summary counts, unless the file is cut off inside a
character: then it is no text, and nothing is counted.
-/

namespace Debitmetre

open Wire Wire.Json Wire.Ascii

variable {F : Type}

def isNull : Value F → Bool
  | .null => true
  | _ => false

variable (f64 : NumLit → Option F)

/-- Accepted and metered records, with those of one line. -/
def countLine (counts : Nat × Nat) (line : List Char) : Nat × Nat :=
  let line := Str.trim line
  if line = [] then counts
  else
    match Json.fromSlice f64 (utf8 (String.ofList line)) with
    | none => counts
    | some record =>
        if (record.get "schema_version").bind Value.asU64 ≠ some 1 then counts
        else if (record.get "kind").bind Value.asStr ≠ some "request" then counts
        else
          (counts.1 + 1,
            if ((record.get "usage").map fun usage => !isNull usage).getD false then counts.2 + 1
            else counts.2)

/-- `count_audit` of the contents of a file. -/
def countAudit (path : String) (file : Bytes) : Except String (Nat × Nat) :=
  match utf8? file with
  | none =>
      .error ("cannot read audit file " ++ path ++ ": stream did not contain valid UTF-8")
  | some content => .ok ((Str.lines content.toList).foldl (countLine f64) (0, 0))

def Usage.values (usage : Usage) : List (String × Value F) :=
  let counter := fun n : Option UInt64 =>
    (n.map fun n => Value.number (.posInt n.toNat.toUInt64)).getD .null
  [("input_total", counter usage.inputTotal),
    ("uncached", counter usage.uncached),
    ("cache_read", counter usage.cacheRead),
    ("cache_write", counter usage.cacheWrite),
    ("output_total", counter usage.outputTotal),
    ("reasoning", counter usage.reasoning),
    ("total", counter usage.total)]

def AuditRecord.values (record : AuditRecord) : List (String × Value F) :=
  let text := fun s : Option String => (s.map Value.string).getD .null
  [("schema_version", .number (.posInt record.schemaVersion.toNat.toUInt64)),
    ("kind", .string record.kind),
    ("event_id", .string record.eventId),
    ("timestamp", .string record.timestamp),
    ("machine_id", .string record.machineId),
    ("operation", .string record.operation.name),
    ("upstream_status",
      (record.upstreamStatus.map fun n => Value.number (.posInt n.toNat.toUInt64)).getD .null),
    ("outcome", .string record.outcome.name),
    ("model", text record.model),
    ("accounting_quality", .string record.accountingQuality.name),
    ("metering_error",
      (record.meteringError.map fun error => Value.string error.name).getD .null),
    ("reasoning_effort", text record.reasoningEffort),
    ("usage", (record.usage.map fun usage => mapOf usage.values).getD .null)]

theorem readAs_usage (usage : Usage) : ReadAs f64 1 usage.toJson (mapOf usage.values) := by
  have counter := readAs_ofOption f64 fun n : UInt64 => readAs_ofNat f64 0 n.toNat_lt
  refine readAs_object f64 ?_
  exact .cons ⟨rfl, counter _⟩ <| .cons ⟨rfl, counter _⟩ <| .cons ⟨rfl, counter _⟩ <|
    .cons ⟨rfl, counter _⟩ <| .cons ⟨rfl, counter _⟩ <| .cons ⟨rfl, counter _⟩ <|
    .cons ⟨rfl, counter _⟩ .nil

theorem readAs_record (record : AuditRecord) :
    ReadAs f64 2 record.toJson (mapOf record.values) := by
  have number {n : Nat} (small : n < UInt64.size) := readAs_ofNat f64 1 small
  have text := readAs_ofString f64 1
  have status := readAs_ofOption f64 (fun n : UInt16 =>
    number (Nat.lt_of_lt_of_le n.toNat_lt (by decide : UInt16.size ≤ UInt64.size)))
  have error := readAs_ofOption f64 fun error : MeteringError => text error.name
  have version := number (Nat.lt_of_lt_of_le record.schemaVersion.toNat_lt
    (by decide : UInt8.size ≤ UInt64.size))
  refine readAs_object f64 ?_
  exact .cons ⟨rfl, version⟩ <| .cons ⟨rfl, text _⟩ <| .cons ⟨rfl, text _⟩ <|
    .cons ⟨rfl, text _⟩ <| .cons ⟨rfl, text _⟩ <| .cons ⟨rfl, text _⟩ <|
    .cons ⟨rfl, status _⟩ <| .cons ⟨rfl, text _⟩ <|
    .cons ⟨rfl, readAs_ofOption f64 text _⟩ <| .cons ⟨rfl, text _⟩ <| .cons ⟨rfl, error _⟩ <|
    .cons ⟨rfl, readAs_ofOption f64 text _⟩ <|
    .cons ⟨rfl, readAs_ofOption f64 (readAs_usage f64) _⟩ .nil

/-- What is looked at in a record. -/
theorem probes_record (record : AuditRecord) :
    ((mapOf record.values : Value F).get "schema_version").bind Value.asU64 =
        some record.schemaVersion.toNat.toUInt64 ∧
      ((mapOf record.values : Value F).get "kind").bind Value.asStr = some record.kind ∧
      (((mapOf record.values : Value F).get "usage").map fun usage => !isNull usage).getD false =
        record.usage.isSome := by
  refine ⟨?_, ?_, ?_⟩
  · rw [get_mapOf]
    rfl
  · rw [get_mapOf]
    rfl
  · have last : record.values.reverse.lookup "usage" =
        some ((record.usage.map fun usage => (mapOf usage.values : Value F)).getD .null) := rfl
    rw [get_mapOf, last]
    cases record.usage <;> rfl

/-- Counts with a record's, if there is one. -/
def tallied (counts : Nat × Nat) (record : Option AuditRecord) : Nat × Nat :=
  match record with
  | none => counts
  | some record => (counts.1 + 1, if record.usage.isSome then counts.2 + 1 else counts.2)

/-- The line of a record that is written counts. -/
theorem countLine_of_text {line : List Char} {entry : Submission}
    (text : utf8 (String.ofList (Str.trim line)) = entry.record.toVec) (counts : Nat × Nat) :
    countLine f64 counts line = tallied counts (some entry.record) := by
  have more : Str.trim line ≠ [] := by
    intro none
    obtain ⟨body, shape⟩ := entry.record.toVec_shape
    rw [none, shape] at text
    cases text
  have read : Json.fromSlice f64 (utf8 (String.ofList (Str.trim line))) =
      some (mapOf entry.record.values) := by
    rw [text]
    exact (readAs_record f64 entry.record).fromSlice (by decide)
  obtain ⟨version, kind, metered⟩ := probes_record (F := F) entry.record
  have canonical : entry.record.schemaVersion.toNat.toUInt64 = 1 ∧
      entry.record.kind = "request" := by
    rw [entry.canonical.1, entry.canonical.2]
    exact ⟨rfl, rfl⟩
  simp only [countLine, if_neg more, read, version, kind, metered, canonical, ne_eq,
    not_true_eq_false, ↓reduceIte, tallied]

/-- A line without a value does not count. -/
theorem countLine_of_none {line : List Char}
    (broken : parse (utf8 (String.ofList (Str.trim line))) = none) (counts : Nat × Nat) :
    countLine f64 counts line = counts := by
  have read : Json.fromSlice f64 (utf8 (String.ofList (Str.trim line))) = none := by
    rw [Json.fromSlice, broken, Option.bind_none]
  rw [countLine, read]
  exact ite_self counts

/-- What a record's text starts with counts as the summary counts it. -/
theorem countLine_eq {line : List Char} {entry : Submission}
    (starts : line.flatMap String.utf8EncodeChar <+: entry.record.toVec) (counts : Nat × Nat) :
    countLine f64 counts line =
      tallied counts (recordOf (line.flatMap String.utf8EncodeChar)) := by
  obtain ⟨body, shape⟩ := entry.record.toVec_shape
  obtain ⟨rest, split⟩ := starts
  by_cases more : line.flatMap String.utf8EncodeChar = []
  · rw [eq_nil_of_utf8 more]
    rfl
  · have opened : line.head? = some '\x7b' := by
      refine head?_of_utf8 (b := lbrace) (by decide) ?_
      have first := congrArg List.head? (split.trans shape)
      rwa [List.head?_append_of_ne_nil _ more] at first
    have trimmed := Str.trim_of_head opened rfl
    by_cases whole : rest = []
    · rw [whole, List.append_nil] at split
      have closed : line.getLast? = some '\x7d' := by
        refine getLast?_of_utf8 (b := rbrace) (by decide) ?_
        rw [split, shape, ← List.cons_append, ← List.cons_append, ← List.cons_append,
          List.getLast?_concat]
      have kept : Str.trim line = line := by
        obtain ⟨init, rfl⟩ := List.getLast?_eq_some_iff.mp closed
        rw [trimmed, List.rdropWhile_concat_neg]
        decide
      have text : utf8 (String.ofList (Str.trim line)) = entry.record.toVec := by
        rw [kept, utf8_ofList, split]
      rw [countLine_of_text f64 text, split, recordOf_toVec]
    · -- Trimming leaves a piece of a piece of the text.
      obtain ⟨blank, cut⟩ := List.rdropWhile_prefix isWhitespace line
      have piece : utf8 (String.ofList (Str.trim line)) ++
          (blank.flatMap String.utf8EncodeChar ++ rest) = entry.record.toVec := by
        rw [utf8_ofList, trimmed, ← List.append_assoc, ← List.flatMap_append, cut, split]
      rw [countLine_of_none f64 (AuditRecord.parse_piece piece
          (List.append_ne_nil_of_right_ne_nil _ whole)),
        recordOf_of_malformed (malformed_piece split whole)]
      rfl

theorem foldl_tallied (records : List (Option AuditRecord)) (counts : Nat × Nat) :
    records.foldl tallied counts =
      (counts.1 + records.reduceOption.length,
        counts.2 + (usages records.reduceOption).length) := by
  induction records generalizing counts with
  | nil => rfl
  | cons record records ih =>
      rw [List.foldl_cons, ih]
      cases record with
      | none => rw [List.reduceOption_cons_of_none, tallied]
      | some record =>
          rw [List.reduceOption_cons_of_some, usages, usages, List.filterMap_cons, tallied]
          cases record.usage with
          | none =>
              simp only [Option.isSome_none, Bool.false_eq_true, ↓reduceIte, List.length_cons]
              exact Prod.ext (by omega) rfl
          | some usage =>
              simp only [Option.isSome_some, ↓reduceIte, List.length_cons]
              exact Prod.ext (by omega) (by omega)

theorem isUtf8_toVec (record : AuditRecord) : IsUtf8 record.toVec := by
  refine isUtf8_print (encoded_object ?_)
  have counters : ∀ usage : Usage, usage.toJson.Encoded := by
    intro usage
    refine encoded_object ?_
    have counter := encoded_ofOption fun n : UInt64 => encoded_ofNat n.toNat
    simp only [Usage.members, List.forall_mem_cons, counter, List.not_mem_nil, IsEmpty.forall_iff,
      implies_true, and_self]
  have text := encoded_ofOption encoded_ofString
  have error := encoded_ofOption fun error : MeteringError => encoded_ofString error.name
  have status := encoded_ofOption fun n : UInt16 => encoded_ofNat n.toNat
  simp only [AuditRecord.members, List.forall_mem_cons, encoded_ofString, encoded_ofNat, text,
    error, status, encoded_ofOption counters, List.not_mem_nil, IsEmpty.forall_iff, implies_true,
    and_self]

theorem isUtf8_written (entries : List Submission) : IsUtf8 (written entries) :=
  isUtf8_flatMap fun entry _ => (isUtf8_toVec entry.record).append (isUtf8_of_all rfl)

/-- The lines of a file that is cut off are what records start with. -/
theorem starts_of_mem_splitOn {entries : List Submission} {n : Nat} {piece : Bytes}
    (member : piece ∈ ((written entries).take n).splitOn lf) :
    piece = [] ∨ ∃ entry ∈ entries, piece <+: entry.record.toVec := by
  have ends : (written entries).splitOn lf =
      entries.map (fun entry => entry.record.toVec) ++ [[]] := by
    have shape : written entries =
        Columns.ended lf (entries.map fun entry => entry.record.toVec) := by
      rw [Columns.ended, List.flatMap_map]
      rfl
    rw [shape, Columns.splitOn_ended_iff]
    intro text written
    obtain ⟨entry, -, rfl⟩ := List.mem_map.mp written
    exact entry.record.lf_notMem_toVec
  obtain ⟨line, own, starts⟩ := exists_line_of_starts (List.take_prefix n _) member
  rw [ends, List.mem_append, List.mem_singleton] at own
  rcases own with own | rfl
  · obtain ⟨entry, present, rfl⟩ := List.mem_map.mp own
    exact .inr ⟨entry, present, starts⟩
  · exact .inl (List.prefix_nil.mp starts)

/-- What a text counts as, if it is the start of a file that was written. -/
theorem foldl_countLine {entries : List Submission} {n : Nat} {content : String}
    (taken : utf8 content = (written entries).take n) :
    (Str.lines content.toList).foldl (countLine f64) (0, 0) =
      ((counted (utf8 content)).length, (usages (counted (utf8 content))).length) := by
  have pieces : (utf8 content).splitOn lf =
      (content.toList.splitOn '\n').map (·.flatMap String.utf8EncodeChar) := by
    rw [utf8_eq, splitOn_utf8]
  have each : (content.toList.splitOn '\n').foldl (countLine f64) (0, 0) =
      ((utf8 content).splitOn lf).foldl (fun counts piece => tallied counts (recordOf piece))
        (0, 0) := by
    rw [pieces, List.foldl_map]
    apply List.foldl_ext
    intro counts line member
    have own : line.flatMap String.utf8EncodeChar ∈ (utf8 content).splitOn lf := by
      rw [pieces]
      exact List.mem_map_of_mem member
    rw [taken] at own
    rcases starts_of_mem_splitOn own with none | ⟨entry, -, starts⟩
    · rw [eq_nil_of_utf8 none]
      rfl
    · exact countLine_eq f64 starts counts
  rw [Str.foldl_lines (fun counts line line' same => by rw [countLine, countLine, same])
    (fun counts => rfl), each, ← List.foldl_map, foldl_tallied, List.reduceOption,
    List.filterMap_map, counted, Nat.zero_add, Nat.zero_add]
  rfl

/-- **The two readers agree** on what a crash left of a written file if and only if it
is not cut off inside a character. -/
theorem countAudit_take_iff (path : String) (entries : List Submission) (n : Nat) :
    let whole := writeLoop (AuditWriter.start none) (entries.map Write.complete)
    let coverage := (readUsageFile (whole.take n)).coverage
    countAudit f64 path (whole.take n) = .ok (coverage.accepted, coverage.metered) ↔
      ∀ b ∈ whole[n]?, b.IsUTF8FirstByte := by
  intro whole coverage
  have same : whole = written entries := writeLoop_complete entries
  have read : coverage = (readUsageFile ((written entries).take n)).coverage := by
    rw [← same]
  obtain ⟨text, encoded⟩ := isUtf8_written entries
  have cut := isUtf8_take_iff text n
  rw [encoded] at cut
  rw [read, same, ← cut, ← isSome_utf8?, countAudit]
  cases decodes : utf8? ((written entries).take n) with
  | none => exact ⟨nofun, nofun⟩
  | some content =>
      have taken := utf8_of_utf8? decodes
      rw [coverage_readUsageFile, ← taken]
      simp only [foldl_countLine f64 taken, Option.isSome_some]

/-- A request of a machine whose name is not in ASCII. -/
def accented : Submission where
  record := AuditRecord.new ⟨"0", "2026-01-01T00:00:00Z"⟩ "é" .response
  canonical := ⟨rfl, rfl⟩

/-- Nothing is counted in a file that is cut off inside a character. -/
theorem not_countAudit_accented :
    ¬ ∀ (entries : List Submission) (n : Nat),
      let file := (writeLoop (AuditWriter.start none) (entries.map Write.complete)).take n
      countAudit (fun _ => (none : Option Empty)) "usage.jsonl" file =
        .ok ((readUsageFile file).coverage.accepted, (readUsageFile file).coverage.metered) := by
  intro agree
  have counted : countAudit _ _ _ = .ok _ := agree [accented] 102
  rw [writeLoop_complete] at counted
  obtain ⟨text, encoded⟩ := isUtf8_written [accented]
  have inside : (utf8 text)[102]? = some 0xA9 := by
    rw [encoded]
    decide +kernel
  have broken : ¬ IsUtf8 ((written [accented]).take 102) := by
    rw [← encoded, isUtf8_take_iff, inside]
    exact fun first => absurd (first 0xA9 rfl) (by decide)
  rw [← isSome_utf8?, Option.not_isSome_iff_eq_none] at broken
  rw [countAudit, broken] at counted
  cases counted

end Debitmetre
