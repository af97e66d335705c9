import Debitmetre.Usage.Record
import Std.Data.ExtTreeMap

/-!
# Reading the usage file

The reader of the local summary.  It goes through the file line by line and
accumulates the token facts of every canonical record twice, by machine and
model and by declared effort.  A line that is not a record is counted when it
ends in a newline and is otherwise taken for the trace of a crash.
-/

namespace Debitmetre

open Wire Wire.Ascii

/-- Aggregation key: machine and recorded model. -/
abbrev GroupKey := String × Option String

/-- Aggregation key of the declared-effort breakdown. -/
abbrev EffortKey := Option String

/-- The order of group keys: by machine, then by model. -/
abbrev GroupKey.cmp : GroupKey → GroupKey → Ordering :=
  compareLex (compareOn Prod.fst) (compareOn Prod.snd)

instance : Std.TransCmp GroupKey.cmp := inferInstance

instance : Std.LawfulEqCmp GroupKey.cmp where
  eq_of_compare := by
    intro first second same
    obtain ⟨machine, model⟩ := compareLex_eq_eq.mp same
    exact Prod.ext (Std.LawfulEqCmp.eq_of_compare machine) (Std.LawfulEqCmp.eq_of_compare model)

/-- `u64::saturating_add`. -/
def saturatingAdd (a b : UInt64) : UInt64 :=
  if a.toNat + b.toNat < UInt64.size then a + b else 0xFFFFFFFFFFFFFFFF

/-- Add a recorded value to a sum that is missing as long as nothing was
recorded. -/
def add (sum value : Option UInt64) : Option UInt64 :=
  match value with
  | some v => some (saturatingAdd (sum.getD 0) v)
  | none => sum

/-- Accumulated token counters of one group. -/
@[ext]
structure GroupTotals where
  records : Nat
  inputTotal : Option UInt64
  uncached : Option UInt64
  cacheRead : Option UInt64
  cacheWrite : Option UInt64
  outputTotal : Option UInt64
  reasoning : Option UInt64
  total : Option UInt64
  deriving DecidableEq, Repr

/-- `GroupTotals::default()`. -/
def GroupTotals.default : GroupTotals := ⟨0, none, none, none, none, none, none, none⟩

def accumulateUsage (totals : GroupTotals) (usage : Usage) : GroupTotals where
  records := totals.records + 1
  inputTotal := add totals.inputTotal usage.inputTotal
  uncached := add totals.uncached usage.uncached
  cacheRead := add totals.cacheRead usage.cacheRead
  cacheWrite := add totals.cacheWrite usage.cacheWrite
  outputTotal := add totals.outputTotal usage.outputTotal
  reasoning := add totals.reasoning usage.reasoning
  total := add totals.total usage.total

abbrev Groups := Std.ExtTreeMap GroupKey GroupTotals GroupKey.cmp

abbrev EffortGroups := Std.ExtTreeMap EffortKey GroupTotals compare

/-- Overall metering coverage over accepted request lifecycles. -/
@[ext]
structure Coverage where
  accepted : Nat
  metered : Nat
  deriving DecidableEq, Repr

/-- Warnings collected while reading. -/
@[ext]
structure ReadWarnings where
  partialTail : Bool
  unparseable : Nat
  deriving DecidableEq, Repr

/-- What has been read of a usage file. -/
@[ext]
structure Reading where
  groups : Groups
  effortGroups : EffortGroups
  coverage : Coverage
  warnings : ReadWarnings

/-- Nothing has been read. -/
def Reading.start : Reading := ⟨∅, ∅, ⟨0, 0⟩, ⟨false, 0⟩⟩

/-- `groups.entry(key).or_default()`, accumulated into. -/
def accumulateInto {κ : Type} {cmp : κ → κ → Ordering} [Std.TransCmp cmp]
    (groups : Std.ExtTreeMap κ GroupTotals cmp) (key : κ) (usage : Usage) :
    Std.ExtTreeMap κ GroupTotals cmp :=
  groups.alter key fun totals => some (accumulateUsage (totals.getD .default) usage)

/-- Account for a canonical record. -/
def Reading.account (reading : Reading) (record : AuditRecord) : Reading :=
  match record.usage with
  | none =>
      { reading with
        coverage := ⟨reading.coverage.accepted + 1, reading.coverage.metered⟩ }
  | some usage =>
      { reading with
        coverage := ⟨reading.coverage.accepted + 1, reading.coverage.metered + 1⟩
        groups := accumulateInto reading.groups (record.machineId, record.model) usage
        effortGroups := accumulateInto reading.effortGroups record.reasoningEffort usage }

/-- `u8::is_ascii_whitespace`. -/
def isAsciiWhitespace (b : UInt8) : Bool :=
  b == space || b == tab || b == lf || b == 0x0C || b == cr

/-- `slice::strip_suffix` of one octet, which keeps the slice when it does not
end in it. -/
def stripSuffix (suffix : UInt8) (line : Bytes) : Bytes :=
  if line.getLast? = some suffix then line.dropLast else line

/-- One line of the file, with its newline if it has one. -/
def Reading.line (reading : Reading) (line : Bytes) : Reading :=
  let terminated := line.getLast? = some lf
  let record := stripSuffix cr (if terminated then line.dropLast else line)
  match AuditRecord.fromSlice record with
  | some record =>
      if record.Canonical then reading.account record else reading
  | none =>
      if terminated then
        { reading with
          warnings := ⟨reading.warnings.partialTail, reading.warnings.unparseable + 1⟩ }
      -- A crash can leave a trailing unfinished line.
      else if record.all isAsciiWhitespace = false then
        { reading with warnings := ⟨true, reading.warnings.unparseable⟩ }
      else reading

/-- `BufRead::read_until`: the octets up to and including the delimiter, and the
rest of the file. -/
def readUntil (delimiter : UInt8) : Bytes → Bytes × Bytes
  | [] => ([], [])
  | b :: file =>
      if b = delimiter then ([b], file)
      else (b :: (readUntil delimiter file).1, (readUntil delimiter file).2)

theorem readUntil_append (delimiter : UInt8) (file : Bytes) :
    (readUntil delimiter file).1 ++ (readUntil delimiter file).2 = file := by
  induction file with
  | nil => rfl
  | cons b file ih =>
      rw [readUntil]
      split
      · rfl
      · rw [List.cons_append, ih]

/-- The loop over the lines of the file.  A line without a newline is the last. -/
def Reading.loop (reading : Reading) (file : Bytes) : Reading :=
  let line := (readUntil lf file).1
  if line = [] then reading
  else if line.getLast? = some lf then (reading.line line).loop (readUntil lf file).2
  else reading.line line
termination_by file.length
decreasing_by
  have parts := congrArg List.length (readUntil_append lf file)
  rw [List.length_append] at parts
  have more : 0 < (readUntil lf file).1.length := List.length_pos_iff.mpr ‹_›
  omega

/-- Read the contents of a usage file. -/
def readUsageFile (file : Bytes) : Reading := Reading.start.loop file

end Debitmetre
