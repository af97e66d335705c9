import Debitmetre.Foundation.Tally
import Debitmetre.Summary.Accounting
import Mathlib.Algebra.GroupWithZero.Nat
import Mathlib.Data.List.ReduceOption

/-!
# Conservation of the summary

Both tables of the summary are tallies of the same rows, booked under different
keys.  Rows are added column by column, counters saturate and a missing counter
adds nothing, so rows form a commutative monoid and the tables inherit what
holds of every tally: the order of the lines does not matter, files may be read
apart and merged, and each column comes to the same value in both tables.
-/

namespace Debitmetre

open Wire Wire.Ascii

/-- A saturating sum is the exact one, or the greatest number. -/
theorem saturatingAdd_toNat (a b : UInt64) :
    (saturatingAdd a b).toNat = min (UInt64.size - 1) (a.toNat + b.toNat) := by
  unfold saturatingAdd
  split
  · rename_i small
    rw [UInt64.toNat_add, Nat.mod_eq_of_lt small]
    omega
  · rename_i large
    have top : (0xFFFFFFFFFFFFFFFF : UInt64).toNat = UInt64.size - 1 := rfl
    omega

/-- Saturating addition is commutative. -/
theorem saturatingAdd_comm (a b : UInt64) : saturatingAdd a b = saturatingAdd b a := by
  apply UInt64.toNat_inj.mp
  rw [saturatingAdd_toNat, saturatingAdd_toNat, Nat.add_comm]

/-- Saturating addition is associative: once it is full a sum stays full. -/
theorem saturatingAdd_assoc (a b c : UInt64) :
    saturatingAdd (saturatingAdd a b) c = saturatingAdd a (saturatingAdd b c) := by
  apply UInt64.toNat_inj.mp
  simp only [saturatingAdd_toNat]
  omega

/-- Zero adds nothing. -/
theorem zero_saturatingAdd (a : UInt64) : saturatingAdd 0 a = a := by
  apply UInt64.toNat_inj.mp
  have bound : a.toNat < UInt64.size := a.toNat_lt_size
  rw [saturatingAdd_toNat, UInt64.toNat_zero]
  omega

instance : Std.Commutative saturatingAdd := ⟨saturatingAdd_comm⟩

instance : Std.Associative saturatingAdd := ⟨saturatingAdd_assoc⟩

/-- Adding treats a missing counter as the identity, on either side. -/
theorem add_eq_merge (sum value : Option UInt64) :
    add sum value = Option.merge saturatingAdd sum value := by
  cases sum <;> cases value <;> simp only [add, Option.merge, Option.getD, zero_saturatingAdd]

/-- The exact sum of the counters that are present, cut off at the largest
counter; absent if none is. -/
def exactSum (counters : List (Option UInt64)) : Option UInt64 :=
  let present := counters.reduceOption
  if present = [] then none
  else some (min (UInt64.size - 1) (present.map UInt64.toNat).sum).toUInt64

/-- Optional counters are added in either order. -/
theorem add_comm' (sum value : Option UInt64) : add sum value = add value sum := by
  rw [add_eq_merge, add_eq_merge]
  exact Std.Commutative.comm sum value

/-- Optional counters are added in any grouping. -/
theorem add_assoc' (first second third : Option UInt64) :
    add (add first second) third = add first (add second third) := by
  simp only [add_eq_merge]
  exact Std.Associative.assoc first second third

/-- A counter that is missing adds nothing. -/
theorem none_add (value : Option UInt64) : add none value = value := by
  rw [add_eq_merge, Option.merge_none_left]

/-- An exact sum with one more counter. -/
theorem exactSum_concat (counters : List (Option UInt64)) (counter : Option UInt64) :
    exactSum (counters ++ [counter]) = add (exactSum counters) counter := by
  cases counter with
  | none =>
      simp only [exactSum, List.reduceOption_append, List.reduceOption_cons_of_none,
        List.reduceOption_nil, List.append_nil, add]
  | some v =>
      simp only [exactSum, List.reduceOption_append, List.reduceOption_cons_of_some,
        List.reduceOption_nil, List.append_eq_nil_iff, List.cons_ne_self, and_false, ↓reduceIte,
        List.map_append, List.map_cons, List.map_nil, List.sum_append, List.sum_singleton, add,
        Option.some.injEq]
      have bound := v.toNat_lt
      apply UInt64.toNat_inj.mp
      rw [saturatingAdd_toNat, UInt64.toNat_ofNat_of_lt' (by simp only [UInt64.size]; omega)]
      split
      · rename_i empty
        simp only [empty, List.map_nil, List.sum_nil, Option.getD_none, UInt64.toNat_zero]
      · rw [Option.getD_some, UInt64.toNat_ofNat_of_lt' (by simp only [UInt64.size]; omega)]
        omega

/-- Counters added up one after another come to their exact sum. -/
theorem foldl_add (counters : List (Option UInt64)) :
    counters.foldl add none = exactSum counters := by
  induction counters using List.reverseRecOn with
  | nil => rfl
  | append_singleton counters counter ih =>
      rw [List.foldl_append, ih, List.foldl_cons, List.foldl_nil, exactSum_concat]

/-- The seven counters of a usage object. -/
inductive Counter
  | inputTotal
  | uncached
  | cacheRead
  | cacheWrite
  | outputTotal
  | reasoning
  | total
  deriving DecidableEq, Repr

/-- The counter of a usage object in a column. -/
def Usage.counter (usage : Usage) : Counter → Option UInt64
  | .inputTotal => usage.inputTotal
  | .uncached => usage.uncached
  | .cacheRead => usage.cacheRead
  | .cacheWrite => usage.cacheWrite
  | .outputTotal => usage.outputTotal
  | .reasoning => usage.reasoning
  | .total => usage.total

namespace GroupTotals

/-- The column of a counter. -/
def counter (totals : GroupTotals) : Counter → Option UInt64
  | .inputTotal => totals.inputTotal
  | .uncached => totals.uncached
  | .cacheRead => totals.cacheRead
  | .cacheWrite => totals.cacheWrite
  | .outputTotal => totals.outputTotal
  | .reasoning => totals.reasoning
  | .total => totals.total

/-- Two rows added column by column. -/
def merge (first second : GroupTotals) : GroupTotals where
  records := first.records + second.records
  inputTotal := add first.inputTotal second.inputTotal
  uncached := add first.uncached second.uncached
  cacheRead := add first.cacheRead second.cacheRead
  cacheWrite := add first.cacheWrite second.cacheWrite
  outputTotal := add first.outputTotal second.outputTotal
  reasoning := add first.reasoning second.reasoning
  total := add first.total second.total

/-- A row is its number of records and its counters. -/
theorem ext_counter {first second : GroupTotals} (records : first.records = second.records)
    (counters : ∀ c, first.counter c = second.counter c) : first = second :=
  GroupTotals.ext records (counters .inputTotal) (counters .uncached) (counters .cacheRead)
    (counters .cacheWrite) (counters .outputTotal) (counters .reasoning) (counters .total)

/-- Totals are merged column by column. -/
@[simp] theorem counter_merge (first second : GroupTotals) (c : Counter) :
    (first.merge second).counter c = add (first.counter c) (second.counter c) := by
  cases c <;> rfl

/-- No column of fresh totals has a counter. -/
@[simp] theorem counter_default (c : Counter) : default.counter c = none := by
  cases c <;> rfl

instance : Add GroupTotals := ⟨merge⟩

instance : Zero GroupTotals := ⟨default⟩

instance : AddCommMonoid GroupTotals where
  add_assoc first second third := ext_counter (Nat.add_assoc ..) fun c => by
    change ((first.merge second).merge third).counter c =
      (first.merge (second.merge third)).counter c
    simp only [counter_merge, add_assoc']
  add_comm first second := ext_counter (Nat.add_comm ..) fun c => by
    change (first.merge second).counter c = (second.merge first).counter c
    simp only [counter_merge, add_comm' (first.counter c)]
  zero_add totals := ext_counter (Nat.zero_add _) fun c => by
    change (merge default totals).counter c = totals.counter c
    rw [counter_merge, counter_default, none_add]
  add_zero totals := ext_counter (Nat.add_zero _) fun c => by
    change (totals.merge default).counter c = totals.counter c
    rw [counter_merge, counter_default, add_comm', none_add]
  nsmul := nsmulRec

/-- The row of one usage object. -/
def ofUsage (usage : Usage) : GroupTotals := accumulateUsage default usage

/-- The totals of one usage object are its counters. -/
@[simp] theorem counter_ofUsage (usage : Usage) (c : Counter) :
    (ofUsage usage).counter c = usage.counter c := by
  cases c <;> exact none_add _

/-- Accumulating a usage object adds its row. -/
theorem accumulateUsage_eq (totals : GroupTotals) (usage : Usage) :
    accumulateUsage totals usage = totals + ofUsage usage := by
  apply ext_counter
  · change totals.records + 1 = totals.records + (0 + 1)
    rw [Nat.zero_add]
  · intro c
    change _ = (totals.merge (ofUsage usage)).counter c
    rw [counter_merge, counter_ofUsage]
    cases c <;> rfl

/-- Totals are added column by column. -/
@[simp] theorem counter_add (first second : GroupTotals) (c : Counter) :
    (first + second).counter c = add (first.counter c) (second.counter c) :=
  counter_merge first second c

/-- A column of a sum is the column's sum. -/
theorem counter_sum (rows : List GroupTotals) (c : Counter) :
    rows.sum.counter c = (rows.map (·.counter c)).foldl add none := by
  induction rows using List.reverseRecOn with
  | nil => exact counter_default c
  | append_singleton rows row ih =>
      rw [List.sum_append, List.sum_singleton, counter_add, ih, List.map_append, List.foldl_append]
      rfl

/-- The records of a sum are counted together. -/
theorem records_sum (rows : List GroupTotals) :
    rows.sum.records = (rows.map (·.records)).sum := by
  induction rows with
  | nil => rfl
  | cons row rows ih =>
      rw [List.sum_cons, List.map_cons, List.sum_cons, ← ih]
      rfl

end GroupTotals

/-- The rows of some records under a key of each. -/
def rowsBy {κ : Type} (key : AuditRecord → κ) (records : List AuditRecord) :
    List (κ × GroupTotals) :=
  records.filterMap fun record => record.usage.map fun usage => (key record, .ofUsage usage)

/-- The key of a record in the table of machines and models. -/
def AuditRecord.groupKey (record : AuditRecord) : GroupKey := (record.machineId, record.model)

/-- The usage objects of the records that have one. -/
def usages (records : List AuditRecord) : List Usage := records.filterMap AuditRecord.usage

/-- A usage object is booked under its key. -/
theorem accumulateInto_eq {κ : Type} {cmp : κ → κ → Ordering} [Std.TransCmp cmp]
    (groups : Std.ExtTreeMap κ GroupTotals cmp) (key : κ) (usage : Usage) :
    accumulateInto groups key usage = Tally.book groups (key, .ofUsage usage) := by
  simp only [accumulateInto, GroupTotals.accumulateUsage_eq]
  rfl

/-- Whatever they are booked under, the amounts are those of the usage objects. -/
theorem rowsBy_map_snd {κ : Type} (key : AuditRecord → κ) (records : List AuditRecord) :
    (rowsBy key records).map Prod.snd = (usages records).map GroupTotals.ofUsage := by
  simp only [rowsBy, usages, List.map_filterMap, Option.map_map, Function.comp_def]

/-- **The summary of some records**: both tables are tallies of the records'
rows, and the coverage counts the records and those with usage. -/
theorem Reading.accounted_eq (records : List AuditRecord) :
    Reading.accounted records =
      { groups := Tally.tally (rowsBy AuditRecord.groupKey records)
        effortGroups := Tally.tally (rowsBy AuditRecord.reasoningEffort records)
        coverage := ⟨records.length, (usages records).length⟩
        warnings := ⟨false, 0⟩ } := by
  induction records using List.reverseRecOn with
  | nil => rfl
  | append_singleton records record ih =>
      rw [Reading.accounted, List.foldl_append, ← Reading.accounted, ih, List.foldl_cons,
        List.foldl_nil, Reading.account]
      cases used : record.usage with
      | none =>
          simp only [rowsBy, usages, List.filterMap_append, List.filterMap_cons, used,
            Option.map_none, List.filterMap_nil, List.append_nil, List.length_append,
            List.length_singleton]
      | some usage =>
          simp only [rowsBy, usages, List.filterMap_append, List.filterMap_cons, used,
            Option.map_some, List.filterMap_nil, List.length_append, List.length_singleton,
            Tally.tally, List.foldl_append, List.foldl_cons, List.foldl_nil, accumulateInto_eq,
            AuditRecord.groupKey]

/-- A column merged over all rows of a table. -/
def columnTotal {κ : Type} {cmp : κ → κ → Ordering} [Std.TransCmp cmp] (c : Counter)
    (groups : Std.ExtTreeMap κ GroupTotals cmp) : Option UInt64 :=
  groups.foldl (fun sum _ totals => add sum (totals.counter c)) none

/-- The records column summed over all rows of a table. -/
def recordsTotal {κ : Type} {cmp : κ → κ → Ordering} [Std.TransCmp cmp]
    (groups : Std.ExtTreeMap κ GroupTotals cmp) : Nat :=
  groups.foldl (fun sum _ totals => sum + totals.records) 0

section Tables

variable {κ : Type} {cmp : κ → κ → Ordering} [Std.TransCmp cmp]

/-- A column of a table is that of the sum of its totals. -/
theorem columnTotal_eq (c : Counter) (groups : Std.ExtTreeMap κ GroupTotals cmp) :
    columnTotal c groups = (groups.toList.map Prod.snd).sum.counter c := by
  rw [columnTotal, Std.ExtTreeMap.foldl_eq_foldl_toList, GroupTotals.counter_sum, List.foldl_map,
    List.foldl_map]

/-- The records of a table are those of the sum of its totals. -/
theorem recordsTotal_eq (groups : Std.ExtTreeMap κ GroupTotals cmp) :
    recordsTotal groups = (groups.toList.map Prod.snd).sum.records := by
  rw [recordsTotal, Std.ExtTreeMap.foldl_eq_foldl_toList, GroupTotals.records_sum,
    List.sum_eq_foldl, List.foldl_map, List.foldl_map]

variable [Std.LawfulEqCmp cmp] [DecidableEq κ]

/-- A column of the tally of some records' rows does not depend on the keys. -/
theorem columnTotal_tally (c : Counter) (key : AuditRecord → κ) (records : List AuditRecord) :
    columnTotal c (Tally.tally (rowsBy key records) : Std.ExtTreeMap κ GroupTotals cmp) =
      exactSum ((usages records).map (·.counter c)) := by
  rw [columnTotal_eq, Tally.sum_tally cmp, rowsBy_map_snd, GroupTotals.counter_sum, foldl_add,
    List.map_map]
  simp only [Function.comp_def, GroupTotals.counter_ofUsage]

/-- A table has as many records as there are with usage. -/
theorem recordsTotal_tally (key : AuditRecord → κ) (records : List AuditRecord) :
    recordsTotal (Tally.tally (rowsBy key records) : Std.ExtTreeMap κ GroupTotals cmp) =
      (usages records).length := by
  rw [recordsTotal_eq, Tally.sum_tally cmp, rowsBy_map_snd, GroupTotals.records_sum, List.map_map]
  have one : (fun totals : GroupTotals => totals.records) ∘ GroupTotals.ofUsage = fun _ => 1 := rfl
  rw [one, List.map_const', List.sum_replicate_nat, Nat.mul_one]

end Tables

/-- The first table of a file is a tally of its records. -/
theorem groups_readUsageFile (file : Bytes) :
    (readUsageFile file).groups = Tally.tally (rowsBy AuditRecord.groupKey (counted file)) := by
  rw [readUsageFile_eq, Reading.accounted_eq]
  rfl

/-- So is the second one. -/
theorem effortGroups_readUsageFile (file : Bytes) :
    (readUsageFile file).effortGroups =
      Tally.tally (rowsBy AuditRecord.reasoningEffort (counted file)) := by
  rw [readUsageFile_eq, Reading.accounted_eq]
  rfl

/-- The coverage counts the records of a file, and those with usage. -/
theorem coverage_readUsageFile (file : Bytes) :
    (readUsageFile file).coverage = ⟨(counted file).length, (usages (counted file)).length⟩ := by
  rw [readUsageFile_eq, Reading.accounted_eq]
  rfl

/-- The rows of more records come after the first ones. -/
theorem rowsBy_append {κ : Type} (key : AuditRecord → κ) (first second : List AuditRecord) :
    rowsBy key (first ++ second) = rowsBy key first ++ rowsBy key second := List.filterMap_append

/-- Files of the same lines count the same records. -/
theorem counted_perm {first second : Bytes} (terminated : Terminated first)
    (terminated' : Terminated second) (same : (lines first).Perm (lines second)) :
    (counted first).Perm (counted second) := by
  rw [counted_of_terminated terminated, counted_of_terminated terminated']
  exact same.filterMap recordOf

/-- **Conservation.** Of files whose lines all end in a newline, the tables and
the coverage depend only on the multiset of the lines; the summary of two files
one after the other is the pointwise merge of their summaries; every column has
the same total in both tables, which is the exact sum over the canonical records
with usage unless that is cut off; and the records columns add up to the metered
lifecycles, of which there are no more than accepted ones. -/
theorem readUsageFile_conserves {file other : Bytes} (terminated : Terminated file)
    (terminated' : Terminated other) :
    ((lines file).Perm (lines other) →
      (readUsageFile file).groups = (readUsageFile other).groups ∧
        (readUsageFile file).effortGroups = (readUsageFile other).effortGroups ∧
        (readUsageFile file).coverage = (readUsageFile other).coverage) ∧
    ((∀ key : GroupKey, (readUsageFile (file ++ other)).groups[key]? =
        Option.merge GroupTotals.merge (readUsageFile file).groups[key]?
          (readUsageFile other).groups[key]?) ∧
      (∀ effort : EffortKey, (readUsageFile (file ++ other)).effortGroups[effort]? =
        Option.merge GroupTotals.merge (readUsageFile file).effortGroups[effort]?
          (readUsageFile other).effortGroups[effort]?) ∧
      (readUsageFile (file ++ other)).coverage =
        ⟨(readUsageFile file).coverage.accepted + (readUsageFile other).coverage.accepted,
          (readUsageFile file).coverage.metered + (readUsageFile other).coverage.metered⟩) ∧
    (∀ c, columnTotal c (readUsageFile file).groups =
          exactSum ((usages (counted file)).map (·.counter c)) ∧
        columnTotal c (readUsageFile file).effortGroups =
          exactSum ((usages (counted file)).map (·.counter c)) ∧
        ((usages (counted file)).map (·.counter c)).foldl add none =
          exactSum ((usages (counted file)).map (·.counter c))) ∧
    recordsTotal (readUsageFile file).groups = (readUsageFile file).coverage.metered ∧
    recordsTotal (readUsageFile file).effortGroups = (readUsageFile file).coverage.metered ∧
    (readUsageFile file).coverage.metered ≤ (readUsageFile file).coverage.accepted := by
  simp only [groups_readUsageFile, effortGroups_readUsageFile, coverage_readUsageFile,
    counted_append terminated, rowsBy_append]
  refine ⟨fun same => ?_, ⟨fun key => ?_, fun effort => ?_, ?_⟩, fun c => ⟨?_, ?_, ?_⟩, ?_, ?_, ?_⟩
  · have records := counted_perm terminated terminated' same
    exact ⟨Tally.tally_perm (records.filterMap _), Tally.tally_perm (records.filterMap _),
      Coverage.ext records.length_eq (records.filterMap _).length_eq⟩
  · exact Tally.getElem?_tally_append _ _ key
  · exact Tally.getElem?_tally_append _ _ effort
  · simp only [usages, List.filterMap_append, List.length_append]
  · exact columnTotal_tally c AuditRecord.groupKey (counted file)
  · exact columnTotal_tally c AuditRecord.reasoningEffort (counted file)
  · exact foldl_add _
  · exact recordsTotal_tally AuditRecord.groupKey (counted file)
  · exact recordsTotal_tally AuditRecord.reasoningEffort (counted file)
  · exact List.length_filterMap_le AuditRecord.usage (counted file)

/-- A line with its newline is a whole line. -/
theorem terminated_line (record : AuditRecord) : Terminated (record.toVec ++ [lf]) := by
  intro b last
  rw [List.getLast?_concat] at last
  exact (Option.some.inj last).symm

/-- The coverage of a file with two lines, one of a metered request and one of a request
without a usage, is that of both lines. -/
theorem readUsageFile_conserves_lines :
    let laptop : AuditRecord :=
      { AuditRecord.new ⟨"a", "t"⟩ "laptop" .response with
        usage := some ⟨some 7, none, some 0, none, some 1, none, some 8⟩ }
    let desktop := AuditRecord.new ⟨"b", "t"⟩ "desktop" .compaction
    (readUsageFile ((laptop.toVec ++ [lf]) ++ (desktop.toVec ++ [lf]))).coverage =
      ⟨(readUsageFile (laptop.toVec ++ [lf])).coverage.accepted +
          (readUsageFile (desktop.toVec ++ [lf])).coverage.accepted,
        (readUsageFile (laptop.toVec ++ [lf])).coverage.metered +
          (readUsageFile (desktop.toVec ++ [lf])).coverage.metered⟩ :=
  (readUsageFile_conserves (terminated_line _) (terminated_line _)).2.1.2.2

end Debitmetre
