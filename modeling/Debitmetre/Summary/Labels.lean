import Debitmetre.Summary.Render

/-!
# Labels of groups

Which groups of a summary cannot be told apart by what is printed before their
counters: those whose texts differ in trailing blanks only, those whose machine runs
into the column of the model, and the group without a model or effort from one that is
called a dash.
-/

namespace Debitmetre

open Wire Wire.Ascii Columns

/-- Keys of machines and models that are printed alike. -/
def GroupKey.Alike (first second : GroupKey) : Prop :=
  SamePair ' ' MACHINE_W MODEL_W first.texts second.texts

/-- Efforts that are printed alike. -/
def EffortKey.Alike (first second : EffortKey) : Prop :=
  SameIn ' ' MACHINE_W (EffortKey.text first) (EffortKey.text second)

theorem GroupKey.label_eq_iff (first second : GroupKey) :
    first.label = second.label ↔ first.Alike second :=
  alignPair_eq_iff ' ' MACHINE_W MODEL_W first.texts second.texts

theorem EffortKey.label_eq_iff (first second : EffortKey) :
    EffortKey.label first = EffortKey.label second ↔ EffortKey.Alike first second :=
  alignLeft_eq_iff ' ' MACHINE_W (EffortKey.text first) (EffortKey.text second)

/-- Groups whose lines start with labels of their own. -/
structure Told (reading : Reading) : Prop where
  groups : ∀ first ∈ reading.groups.toList, ∀ second ∈ reading.groups.toList,
    first.1 ≠ second.1 → first.1.label ≠ second.1.label
  efforts : ∀ first ∈ reading.effortGroups.toList, ∀ second ∈ reading.effortGroups.toList,
    first.1 ≠ second.1 → EffortKey.label first.1 ≠ EffortKey.label second.1

section Keys

variable {κ κ' : Type} (cmp : κ → κ → Ordering) (cmp' : κ' → κ' → Ordering)
  [Std.TransCmp cmp] [Std.LawfulEqCmp cmp] [DecidableEq κ] [Std.TransCmp cmp']
  [Std.LawfulEqCmp cmp'] [DecidableEq κ']

/-- Pairs of lines of two tables are those of pairs of records with usage. -/
theorem forall_toList_rowsBy_pair (key : AuditRecord → κ) (key' : AuditRecord → κ')
    (records : List AuditRecord) (holds : κ → GroupTotals → κ' → GroupTotals → Prop) :
    (∀ first ∈ (Tally.tally (rowsBy key records) : Std.ExtTreeMap κ GroupTotals cmp).toList,
        ∀ second ∈ (Tally.tally (rowsBy key' records) : Std.ExtTreeMap κ' GroupTotals cmp').toList,
          holds first.1 first.2 second.1 second.2) ↔
      ∀ first ∈ records, first.usage.isSome = true →
        ∀ second ∈ records, second.usage.isSome = true →
          holds (key first) (totalsOf key records (key first)) (key' second)
            (totalsOf key' records (key' second)) := by
  have inner := fun own totals => forall_toList_rowsBy cmp' key' records (holds own totals)
  simp only [inner]
  exact forall_toList_rowsBy cmp key records fun own totals =>
    ∀ record ∈ records, record.usage.isSome = true →
      holds own totals (key' record) (totalsOf key' records (key' record))

/-- Pairs of keys of a table are those of pairs of records with usage. -/
theorem forall_toList_tally_pair (key : AuditRecord → κ) (records : List AuditRecord)
    (holds : κ → κ → Prop) :
    (∀ first ∈ (Tally.tally (rowsBy key records) : Std.ExtTreeMap κ GroupTotals cmp).toList,
        ∀ second ∈ (Tally.tally (rowsBy key records) : Std.ExtTreeMap κ GroupTotals cmp).toList,
          holds first.1 second.1) ↔
      ∀ first ∈ records, first.usage.isSome = true →
        ∀ second ∈ records, second.usage.isSome = true → holds (key first) (key second) :=
  forall_toList_rowsBy_pair cmp cmp key key records fun first _ second _ => holds first second

end Keys

/-- Groups can be told apart by their labels if and only if no two records with usage
have different keys, in one of the tables, that are printed alike. -/
theorem told_readUsageFile (file : Bytes) :
    Told (readUsageFile file) ↔
      (∀ first ∈ counted file, first.usage.isSome = true →
        ∀ second ∈ counted file, second.usage.isSome = true →
          first.groupKey ≠ second.groupKey → ¬ first.groupKey.Alike second.groupKey) ∧
      ∀ first ∈ counted file, first.usage.isSome = true →
        ∀ second ∈ counted file, second.usage.isSome = true →
          first.reasoningEffort ≠ second.reasoningEffort →
            ¬ EffortKey.Alike first.reasoningEffort second.reasoningEffort := by
  have machines := forall_toList_tally_pair GroupKey.cmp AuditRecord.groupKey (counted file)
    fun first second => first ≠ second → ¬ first.Alike second
  have efforts := forall_toList_tally_pair compare AuditRecord.reasoningEffort (counted file)
    fun first second => first ≠ second → ¬ EffortKey.Alike first second
  rw [← machines, ← efforts, ← groups_readUsageFile, ← effortGroups_readUsageFile]
  simp only [← GroupKey.label_eq_iff, ← EffortKey.label_eq_iff]
  exact ⟨fun told => ⟨told.groups, told.efforts⟩, fun told => ⟨told.1, told.2⟩⟩

/-- **Groups can be told apart by their labels** if and only if no two records with usage
have different keys that are printed alike: equal up to trailing blanks in a column they
fit, a missing one as a dash, or a machine that runs into the model. -/
theorem told_readUsageFile_iff (file : Bytes) :
    Told (readUsageFile file) ↔
      ∀ first ∈ counted file, first.usage.isSome = true →
        ∀ second ∈ counted file, second.usage.isSome = true →
          (first.groupKey ≠ second.groupKey → ¬ first.groupKey.Alike second.groupKey) ∧
          (first.reasoningEffort ≠ second.reasoningEffort →
            ¬ EffortKey.Alike first.reasoningEffort second.reasoningEffort) := by
  rw [told_readUsageFile]
  constructor
  · rintro ⟨machines, efforts⟩ first member used second member' used'
    exact ⟨machines first member used second member' used',
      efforts first member used second member' used'⟩
  · intro told
    exact ⟨fun first member used second member' used' =>
        (told first member used second member' used').1,
      fun first member used second member' used' =>
        (told first member used second member' used').2⟩

/-- A metered request that declares an effort, or none. -/
def declaring (effort : Option String) : Submission where
  record :=
    { AuditRecord.new ⟨"0", "2026-01-01T00:00:00Z"⟩ "laptop" .response with
      reasoningEffort := effort
      usage := some ⟨some 1, none, none, none, some 1, none, some 2⟩ }
  canonical := ⟨rfl, rfl⟩

/-- An effort that is called a dash looks like none. -/
theorem not_told_dash : ¬ ∀ file, Told (readUsageFile file) := by
  intro told
  let entries := [declaring none, declaring (some "-")]
  have efforts := (told (written entries)).efforts
  rw [effortGroups_readUsageFile, counted_written] at efforts
  have apart := (forall_toList_tally_pair compare AuditRecord.reasoningEffort
    (entries.map Submission.record) fun first second =>
      first ≠ second → EffortKey.label first ≠ EffortKey.label second).mp efforts
  exact apart _ (List.mem_cons_self) rfl _ (List.mem_cons_of_mem _ List.mem_cons_self) rfl nofun rfl

end Debitmetre
