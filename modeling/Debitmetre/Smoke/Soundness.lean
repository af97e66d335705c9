import Debitmetre.Smoke.LoadReport
import Debitmetre.Wire.Json.Repeated
import Mathlib.Algebra.Order.BigOperators.Group.List
import Mathlib.Algebra.Order.Group.Nat

/-!
# Soundness of the smoke gate

A report that is accepted for a number of requests says that so many succeeded and that
none failed, unless something that it lists is lost when it is read: a number that is no
64-bit integer, a sum that overflows, an entry that a later one of its key replaces, or
one of a distribution that is no object.
-/

namespace Debitmetre.Smoke

open Wire Wire.Json

variable {F : Type}

/-- The integer that a value counts as. -/
def counted64 (value : Value F) : Nat := (value.asU64.getD 0).toNat

/-- One more count in a sum that wraps around. -/
theorem wrapping_add (sum count : UInt64) (rest : Nat) :
    ((sum + count).toNat + rest) % UInt64.size =
      (sum.toNat + (count.toNat + rest)) % UInt64.size := by
  rw [UInt64.toNat_add, ← Nat.add_assoc]
  exact Nat.mod_add_mod _ _ _

theorem foldl_addError (entries : List (String × Value F)) (errors : UInt64) :
    (entries.foldl addError errors).toNat =
      (errors.toNat + (entries.map fun entry => counted64 entry.2).sum) % UInt64.size := by
  induction entries generalizing errors with
  | nil => exact (Nat.mod_eq_of_lt errors.toNat_lt).symm
  | cons entry entries ih =>
      rw [List.foldl_cons, ih, List.map_cons, List.sum_cons, addError]
      exact wrapping_add _ _ _

/-- The two sums of a status distribution, up to multiples of `2 ^ 64`. -/
theorem foldl_addStatus (entries : List (String × Value F)) (sums : UInt64 × UInt64) :
    (entries.foldl addStatus sums).1.toNat =
        (sums.1.toNat + ((entries.filter fun entry => isSuccessKey entry.1).map fun entry =>
          counted64 entry.2).sum) % UInt64.size ∧
      (entries.foldl addStatus sums).2.toNat =
        (sums.2.toNat + ((entries.filter fun entry => !isSuccessKey entry.1).map fun entry =>
          counted64 entry.2).sum) % UInt64.size := by
  induction entries generalizing sums with
  | nil => exact ⟨(Nat.mod_eq_of_lt sums.1.toNat_lt).symm, (Nat.mod_eq_of_lt sums.2.toNat_lt).symm⟩
  | cons entry entries ih =>
      obtain ⟨completed, errors⟩ := ih (addStatus sums entry)
      rw [List.foldl_cons, completed, errors, List.filter_cons, List.filter_cons, addStatus]
      by_cases success : isSuccessKey entry.1 = true
      · simp only [success, ↓reduceIte, Bool.not_true, Bool.false_eq_true, List.map_cons,
          List.sum_cons, and_true]
        exact wrapping_add _ _ _
      · simp only [success, ↓reduceIte, Bool.not_false, Bool.false_eq_true, List.map_cons,
          List.sum_cons, true_and]
        exact wrapping_add _ _ _

/-- What a distribution lists: the entries of an object under their keys, the items of
an array, and a value that is neither, unless it is null. -/
def entriesOf : Json → List (Option String × Json)
  | .obj members => spelled members
  | .arr items => items.map fun item => (none, item)
  | .null => []
  | other => [(none, other)]

/-- All values under a name in a report. -/
def distributions (name : String) : Json → List Json
  | .obj members => listed name members
  | _ => []

/-- All that a report lists under a name. -/
def entries (name : String) (tree : Json) : List (Option String × Json) :=
  (distributions name tree).flatMap entriesOf

/-- The entries of a distribution that are read: the last of each key. -/
def readOf : Json → List (Option String × Json)
  | .obj members => standing (spelled members)
  | _ => []

/-- The other entries of a distribution. -/
def unreadOf : Json → List (Option String × Json)
  | .obj members => overwritten (spelled members)
  | other => entriesOf other

/-- The entries that are read of a report: those of the last distribution of a name. -/
def readEntries (name : String) (tree : Json) : List (Option String × Json) :=
  (distributions name tree).getLast?.elim [] readOf

/-- The other entries of a report. -/
def unreadEntries (name : String) (tree : Json) : List (Option String × Json) :=
  (distributions name tree).dropLast.flatMap entriesOf ++
    (distributions name tree).getLast?.elim [] unreadOf

theorem perm_entriesOf (value : Json) :
    (entriesOf value).Perm (readOf value ++ unreadOf value) := by
  cases value with
  | obj members => exact perm_standing (spelled members)
  | null | bool | num | str | arr => exact .refl _

/-- What is listed is read or it is not. -/
theorem perm_entries (name : String) (tree : Json) :
    (entries name tree).Perm (readEntries name tree ++ unreadEntries name tree) := by
  rw [entries, readEntries, unreadEntries]
  cases last : (distributions name tree).getLast? with
  | none =>
      rw [List.getLast?_eq_none_iff.mp last]
      exact .nil
  | some value =>
      obtain ⟨earlier, shape⟩ := List.getLast?_eq_some_iff.mp last
      rw [shape, List.dropLast_concat, List.flatMap_append, List.flatMap_singleton]
      exact ((perm_entriesOf value).append_left _).trans (List.perm_append_comm_assoc _ _ _)

section Counts

variable {ofLit : NumLit → Option F} {tree : Json} {root : Value F}

/-- **What is read of a distribution** is what the map of its members holds. -/
theorem perm_distribution (read : toValue ofLit tree = some root) (name : String) :
    ((((root.get name).bind Value.asObject).getD []).map fun entry =>
        (some entry.1, some entry.2)).Perm
      ((readEntries name tree).map fun entry => (entry.1, toValue ofLit entry.2)) := by
  cases tree with
  | obj members =>
      obtain ⟨values, held, rfl⟩ := Option.map_eq_some_iff.mp read
      have found : (Value.object values).get name =
          (listed name members).getLast?.elim none (toValue ofLit) :=
        lookup_toMembers held name
      rw [found, readEntries, distributions]
      cases last : (listed name members).getLast? with
      | none => exact .nil
      | some value =>
          obtain ⟨member, inside, own⟩ := List.mem_map.mp (List.mem_of_getLast? last)
          have readable : value.Readable ofLit := by
            rw [← own]
            refine ReadableMembers.of_mem ?_ (List.mem_of_mem_filter inside)
            rw [← isSome_toMembers ofLit members [], held, Option.isSome_some]
          obtain ⟨decoded, same⟩ := Option.isSome_iff_exists.mp
            ((isSome_toValue ofLit value).mpr readable)
          rw [Option.elim_some, Option.elim_some, same, Option.bind_some]
          cases value with
          | obj inner =>
              obtain ⟨values, held, rfl⟩ := Option.map_eq_some_iff.mp same
              exact perm_toMembers List.Pairwise.nil held
          | arr items =>
              obtain ⟨_, -, rfl⟩ := Option.map_eq_some_iff.mp same
              exact .nil
          | num literal | str literal =>
              obtain ⟨_, -, rfl⟩ := Option.map_eq_some_iff.mp same
              exact .nil
          | null | bool =>
              cases same
              exact .nil
  | arr items =>
      obtain ⟨_, -, rfl⟩ := Option.map_eq_some_iff.mp read
      exact .nil
  | num literal | str literal =>
      obtain ⟨_, -, rfl⟩ := Option.map_eq_some_iff.mp read
      exact .nil
  | null | bool =>
      cases read
      exact .nil

variable (ofLit) in
/-- The integer that an entry counts as. -/
def count64 (value : Json) : Nat := (toValue ofLit value).elim 0 counted64

/-- What is added up of a distribution. -/
theorem sum_distribution (read : toValue ofLit tree = some root) (name : String)
    (wanted : Option String → Bool) :
    (((((root.get name).bind Value.asObject).getD []).filter fun entry =>
        wanted (some entry.1)).map fun entry => counted64 entry.2).sum =
      (((readEntries name tree).filter fun entry => wanted entry.1).map fun entry =>
        count64 ofLit entry.2).sum := by
  have same := (((perm_distribution read name).filter fun entry => wanted entry.1).map
    fun entry => entry.2.elim 0 counted64).sum_eq
  rw [List.filter_map, List.filter_map, List.map_map, List.map_map] at same
  exact same

/-- The entries of a status distribution that stand for successes. -/
def successes (entries : List (Option String × Json)) : List Json :=
  (entries.filter fun entry => entry.1.any isSuccessKey).map Prod.snd

/-- All other entries of a status distribution. -/
def failures (entries : List (Option String × Json)) : List Json :=
  (entries.filter fun entry => !entry.1.any isSuccessKey).map Prod.snd

/-- What the sums of a report are, up to multiples of `2 ^ 64`. -/
theorem toNat_accounting (read : toValue ofLit tree = some root) :
    (accounting root).1.toNat =
        ((successes (readEntries "statusCodeDistribution" tree)).map (count64 ofLit)).sum %
          UInt64.size ∧
      (accounting root).2.toNat =
        (((failures (readEntries "statusCodeDistribution" tree)).map (count64 ofLit)).sum +
          ((readEntries "errorDistribution" tree).map fun entry => count64 ofLit entry.2).sum) %
            UInt64.size := by
  obtain ⟨completed, errors⟩ := foldl_addStatus (statusCodeDistribution root) (0, 0)
  have succeeded := sum_distribution read "statusCodeDistribution" (Option.any isSuccessKey)
  have failed := sum_distribution read "statusCodeDistribution" fun key => !key.any isSuccessKey
  have labelled := sum_distribution read "errorDistribution" fun _ => true
  rw [List.filter_true, List.filter_true] at labelled
  constructor
  · rw [accounting, completed, UInt64.toNat_zero, Nat.zero_add, successes, List.map_map]
    exact congrArg (· % UInt64.size) succeeded
  · rw [accounting, foldl_addError, errors, UInt64.toNat_zero, Nat.zero_add, failures,
      List.map_map]
    rw [Nat.mod_add_mod]
    exact congrArg (· % UInt64.size) (congrArg₂ (· + ·) failed labelled)

/-- The successes that are listed are those that are read and those that are not. -/
theorem perm_successes (tree : Json) :
    (successes (entries "statusCodeDistribution" tree)).Perm
      (successes (readEntries "statusCodeDistribution" tree) ++
        successes (unreadEntries "statusCodeDistribution" tree)) := by
  rw [successes, successes, successes, ← List.map_append, ← List.filter_append]
  exact ((perm_entries "statusCodeDistribution" tree).filter _).map _

end Counts

section Soundness

variable (ofLit : NumLit → Option F) (natural? : F → Option Nat)

/-- The natural number that a value is. -/
def count? : Value F → Option Nat
  | .number (.posInt n) => some n.toNat
  | .number (.float x) => natural? x
  | _ => none

/-- The natural number that an entry is. -/
def countOf (value : Json) : Option Nat := (toValue ofLit value).bind (count? natural?)

/-- As many requests succeeded as were asked for, and none failed. -/
structure Sound (tree : Json) (requested : Nat) : Prop where
  counts : ∀ value ∈ successes (entries "statusCodeDistribution" tree),
    (countOf ofLit natural? value).isSome
  exact : ((successes (entries "statusCodeDistribution" tree)).map fun value =>
    (countOf ofLit natural? value).getD 0).sum = requested
  statuses : ∀ value ∈ failures (entries "statusCodeDistribution" tree),
    countOf ofLit natural? value = some 0
  errors : ∀ entry ∈ entries "errorDistribution" tree, countOf ofLit natural? entry.2 = some 0

/-- An entry is a 64-bit integer or zero. -/
def IsInteger (value : Json) : Prop :=
  ((toValue ofLit value).bind Value.asU64).isSome ∨ countOf ofLit natural? value = some 0

/-- Nothing is lost of a report: what is read of it is integers, of which the sums do not
overflow, and what is not read is zero. -/
structure Plain (tree : Json) : Prop where
  statuses : ∀ entry ∈ readEntries "statusCodeDistribution" tree,
    IsInteger ofLit natural? entry.2
  errors : ∀ entry ∈ readEntries "errorDistribution" tree, IsInteger ofLit natural? entry.2
  unreadStatuses : ∀ entry ∈ unreadEntries "statusCodeDistribution" tree,
    countOf ofLit natural? entry.2 = some 0
  unreadErrors : ∀ entry ∈ unreadEntries "errorDistribution" tree,
    countOf ofLit natural? entry.2 = some 0
  completedFit : ((successes (readEntries "statusCodeDistribution" tree)).map
    (count64 ofLit)).sum < UInt64.size
  failedFit : ((failures (readEntries "statusCodeDistribution" tree)).map (count64 ofLit)).sum +
    ((readEntries "errorDistribution" tree).map fun entry => count64 ofLit entry.2).sum <
      UInt64.size

instance (value : Json) : Decidable (IsInteger ofLit natural? value) :=
  inferInstanceAs (Decidable (_ ∨ _))

theorem plain_iff (tree : Json) : Plain ofLit natural? tree ↔
    ((∀ entry ∈ readEntries "statusCodeDistribution" tree, IsInteger ofLit natural? entry.2) ∧
      (∀ entry ∈ readEntries "errorDistribution" tree, IsInteger ofLit natural? entry.2) ∧
      (∀ entry ∈ unreadEntries "statusCodeDistribution" tree,
        countOf ofLit natural? entry.2 = some 0) ∧
      (∀ entry ∈ unreadEntries "errorDistribution" tree,
        countOf ofLit natural? entry.2 = some 0)) ∧
      ((successes (readEntries "statusCodeDistribution" tree)).map (count64 ofLit)).sum <
          UInt64.size ∧
        ((failures (readEntries "statusCodeDistribution" tree)).map (count64 ofLit)).sum +
          ((readEntries "errorDistribution" tree).map fun entry => count64 ofLit entry.2).sum <
            UInt64.size :=
  ⟨fun plain => ⟨⟨plain.statuses, plain.errors, plain.unreadStatuses, plain.unreadErrors⟩,
      plain.completedFit, plain.failedFit⟩,
    fun ⟨⟨statuses, errors, unreadStatuses, unreadErrors⟩, completedFit, failedFit⟩ =>
      ⟨statuses, errors, unreadStatuses, unreadErrors, completedFit, failedFit⟩⟩

instance (tree : Json) : Decidable (Plain ofLit natural? tree) :=
  decidable_of_iff' _ (plain_iff ofLit natural? tree)

variable {ofLit natural?} {value : Json} {n : Nat}

theorem count64_of_count (own : ((toValue ofLit value).bind Value.asU64).isSome)
    (count : countOf ofLit natural? value = some n) : count64 ofLit value = n := by
  obtain ⟨decoded, read, count⟩ := Option.bind_eq_some_iff.mp count
  rw [read, Option.bind_some] at own
  rw [count64, read, Option.elim_some]
  unfold Value.asU64 at own
  split at own
  case h_1 => exact Option.some.inj count
  case h_2 => cases own

theorem count64_of_not (other : ¬ ((toValue ofLit value).bind Value.asU64).isSome) :
    count64 ofLit value = 0 := by
  rw [count64]
  cases read : toValue ofLit value with
  | none => rfl
  | some decoded =>
      rw [read, Option.bind_some, Option.not_isSome_iff_eq_none] at other
      rw [Option.elim_some, counted64, other]
      rfl

/-- No entry counts as more than it is. -/
theorem count64_le (count : countOf ofLit natural? value = some n) : count64 ofLit value ≤ n := by
  by_cases own : ((toValue ofLit value).bind Value.asU64).isSome
  · exact Nat.le_of_eq (count64_of_count own count)
  · rw [count64_of_not own]
    exact Nat.zero_le n

/-- An integer counts as what it is. -/
theorem IsInteger.count (integer : IsInteger ofLit natural? value) :
    countOf ofLit natural? value = some (count64 ofLit value) := by
  rcases integer with own | zero
  · rw [countOf, count64]
    cases read : toValue ofLit value with
    | none =>
        rw [read] at own
        cases own
    | some decoded =>
        rw [read, Option.bind_some] at own
        unfold Value.asU64 at own
        split at own
        case h_1 => rfl
        case h_2 => cases own
  · rw [zero, Nat.le_zero.mp (count64_le zero)]

theorem isInteger_of_eq (count : countOf ofLit natural? value = some n)
    (same : count64 ofLit value = n) : IsInteger ofLit natural? value := by
  by_cases own : ((toValue ofLit value).bind Value.asU64).isSome
  · exact .inl own
  · rw [count64_of_not own] at same
    exact .inr (same ▸ count)

theorem sum_count64_eq_zero {values : List Json}
    (zero : ∀ value ∈ values, countOf ofLit natural? value = some 0) :
    (values.map (count64 ofLit)).sum = 0 := by
  refine List.sum_eq_zero fun n member => ?_
  obtain ⟨value, present, rfl⟩ := List.mem_map.mp member
  exact Nat.le_zero.mp (count64_le (zero value present))

/-- Counts that add up to what they are added up as are integers. -/
theorem isInteger_of_sum {values : List Json}
    (counts : ∀ value ∈ values, (countOf ofLit natural? value).isSome)
    (same : (values.map (count64 ofLit)).sum =
      (values.map fun value => (countOf ofLit natural? value).getD 0).sum) :
    ∀ value ∈ values, IsInteger ofLit natural? value := by
  have less : ∀ value ∈ values, count64 ofLit value ≤ (countOf ofLit natural? value).getD 0 := by
    intro value member
    obtain ⟨n, count⟩ := Option.isSome_iff_exists.mp (counts value member)
    rw [count]
    exact count64_le count
  intro value member
  obtain ⟨n, count⟩ := Option.isSome_iff_exists.mp (counts value member)
  refine isInteger_of_eq count ?_
  -- An entry that counts as less than it is would be missing in the sum.
  by_contra missing
  have fewer := List.sum_lt_sum _ _ less ⟨value, member, by
    rw [count]
    exact Nat.lt_of_le_of_ne (count64_le count) missing⟩
  exact absurd same (Nat.ne_of_lt fewer)

theorem mem_entries_of_read {name : String} {tree : Json} {entry : Option String × Json}
    (member : entry ∈ readEntries name tree) : entry ∈ entries name tree :=
  (perm_entries name tree).mem_iff.mpr (List.mem_append_left _ member)

theorem mem_entries_of_unread {name : String} {tree : Json} {entry : Option String × Json}
    (member : entry ∈ unreadEntries name tree) : entry ∈ entries name tree :=
  (perm_entries name tree).mem_iff.mpr (List.mem_append_right _ member)

/-- An entry stands for a success or it does not. -/
theorem mem_successes_or_failures {listed : List (Option String × Json)}
    {entry : Option String × Json} (member : entry ∈ listed) :
    entry.2 ∈ successes listed ∨ entry.2 ∈ failures listed := by
  cases success : entry.1.any isSuccessKey with
  | true => exact .inl (List.mem_map_of_mem (List.mem_filter.mpr ⟨member, success⟩))
  | false =>
      refine .inr (List.mem_map_of_mem (List.mem_filter.mpr ⟨member, ?_⟩))
      rw [success]
      rfl

variable {tree : Json} {root : Value F} {requested : UInt64}

/-- The successes of a sound report are natural numbers, whether they are read or not. -/
theorem Sound.isSome_success {count : Nat} (sound : Sound ofLit natural? tree count)
    {listed : List (Option String × Json)}
    (part : ∀ entry ∈ listed, entry ∈ entries "statusCodeDistribution" tree) :
    ∀ value ∈ successes listed, (countOf ofLit natural? value).isSome := by
  intro value member
  obtain ⟨entry, inside, rfl⟩ := List.mem_map.mp member
  obtain ⟨inside, success⟩ := List.mem_filter.mp inside
  exact sound.counts _ (List.mem_map_of_mem (List.mem_filter.mpr ⟨part entry inside, success⟩))

/-- The failures of a sound report are zero, whether they are read or not. -/
theorem Sound.failure_eq_zero {count : Nat} (sound : Sound ofLit natural? tree count)
    {listed : List (Option String × Json)}
    (part : ∀ entry ∈ listed, entry ∈ entries "statusCodeDistribution" tree) :
    ∀ value ∈ failures listed, countOf ofLit natural? value = some 0 := by
  intro value member
  obtain ⟨entry, inside, rfl⟩ := List.mem_map.mp member
  obtain ⟨inside, failure⟩ := List.mem_filter.mp inside
  exact sound.statuses _ (List.mem_map_of_mem (List.mem_filter.mpr ⟨part entry inside, failure⟩))

/-- What is read of the successes of a sound report adds up to what was asked for, and
nothing of it is lost. -/
theorem Sound.sum_count64 (sound : Sound ofLit natural? tree requested.toNat)
    (read : toValue ofLit tree = some root) (sums : accounting root = (requested, 0)) :
    ((successes (readEntries "statusCodeDistribution" tree)).map (count64 ofLit)).sum =
        requested.toNat ∧
      ((successes (readEntries "statusCodeDistribution" tree)).map fun value =>
        (countOf ofLit natural? value).getD 0).sum = requested.toNat ∧
      ((successes (unreadEntries "statusCodeDistribution" tree)).map fun value =>
        (countOf ofLit natural? value).getD 0).sum = 0 := by
  have all := (perm_successes tree).map fun value => (countOf ofLit natural? value).getD 0
  have exact := all.sum_eq
  rw [sound.exact, List.map_append, List.sum_append] at exact
  have less : ((successes (readEntries "statusCodeDistribution" tree)).map (count64 ofLit)).sum ≤
      ((successes (readEntries "statusCodeDistribution" tree)).map fun value =>
        (countOf ofLit natural? value).getD 0).sum := by
    refine List.sum_le_sum fun value member => ?_
    obtain ⟨n, count⟩ := Option.isSome_iff_exists.mp
      (sound.isSome_success (fun _ => mem_entries_of_read) value member)
    rw [count]
    exact count64_le count
  have small : requested.toNat < UInt64.size := requested.toNat_lt
  have completed := (toNat_accounting read).1
  rw [sums, Nat.mod_eq_of_lt (by omega)] at completed
  change requested.toNat = _ at completed
  omega

/-- **A report that is sound is plain.** -/
theorem Sound.plain (sound : Sound ofLit natural? tree requested.toNat)
    (read : toValue ofLit tree = some root) (sums : accounting root = (requested, 0)) :
    Plain ofLit natural? tree := by
  obtain ⟨added, exact, others⟩ := sound.sum_count64 read sums
  have failed := sound.failure_eq_zero (fun _ => mem_entries_of_read)
  have labelled : ∀ entry ∈ readEntries "errorDistribution" tree,
      countOf ofLit natural? entry.2 = some 0 :=
    fun entry member => sound.errors entry (mem_entries_of_read member)
  refine
    { statuses := fun entry member => ?_
      errors := fun entry member => .inr (labelled entry member)
      unreadStatuses := fun entry member => ?_
      unreadErrors := fun entry member => sound.errors entry (mem_entries_of_unread member)
      completedFit := ?_
      failedFit := ?_ }
  · rcases mem_successes_or_failures member with success | failure
    · exact isInteger_of_sum (sound.isSome_success fun _ => mem_entries_of_read)
        (added.trans exact.symm) _ success
    · exact .inr (failed _ failure)
  · rcases mem_successes_or_failures member with success | failure
    · obtain ⟨n, count⟩ := Option.isSome_iff_exists.mp
        (sound.isSome_success (fun _ => mem_entries_of_unread) _ success)
      have zero := List.sum_eq_zero_iff.mp others _ (List.mem_map_of_mem success)
      rw [count, Option.getD_some] at zero
      rw [count, zero]
    · exact sound.failure_eq_zero (fun _ => mem_entries_of_unread) _ failure
  · rw [added]
    exact requested.toNat_lt
  · have none_labelled := sum_count64_eq_zero (List.forall_mem_map.mpr labelled)
    rw [List.map_map] at none_labelled
    rw [sum_count64_eq_zero failed]
    exact ((Nat.zero_add _).trans none_labelled).trans_lt (by decide)

/-- The successes of a plain report that are read are integers. -/
theorem Plain.count_of_read (plain : Plain ofLit natural? tree) {value : Json}
    (member : value ∈ successes (readEntries "statusCodeDistribution" tree)) :
    countOf ofLit natural? value = some (count64 ofLit value) := by
  obtain ⟨entry, inside, rfl⟩ := List.mem_map.mp member
  exact (plain.statuses entry (List.mem_of_mem_filter inside)).count

/-- Those that are not read are zero. -/
theorem Plain.count_of_unread (plain : Plain ofLit natural? tree) {value : Json}
    (member : value ∈ successes (unreadEntries "statusCodeDistribution" tree)) :
    countOf ofLit natural? value = some 0 := by
  obtain ⟨entry, inside, rfl⟩ := List.mem_map.mp member
  exact plain.unreadStatuses entry (List.mem_of_mem_filter inside)

/-- All successes that a plain report lists add up to what is read of them. -/
theorem Plain.sum_successes (plain : Plain ofLit natural? tree) :
    ((successes (entries "statusCodeDistribution" tree)).map fun value =>
        (countOf ofLit natural? value).getD 0).sum =
      ((successes (readEntries "statusCodeDistribution" tree)).map (count64 ofLit)).sum := by
  have own : ∀ value ∈ successes (readEntries "statusCodeDistribution" tree),
      (countOf ofLit natural? value).getD 0 = count64 ofLit value := by
    intro value member
    rw [plain.count_of_read member, Option.getD_some]
  have nothing : ((successes (unreadEntries "statusCodeDistribution" tree)).map fun value =>
      (countOf ofLit natural? value).getD 0).sum = 0 := by
    refine List.sum_eq_zero (List.forall_mem_map.mpr fun value member => ?_)
    rw [plain.count_of_unread member, Option.getD_some]
  have all := (perm_successes tree).map fun value => (countOf ofLit natural? value).getD 0
  rw [all.sum_eq, List.map_append, List.sum_append, nothing, List.map_congr_left own,
    Nat.add_zero]

/-- **A plain report is sound.** -/
theorem Plain.sound (plain : Plain ofLit natural? tree) (read : toValue ofLit tree = some root)
    (sums : accounting root = (requested, 0)) : Sound ofLit natural? tree requested.toNat := by
  obtain ⟨completed, errors⟩ := toNat_accounting read
  rw [sums, Nat.mod_eq_of_lt plain.completedFit] at completed
  rw [sums, Nat.mod_eq_of_lt plain.failedFit] at errors
  obtain ⟨noStatus, noLabel⟩ := Nat.add_eq_zero_iff.mp errors.symm
  refine
    { counts := fun value member => ?_
      exact := plain.sum_successes.trans completed.symm
      statuses := fun value member => ?_
      errors := fun entry member => ?_ }
  · rcases List.mem_append.mp ((perm_successes tree).mem_iff.mp member) with own | own
    · rw [plain.count_of_read own, Option.isSome_some]
    · rw [plain.count_of_unread own, Option.isSome_some]
  · obtain ⟨entry, inside, rfl⟩ := List.mem_map.mp member
    obtain ⟨inside, other⟩ := List.mem_filter.mp inside
    rcases List.mem_append.mp ((perm_entries _ tree).mem_iff.mp inside) with own | own
    · rw [(plain.statuses entry own).count]
      exact congrArg some (List.sum_eq_zero_iff.mp noStatus _ (List.mem_map_of_mem
        (List.mem_map_of_mem (List.mem_filter.mpr ⟨own, other⟩))))
    · exact plain.unreadStatuses entry own
  · rcases List.mem_append.mp ((perm_entries _ tree).mem_iff.mp member) with own | own
    · rw [(plain.errors entry own).count]
      exact congrArg some (List.sum_eq_zero_iff.mp noLabel _ (List.mem_map_of_mem own))
    · exact plain.unreadErrors entry own

end Soundness

/-- **The gate is sound for a report** it accepts if and only if nothing is lost of the
report when it is read. -/
theorem sound_loadReport_iff {floats : F64 F} {describe : String → String}
    {count : UInt64} {text : String} {result : OhaResult F} {tree : Json}
    (natural? : F → Option Nat)
    (accepted : loadReport floats describe count text = .ok result)
    (parsed : parse (utf8 text) = some tree) :
    Sound floats.ofLit natural? tree count.toNat ↔ Plain floats.ofLit natural? tree := by
  obtain ⟨root, read, sums⟩ := accounting_of_loadReport floats accepted
  rw [fromSlice, parsed, Option.bind_some] at read
  have value := (Option.ite_none_right_eq_some.mp read).2
  exact ⟨fun sound => sound.plain value sums, fun plain => plain.sound value sums⟩

def naturalOfRat (x : Rat) : Option Nat :=
  if x.den = 1 ∧ 0 ≤ x.num then some x.num.toNat else none

/-- A report of five requests that all succeeded, with a label without errors and one that
comes again. -/
def allSucceeded : String :=
  "\x7b\"summary\":\x7b\"successRate\":1\x7d," ++
    "\"statusCodeDistribution\":\x7b\"200\":4,\"204\":1,\"500\":0\x7d," ++
    "\"errorDistribution\":\x7b\"timeout\":0,\"timeout\":0\x7d\x7d"

/-- A report of five requests that succeeded and `2 ^ 64` that failed. -/
def overflowing : String :=
  "\x7b\"summary\":\x7b\"successRate\":1\x7d,\"statusCodeDistribution\":\x7b\"200\":5," ++
    "\"500\":9223372036854775808,\"502\":9223372036854775808\x7d,\"errorDistribution\":\x7b\x7d\x7d"

/-- Of the report of five requests all succeeded and nothing else is listed. -/
theorem sound_loadReport_iff_allSucceeded :
    ∃ result tree, loadReport rationals id 5 allSucceeded = .ok result ∧
      parse (utf8 allSucceeded) = some tree ∧ Sound rationals.ofLit naturalOfRat tree 5 := by
  obtain ⟨result, accepted⟩ := Except.failure_eq_none_iff.mp
    (by decide +kernel : (loadReport rationals id 5 allSucceeded).failure = none)
  have plain : (parse (utf8 allSucceeded)).any (fun tree =>
      decide (Plain rationals.ofLit naturalOfRat tree)) = true := by decide +kernel
  cases parsed : parse (utf8 allSucceeded) with
  | none =>
      rw [parsed] at plain
      cases plain
  | some tree =>
      rw [parsed] at plain
      exact ⟨result, tree, accepted, rfl,
        (sound_loadReport_iff naturalOfRat accepted parsed).mpr (of_decide_eq_true plain)⟩

/-- Failures are hidden by a sum that overflows. -/
theorem not_sound_overflowing :
    ¬ ∀ (count : UInt64) (text : String) (result : OhaResult Rat) (tree : Json),
      loadReport rationals id count text = .ok result → parse (utf8 text) = some tree →
        Sound rationals.ofLit naturalOfRat tree count.toNat := by
  intro all
  obtain ⟨result, accepted⟩ := Except.failure_eq_none_iff.mp
    (by decide +kernel : (loadReport rationals id 5 overflowing).failure = none)
  have failed : (parse (utf8 overflowing)).any (fun tree =>
      (failures (entries "statusCodeDistribution" tree)).any fun value =>
        countOf rationals.ofLit naturalOfRat value = some 9223372036854775808) = true := by
    decide +kernel
  cases parsed : parse (utf8 overflowing) with
  | none =>
      rw [parsed] at failed
      cases failed
  | some tree =>
      rw [parsed, Option.any_some, List.any_eq_true] at failed
      obtain ⟨value, member, many⟩ := failed
      have sound := all 5 overflowing result tree accepted parsed
      cases (of_decide_eq_true many).symm.trans (sound.statuses value member)

end Debitmetre.Smoke
