import Mathlib.Algebra.BigOperators.Group.List.Basic
import Mathlib.Data.List.Induction
import Mathlib.Data.List.Nodup
import Std.Data.ExtTreeMap

/-!
# Tallies

Amounts of a commutative monoid are booked under keys, one entry after another,
into a table that holds a key from its first entry on.  A table depends only on
the multiset of its entries, the table of a concatenation is the pointwise merge
of the tables, and what all keys hold together is what all entries book together,
whatever they are booked under.
-/

namespace Tally

variable {κ M : Type} {cmp : κ → κ → Ordering} [Std.TransCmp cmp] [AddCommMonoid M]

/-- Book an amount under a key. -/
def book (table : Std.ExtTreeMap κ M cmp) (entry : κ × M) : Std.ExtTreeMap κ M cmp :=
  table.alter entry.1 fun held => some (held.getD 0 + entry.2)

/-- The table of a list of entries. -/
def tally (entries : List (κ × M)) : Std.ExtTreeMap κ M cmp := entries.foldl book ∅

/-- What some amounts come to: nothing, unless there is one. -/
def total (amounts : List M) : Option M := if amounts = [] then none else some amounts.sum

theorem total_cons (amount : M) (amounts : List M) :
    total (amount :: amounts) = Option.merge (· + ·) (some amount) (total amounts) := by
  cases amounts with
  | nil => simp only [total, List.cons_ne_self, ↓reduceIte, List.sum_cons, List.sum_nil, add_zero,
      Option.merge_none_right]
  | cons next rest => simp only [total, reduceCtorEq, ↓reduceIte, List.sum_cons, Option.merge]

theorem merge_assoc (first second third : Option M) :
    Option.merge (· + ·) (Option.merge (· + ·) first second) third =
      Option.merge (· + ·) first (Option.merge (· + ·) second third) :=
  Std.Associative.assoc first second third

/-- Amounts added up in two parts. -/
theorem total_append (first second : List M) :
    total (first ++ second) = Option.merge (· + ·) (total first) (total second) := by
  induction first with
  | nil => simp only [total, List.nil_append, ↓reduceIte, Option.merge_none_left]
  | cons amount first ih => rw [List.cons_append, total_cons, total_cons, ih, merge_assoc]

/-- The order of the amounts does not matter. -/
theorem total_perm {first second : List M} (same : first.Perm second) :
    total first = total second := by
  have empty : first = [] ↔ second = [] := by
    rw [← List.length_eq_zero_iff, same.length_eq, List.length_eq_zero_iff]
  simp only [total, empty, same.sum_eq]

/-- The amounts booked under a key. -/
def amounts [DecidableEq κ] (key : κ) (entries : List (κ × M)) : List M :=
  (entries.filter fun entry => entry.1 = key).map Prod.snd

section Keyed

variable [DecidableEq κ] [Std.LawfulEqCmp cmp]

/-- An entry is booked under its key and changes no other. -/
theorem getElem?_book (table : Std.ExtTreeMap κ M cmp) (entry : κ × M) (key : κ) :
    (book table entry)[key]? =
      if entry.1 = key then some (table[key]?.getD 0 + entry.2) else table[key]? := by
  simp only [book, Std.ExtTreeMap.getElem?_alter, Std.LawfulEqCmp.compare_eq_iff_eq]
  by_cases same : entry.1 = key
  · subst same
    simp only [↓reduceIte]
  · simp only [same, ↓reduceIte]

/-- Under each key the amounts of its entries are added up. -/
theorem getElem?_foldl_book (entries : List (κ × M)) :
    ∀ (table : Std.ExtTreeMap κ M cmp) (key : κ),
      (entries.foldl book table)[key]? =
        Option.merge (· + ·) table[key]? (total (amounts key entries)) := by
  induction entries with
  | nil => intro table key; exact (Option.merge_none_right).symm
  | cons entry entries ih =>
      intro table key
      rw [List.foldl_cons, ih, getElem?_book]
      by_cases same : entry.1 = key
      · simp only [amounts, same, decide_true, List.filter_cons_of_pos, List.map_cons, ↓reduceIte,
          total_cons, ← merge_assoc]
        cases table[key]? <;> simp only [Option.merge, Option.getD, zero_add]
      · simp only [amounts, same, ↓reduceIte, decide_false, Bool.false_eq_true,
          not_false_eq_true, List.filter_cons_of_neg]

/-- **What a key holds** is what the entries under it come to. -/
theorem getElem?_tally (entries : List (κ × M)) (key : κ) :
    (tally entries : Std.ExtTreeMap κ M cmp)[key]? = total (amounts key entries) := by
  rw [tally, getElem?_foldl_book, Std.ExtTreeMap.getElem?_empty, Option.merge_none_left]

omit [AddCommMonoid M] in
/-- A key without amounts is that of no entry. -/
theorem amounts_eq_nil_iff {key : κ} {entries : List (κ × M)} :
    amounts key entries = [] ↔ ∀ entry ∈ entries, entry.1 ≠ key := by
  simp only [amounts, List.map_eq_nil_iff, List.filter_eq_nil_iff, decide_eq_true_eq, ne_eq]

/-- A table holds the keys of its entries. -/
theorem exists_mem_toList_tally {entries : List (κ × M)} {key : κ} :
    (∃ amount, (key, amount) ∈ (tally entries : Std.ExtTreeMap κ M cmp).toList) ↔
      ∃ amount, (key, amount) ∈ entries := by
  simp only [Std.ExtTreeMap.mem_toList_iff_getElem?_eq_some, getElem?_tally, total]
  by_cases none : amounts key entries = []
  · simp only [none, ↓reduceIte, reduceCtorEq, exists_false, false_iff, not_exists]
    exact fun amount member => amounts_eq_nil_iff.mp none _ member rfl
  · simp only [none, ↓reduceIte, Option.some.injEq, exists_eq', true_iff]
    rw [amounts_eq_nil_iff] at none
    obtain ⟨⟨own, amount⟩, booked⟩ := not_forall.mp none
    obtain ⟨member, same⟩ := Classical.not_imp.mp booked
    exact ⟨amount, Decidable.not_not.mp same ▸ member⟩

/-- What holds of all keys and of what they hold is what holds of the keys of the entries
and of what these come to. -/
theorem forall_mem_toList_tally_iff {entries : List (κ × M)} {holds : κ → M → Prop} :
    (∀ entry ∈ (tally entries : Std.ExtTreeMap κ M cmp).toList, holds entry.1 entry.2) ↔
      ∀ entry ∈ entries, holds entry.1 (amounts entry.1 entries).sum := by
  have held : ∀ entry ∈ entries,
      (tally entries : Std.ExtTreeMap κ M cmp)[entry.1]? = some (amounts entry.1 entries).sum := by
    intro entry member
    rw [getElem?_tally, total, if_neg fun none => amounts_eq_nil_iff.mp none entry member rfl]
  constructor
  · intro all entry member
    exact all (entry.1, _) (Std.ExtTreeMap.mem_toList_iff_getElem?_eq_some.mpr (held entry member))
  · rintro all ⟨key, amount⟩ member
    obtain ⟨own, booked⟩ := exists_mem_toList_tally.mp ⟨amount, member⟩
    have same := (held _ booked).symm.trans
      (Std.ExtTreeMap.mem_toList_iff_getElem?_eq_some.mp member)
    change holds key amount
    rw [← Option.some.inj same]
    exact all _ booked

/-- **The order of the entries does not matter.** -/
theorem tally_perm {first second : List (κ × M)} (same : first.Perm second) :
    (tally first : Std.ExtTreeMap κ M cmp) = tally second := by
  apply Std.ExtTreeMap.ext_getElem?
  intro key
  rw [getElem?_tally, getElem?_tally]
  exact total_perm ((same.filter _).map _)

/-- The table of a concatenation merges the two tables key by key. -/
theorem getElem?_tally_append (first second : List (κ × M)) (key : κ) :
    (tally (first ++ second) : Std.ExtTreeMap κ M cmp)[key]? =
      Option.merge (· + ·) (tally first : Std.ExtTreeMap κ M cmp)[key]?
        (tally second : Std.ExtTreeMap κ M cmp)[key]? := by
  simp only [getElem?_tally, amounts, List.filter_append, List.map_append, total_append]

omit [AddCommMonoid M] [DecidableEq κ] in
theorem nodup_toList (table : Std.ExtTreeMap κ M cmp) : table.toList.Nodup := by
  refine List.Pairwise.imp ?_ table.distinct_keys_toList
  rintro first second distinct rfl
  exact distinct Std.ReflCmp.compare_self

omit [AddCommMonoid M] [DecidableEq κ] in
/-- The lines of a table are distinct exactly if those of distinct keys are. -/
theorem nodup_map_toList_iff {β : Type} (table : Std.ExtTreeMap κ M cmp)
    (line : κ × M → β) :
    (table.toList.map line).Nodup ↔
      ∀ first ∈ table.toList, ∀ second ∈ table.toList,
        first.1 ≠ second.1 → line first ≠ line second := by
  rw [List.nodup_map_iff_inj_on (nodup_toList table)]
  constructor
  · intro injective first member second member' distinct same
    exact distinct (congrArg Prod.fst (injective first member second member' same))
  · rintro apart ⟨key, amount⟩ member ⟨key', amount'⟩ member' same
    by_cases keys : key = key'
    · subst keys
      rw [Std.ExtTreeMap.mem_toList_iff_getElem?_eq_some] at member member'
      rw [Option.some.inj (member.symm.trans member')]
    · exact absurd same (apart _ member _ member' keys)

/-- A table without one key. -/
def others (key : κ) (table : Std.ExtTreeMap κ M cmp) : List (κ × M) :=
  table.toList.filter fun entry => entry.1 ≠ key

omit [AddCommMonoid M] in
/-- The other rows of a table. -/
theorem mem_others {key : κ} {table : Std.ExtTreeMap κ M cmp} {entry : κ × M} :
    entry ∈ others key table ↔ table[entry.1]? = some entry.2 ∧ entry.1 ≠ key := by
  simp only [others, List.mem_filter, decide_eq_true_eq,
    ← Std.ExtTreeMap.mem_toList_iff_getElem?_eq_some]

/-- What a table holds is what it holds under one key and what it holds under
the others. -/
theorem sum_values (table : Std.ExtTreeMap κ M cmp) (key : κ) :
    (table.toList.map Prod.snd).sum =
      table[key]?.getD 0 + ((others key table).map Prod.snd).sum := by
  cases held : table[key]? with
  | none =>
      have all : others key table = table.toList := by
        simp only [others, List.filter_eq_self, decide_eq_true_eq]
        rintro entry member rfl
        rw [Std.ExtTreeMap.mem_toList_iff_getElem?_eq_some.mp member] at held
        cases held
      rw [all, Option.getD_none, zero_add]
  | some amount =>
      have apart : table.toList.Perm ((key, amount) :: others key table) := by
        rw [List.perm_ext_iff_of_nodup (nodup_toList table)
          (List.nodup_cons.mpr ⟨fun member => (mem_others.mp member).2 rfl,
            (nodup_toList table).filter _⟩)]
        rintro ⟨other, value⟩
        rw [Std.ExtTreeMap.mem_toList_iff_getElem?_eq_some, List.mem_cons, mem_others,
          Prod.mk.injEq]
        by_cases same : other = key
        · subst same
          simp only [held, Option.some.injEq, true_and, ne_eq, not_true_eq_false, and_false,
            or_false, eq_comm]
        · simp only [same, false_and, ne_eq, not_false_eq_true, and_true, false_or]
      rw [(apart.map Prod.snd).sum_eq, List.map_cons, List.sum_cons, Option.getD_some]

/-- Booking an entry adds its amount to the sum of the table. -/
theorem sum_book (table : Std.ExtTreeMap κ M cmp) (entry : κ × M) :
    ((book table entry).toList.map Prod.snd).sum = (table.toList.map Prod.snd).sum + entry.2 := by
  have unchanged : (others entry.1 (book table entry)).Perm (others entry.1 table) := by
    rw [others, others, List.perm_ext_iff_of_nodup ((nodup_toList _).filter _)
      ((nodup_toList _).filter _)]
    intro other
    change other ∈ others _ _ ↔ other ∈ others _ _
    simp only [mem_others, getElem?_book]
    by_cases same : entry.1 = other.1
    · simp only [same, ne_eq, not_true_eq_false, and_false]
    · simp only [same, ↓reduceIte]
  rw [sum_values (book table entry) entry.1, sum_values table entry.1, getElem?_book,
    (unchanged.map Prod.snd).sum_eq]
  simp only [↓reduceIte, Option.getD_some, add_right_comm]

variable (cmp) in
/-- **Booking conserves amounts**: the values of a table add up to the amounts
of its entries. -/
theorem sum_tally (entries : List (κ × M)) :
    (((tally entries : Std.ExtTreeMap κ M cmp)).toList.map Prod.snd).sum =
      (entries.map Prod.snd).sum := by
  induction entries using List.reverseRecOn with
  | nil =>
      rw [tally, List.foldl_nil, Std.ExtTreeMap.toList_eq_nil_iff.mpr rfl]
  | append_singleton entries entry ih =>
      rw [tally, List.foldl_append, List.foldl_cons, List.foldl_nil, sum_book, ← tally, ih,
        List.map_append, List.sum_append, List.map_cons, List.map_nil, List.sum_singleton]

variable (cmp) in
/-- The values under some of the keys add up to the amounts booked under these. -/
theorem sum_tally_filter (some_keys : κ → Bool) (entries : List (κ × M)) :
    (((tally entries : Std.ExtTreeMap κ M cmp).toList.filter fun entry =>
        some_keys entry.1).map Prod.snd).sum =
      ((entries.filter fun entry => some_keys entry.1).map Prod.snd).sum := by
  have same : ((tally entries : Std.ExtTreeMap κ M cmp).toList.filter fun entry =>
      some_keys entry.1).Perm
      (tally (entries.filter fun entry => some_keys entry.1) : Std.ExtTreeMap κ M cmp).toList := by
    rw [List.perm_ext_iff_of_nodup ((nodup_toList _).filter _) (nodup_toList _)]
    intro entry
    rw [List.mem_filter, Std.ExtTreeMap.mem_toList_iff_getElem?_eq_some,
      Std.ExtTreeMap.mem_toList_iff_getElem?_eq_some, getElem?_tally, getElem?_tally, amounts,
      amounts, List.filter_filter]
    cases wanted : some_keys entry.1 with
    | true =>
        have chosen : ∀ other ∈ entries, (decide (other.1 = entry.1) && some_keys other.1) =
            decide (other.1 = entry.1) := by
          intro other member
          by_cases own : other.1 = entry.1
          · rw [own, wanted, Bool.and_true]
          · rw [decide_eq_false own, Bool.false_and]
        rw [List.filter_congr chosen]
        exact and_iff_left rfl
    | false =>
        have none_chosen : ∀ other ∈ entries,
            ¬ (decide (other.1 = entry.1) && some_keys other.1) = true := by
          intro other member both
          rw [Bool.and_eq_true, decide_eq_true_eq] at both
          rw [both.1, wanted] at both
          cases both.2
        rw [List.filter_eq_nil_iff.mpr none_chosen]
        refine iff_of_false (fun both => ?_) fun held => ?_
        · cases both.2
        · cases held
  rw [(same.map Prod.snd).sum_eq, sum_tally cmp]

end Keyed

end Tally
