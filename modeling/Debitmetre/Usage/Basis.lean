import Debitmetre.Usage.Extraction

/-!
# Contradictory counters

The input is what was not cached, what was read from the cache and what was
written to it.  Counters contradict each other when no numbers for the absent
ones make that true.  They are marked as inconsistent only if all three are
present.
-/

namespace Debitmetre

/-- The number a counter reports, and zero if it is absent. -/
def reported (counter : Option UInt64) : Nat := counter.elim 0 UInt64.toNat

/-- Numbers for the counters that are absent, and for the uncached input, make the
input counters add up. -/
def RawUsage.Reconcilable (raw : RawUsage) : Prop :=
  ∃ input read write uncached : Nat,
    (∀ n, raw.inputTotal = some n → input = n.toNat) ∧
      (∀ n, raw.cacheRead = some n → read = n.toNat) ∧
      (∀ n, raw.cacheWrite = some n → write = n.toNat) ∧ input = uncached + read + write

/-- One detail of the input is absent, and the other one alone is more than the
input. -/
def RawUsage.Overlooked (raw : RawUsage) : Prop :=
  ∃ input part : UInt64, raw.inputTotal = some input ∧
    (raw.cacheRead = some part ∧ raw.cacheWrite = none ∨
      raw.cacheRead = none ∧ raw.cacheWrite = some part) ∧ input.toNat < part.toNat

/-- The counters as the upstream reported them. -/
structure Usage.Verbatim (usage : Usage) (raw : RawUsage) : Prop where
  inputTotal : usage.inputTotal = raw.inputTotal
  cacheRead : usage.cacheRead = raw.cacheRead
  cacheWrite : usage.cacheWrite = raw.cacheWrite
  outputTotal : usage.outputTotal = raw.outputTotal
  reasoning : usage.reasoning = raw.reasoning
  total : usage.total = raw.total

theorem canonicalize_verbatim (raw : RawUsage) : (canonicalize raw).1.Verbatim raw :=
  ⟨rfl, rfl, rfl, rfl, rfl, rfl⟩

theorem checkedAdd_eq_none {a b : UInt64} :
    checkedAdd a b = none ↔ UInt64.size ≤ a.toNat + b.toNat := by
  unfold checkedAdd
  by_cases small : a.toNat + b.toNat < UInt64.size
  · simp only [small, ↓reduceIte, reduceCtorEq, false_iff, Nat.not_le]
  · simp only [small, ↓reduceIte, true_iff]
    exact Nat.not_lt.mp small

theorem checkedSub_eq_none {a b : UInt64} : checkedSub a b = none ↔ a.toNat < b.toNat := by
  unfold checkedSub
  by_cases below : b ≤ a
  · simp only [below, ↓reduceIte, reduceCtorEq, false_iff, Nat.not_lt]
    exact UInt64.le_iff_toNat_le.mp below
  · simp only [below, ↓reduceIte, true_iff]
    exact Nat.not_le.mp fun small => below (UInt64.le_iff_toNat_le.mpr small)

/-- Counters are marked as inconsistent if all three are present and the details
are more than the input. -/
theorem inconsistent_iff (raw : RawUsage) : (canonicalize raw).2 = .inconsistent ↔
    ∃ input read write : UInt64, raw.inputTotal = some input ∧ raw.cacheRead = some read ∧
      raw.cacheWrite = some write ∧ input.toNat < read.toNat + write.toNat := by
  change (accountingBasis raw).2 = .inconsistent ↔ _
  unfold accountingBasis
  split
  · rename_i input read write hasInput hasRead hasWrite
    have exceeded : ((checkedAdd read write).bind fun sum => checkedSub input sum) = none ↔
        input.toNat < read.toNat + write.toNat := by
      cases added : checkedAdd read write with
      | none =>
          have large := checkedAdd_eq_none.mp added
          exact ⟨fun _ => Nat.lt_of_lt_of_le input.toNat_lt_size large, fun _ => rfl⟩
      | some sum =>
          rw [Option.bind_some, checkedSub_eq_none, checkedAdd_eq_some added]
    simp only [hasInput, hasRead, hasWrite, Option.some.injEq, exists_and_left, exists_eq_left']
    rw [← exceeded]
    cases (checkedAdd read write).bind fun sum => checkedSub input sum with
    | none => exact ⟨fun _ => rfl, fun _ => rfl⟩
    | some uncached => exact ⟨nofun, nofun⟩
  · rename_i absent
    refine ⟨nofun, ?_⟩
    rintro ⟨input, read, write, hasInput, hasRead, hasWrite, -⟩
    exact absurd hasWrite (absent input read write hasInput hasRead)

/-- Counters can be reconciled if what is known of the details fits in the
input. -/
theorem RawUsage.reconcilable_iff (raw : RawUsage) : raw.Reconcilable ↔
    ∀ input, raw.inputTotal = some input →
      reported raw.cacheRead + reported raw.cacheWrite ≤ input.toNat := by
  have least {counter : Option UInt64} {number : Nat}
      (agrees : ∀ n, counter = some n → number = n.toNat) : reported counter ≤ number := by
    cases counter with
    | none => exact Nat.zero_le number
    | some n => exact Nat.le_of_eq (agrees n rfl).symm
  constructor
  · rintro ⟨input, read, write, uncached, isInput, isRead, isWrite, sum⟩ n present
    have readLeast := least isRead
    have writeLeast := least isWrite
    rw [← isInput n present, sum]
    omega
  · intro fits
    have agrees (counter : Option UInt64) : ∀ n, counter = some n → reported counter = n.toNat := by
      rintro n rfl
      rfl
    cases present : raw.inputTotal with
    | none =>
        exact ⟨_, reported raw.cacheRead, reported raw.cacheWrite, 0,
          fun n same => (nomatch present.symm.trans same), agrees _, agrees _, rfl⟩
    | some input =>
        have enough := fits input present
        refine ⟨input.toNat, reported raw.cacheRead, reported raw.cacheWrite,
          input.toNat - (reported raw.cacheRead + reported raw.cacheWrite), ?_, agrees _, agrees _,
          ?_⟩
        · rintro n same
          rw [present] at same
          exact congrArg UInt64.toNat (Option.some.inj same)
        · omega

/-- **Contradictions are flagged**, and the counters kept as they were, if and
only if it is not one detail alone that is more than the input while the other
one is absent. -/
theorem flagged_iff (raw : RawUsage) :
    (((canonicalize raw).2 = .inconsistent ↔ ¬ raw.Reconcilable) ∧
        (canonicalize raw).1.Verbatim raw) ↔ ¬ raw.Overlooked := by
  rw [and_iff_left (canonicalize_verbatim raw), inconsistent_iff, RawUsage.reconcilable_iff,
    RawUsage.Overlooked]
  obtain ⟨inputTotal, cacheRead, cacheWrite, outputTotal, reasoning, total⟩ := raw
  cases inputTotal <;> cases cacheRead <;> cases cacheWrite <;> simp [reported]

/-- One detail alone is more than the input, and the usage is not flagged. -/
theorem not_flagged_cacheRead :
    let raw : RawUsage := ⟨some 5, some 10, none, none, none, none⟩
    (canonicalize raw).2 = .partialDetail ∧ ¬ raw.Reconcilable := by
  intro raw
  refine ⟨rfl, fun reconciled => ?_⟩
  have fits := raw.reconcilable_iff.mp reconciled 5 rfl
  exact absurd fits (by decide)

end Debitmetre
