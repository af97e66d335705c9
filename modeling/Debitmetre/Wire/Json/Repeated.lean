import Debitmetre.Wire.Json.Value
import Mathlib.Data.List.Perm.Basic

/-!
# Repeated keys

A map of the members of an object keeps the last value of each key.  Of the members as
they are written, those stand whose keys do not come again, and the others are
overwritten.
-/

namespace Wire.Json

section Standing

variable {κ α : Type} [DecidableEq κ]

/-- The members whose keys do not come again. -/
def standing : List (κ × α) → List (κ × α)
  | [] => []
  | member :: rest =>
      if member.1 ∈ rest.map Prod.fst then standing rest else member :: standing rest

/-- The members whose keys come again. -/
def overwritten : List (κ × α) → List (κ × α)
  | [] => []
  | member :: rest =>
      if member.1 ∈ rest.map Prod.fst then member :: overwritten rest else overwritten rest

/-- Each member stands or is overwritten. -/
theorem perm_standing (members : List (κ × α)) :
    members.Perm (standing members ++ overwritten members) := by
  induction members with
  | nil => exact .nil
  | cons member rest ih =>
      rw [standing, overwritten]
      by_cases again : member.1 ∈ rest.map Prod.fst
      · rw [if_pos again, if_pos again]
        exact (ih.cons member).trans List.perm_middle.symm
      · rw [if_neg again, if_neg again]
        exact ih.cons member

end Standing

variable {F : Type} {f64 : NumLit → Option F}

namespace Value

/-- Members in the order of their keys. -/
def Sorted (members : List (String × Value F)) : Prop :=
  members.Pairwise fun first second => compare first.1 second.1 = .lt

theorem mem_insert {key : String} {value : Value F} {held : List (String × Value F)}
    {member : String × Value F} (inside : member ∈ insert key value held) :
    member = (key, value) ∨ member ∈ held := by
  induction held with
  | nil => exact .inl (List.mem_singleton.mp inside)
  | cons first rest ih =>
      obtain ⟨other, own⟩ := first
      unfold insert at inside
      split at inside
      · exact List.mem_cons.mp inside
      · rcases List.mem_cons.mp inside with new | old
        · exact .inl new
        · exact .inr (List.mem_cons_of_mem _ old)
      · rcases List.mem_cons.mp inside with old | inside
        · exact .inr (old ▸ List.mem_cons_self)
        · exact (ih inside).imp_right (List.mem_cons_of_mem _)

theorem Sorted.insert {held : List (String × Value F)} (sorted : Sorted held) (key : String)
    (value : Value F) : Sorted (insert key value held) := by
  induction held with
  | nil => exact List.pairwise_singleton _ _
  | cons first rest ih =>
      obtain ⟨other, own⟩ := first
      obtain ⟨before, ordered⟩ := List.pairwise_cons.mp sorted
      unfold Value.insert
      split
      · rename_i earlier
        refine List.pairwise_cons.mpr ⟨List.forall_mem_cons.mpr ⟨earlier, ?_⟩, sorted⟩
        exact fun member inside => Std.TransCmp.lt_trans earlier (before member inside)
      · rename_i same
        obtain rfl : key = other := Std.LawfulEqOrd.eq_of_compare same
        exact List.pairwise_cons.mpr ⟨before, ordered⟩
      · rename_i later
        refine List.pairwise_cons.mpr ⟨fun member inside => ?_, ih ordered⟩
        rcases mem_insert inside with rfl | inside
        · exact Std.OrientedCmp.lt_of_gt later
        · exact before member inside

theorem filter_of_before {key : String} {members : List (String × Value F)}
    (before : ∀ member ∈ members, compare key member.1 = .lt) :
    members.filter (fun member => member.1 ≠ key) = members := by
  refine List.filter_eq_self.mpr fun member inside => decide_eq_true fun same => ?_
  have gap := before member inside
  rw [same, Std.ReflOrd.compare_self] at gap
  cases gap

/-- An inserted member takes the place of one of its key. -/
theorem Sorted.perm_insert {held : List (String × Value F)} (sorted : Sorted held) (key : String)
    (value : Value F) :
    (Value.insert key value held).Perm
      ((key, value) :: held.filter fun member => member.1 ≠ key) := by
  induction held with
  | nil => exact .refl _
  | cons first rest ih =>
      obtain ⟨other, own⟩ := first
      obtain ⟨before, ordered⟩ := List.pairwise_cons.mp sorted
      unfold Value.insert
      split
      · rename_i earlier
        rw [filter_of_before (List.forall_mem_cons.mpr ⟨earlier, fun member inside =>
          Std.TransCmp.lt_trans earlier (before member inside)⟩)]
      · rename_i same
        obtain rfl : key = other := Std.LawfulEqOrd.eq_of_compare same
        have replaced : ((key, own) :: rest).filter (fun member => member.1 ≠ key) = rest := by
          have same_key : ¬ decide (key ≠ key) = true := fun other =>
            absurd rfl (of_decide_eq_true other)
          rw [List.filter_cons, if_neg same_key, filter_of_before before]
        rw [replaced]
      · rename_i later
        have distinct : other ≠ key := by
          rintro rfl
          rw [Std.ReflOrd.compare_self] at later
          cases later
        have kept : ((other, own) :: rest).filter (fun member => member.1 ≠ key) =
            (other, own) :: rest.filter fun member => member.1 ≠ key := by
          rw [List.filter_cons, if_pos (decide_eq_true distinct)]
        rw [kept]
        exact ((ih ordered).cons _).trans (.swap _ _ _)

end Value

/-- The members of an object under what their keys spell. -/
def spelled (members : List (StrLit × Json)) : List (Option String × Json) :=
  members.map fun member => (member.1.string?, member.2)

theorem spelled_cons (member : StrLit × Json) (rest : List (StrLit × Json)) :
    spelled (member :: rest) = (member.1.string?, member.2) :: spelled rest := rfl

/-- **A map of members** has those that stand, after the ones it had before. -/
theorem perm_toMembers {members : List (StrLit × Json)} {held values : List (String × Value F)}
    (sorted : Value.Sorted held) (read : toMembers f64 members held = some values) :
    (values.map fun member => (some member.1, some member.2)).Perm
      (((held.filter fun member => some member.1 ∉ (spelled members).map Prod.fst).map
          fun member => (some member.1, some member.2)) ++
        (standing (spelled members)).map fun member => (member.1, toValue f64 member.2)) := by
  induction members generalizing held with
  | nil =>
      cases read
      have kept :
          values.filter (fun member => some member.1 ∉ (spelled []).map Prod.fst) = values :=
        List.filter_eq_self.mpr fun member _ => decide_eq_true (List.not_mem_nil)
      rw [kept]
      exact List.Perm.of_eq (List.append_nil _).symm
  | cons member rest ih =>
      obtain ⟨literal, tree⟩ := member
      obtain ⟨key, spelling, read⟩ := Option.bind_eq_some_iff.mp read
      obtain ⟨value, decoded, read⟩ := Option.bind_eq_some_iff.mp read
      have later := ih (sorted.insert key value) read
      have placed := (sorted.perm_insert key value).filter
        fun member => some member.1 ∉ (spelled rest).map Prod.fst
      have others : (held.filter fun member => member.1 ≠ key).filter
            (fun member => some member.1 ∉ (spelled rest).map Prod.fst) =
          held.filter fun member => some member.1 ∉ some key :: (spelled rest).map Prod.fst := by
        rw [List.filter_filter]
        refine List.filter_congr fun member _ => ?_
        rw [Bool.eq_iff_iff, Bool.and_eq_true, decide_eq_true_eq, decide_eq_true_eq,
          decide_eq_true_eq, List.mem_cons, not_or, Option.some.injEq, and_comm]
      rw [List.filter_cons, others] at placed
      have moved := later.trans ((placed.map fun member =>
        (some member.1, some member.2)).append_right _)
      have shape : spelled ((literal, tree) :: rest) = (some key, tree) :: spelled rest := by
        rw [spelled_cons, spelling]
      rw [shape, standing, List.map_cons]
      by_cases again : some key ∈ (spelled rest).map Prod.fst
      · rw [decide_eq_false (not_not.mpr again), if_neg Bool.false_ne_true] at moved
        rw [if_pos again]
        exact moved
      · rw [decide_eq_true again, if_pos rfl, List.map_cons, List.cons_append] at moved
        rw [if_neg again, List.map_cons, decoded]
        exact moved.trans List.perm_middle.symm

/-- All that an object lists under a name. -/
def listed (name : String) (members : List (StrLit × Json)) : List Json :=
  (members.filter fun member => member.1.string? = some name).map Prod.snd

/-- A map has what is listed last. -/
theorem lookup_toMembers {members : List (StrLit × Json)} {held values : List (String × Value F)}
    (read : toMembers f64 members held = some values) (name : String) :
    values.lookup name = (listed name members).getLast?.elim (held.lookup name) (toValue f64) := by
  induction members generalizing held with
  | nil =>
      cases read
      rfl
  | cons member rest ih =>
      obtain ⟨literal, tree⟩ := member
      obtain ⟨key, spelling, read⟩ := Option.bind_eq_some_iff.mp read
      obtain ⟨value, decoded, read⟩ := Option.bind_eq_some_iff.mp read
      rw [ih read, Value.lookup_insert, listed, listed, List.filter_cons, spelling]
      by_cases same : name = key
      · rw [if_pos same, if_pos (decide_eq_true (congrArg some same.symm)), List.map_cons,
          List.getLast?_cons]
        cases ((rest.filter fun member => member.1.string? = some name).map Prod.snd).getLast? with
        | none => exact decoded.symm
        | some last => rfl
      · rw [if_neg same, if_neg fun own => same (Option.some.inj (of_decide_eq_true own)).symm]

end Wire.Json
