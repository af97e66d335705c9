import Mathlib.Data.List.DropRight

/-!
# Columns and lines

A text that is filled up to the width of a column.  Texts look alike in a column if
they fit and differ only in what they are filled up with; in two columns that stand
next to each other a text too wide for the first also goes on into the second.
Columns that are filled up on the left, each after a blank, are known from a whole
line if their texts have no blanks.
Texts that are each ended by a separator are its lines if and only if the separator
is in none of them.
-/

namespace Columns

variable {α : Type*}

/-- A text filled up on its right.  One that is too wide stays as it is. -/
def alignLeft (fill : α) (width : Nat) (text : List α) : List α :=
  text ++ List.replicate (width - text.length) fill

/-- A text filled up on its left. -/
def alignRight (fill : α) (width : Nat) (text : List α) : List α :=
  List.replicate (width - text.length) fill ++ text

section Aligned

variable (fill : α) (width : Nat)

/-- A column is as wide as it is told to be, or as the text. -/
theorem length_alignLeft (text : List α) :
    (alignLeft fill width text).length = max width text.length := by
  rw [alignLeft, List.length_append, List.length_replicate]
  omega

theorem alignLeft_of_le {text : List α} (wide : width ≤ text.length) :
    alignLeft fill width text = text := by
  rw [alignLeft, Nat.sub_eq_zero_of_le wide, List.replicate_zero, List.append_nil]

/-- Filling a column adds nothing else to its text. -/
theorem mem_alignLeft {text : List α} {a : α} (other : a ≠ fill) :
    a ∈ alignLeft fill width text ↔ a ∈ text := by
  simp only [alignLeft, List.mem_append, List.mem_replicate, other, and_false, or_false]

/-- Filling a column on the left adds nothing else either. -/
theorem mem_alignRight {text : List α} {a : α} (other : a ≠ fill) :
    a ∈ alignRight fill width text ↔ a ∈ text := by
  simp only [alignRight, List.mem_append, List.mem_replicate, other, and_false, false_or]

/-- A text that is aligned on the right ends the column. -/
theorem getLast?_alignRight {text : List α} (more : text ≠ []) :
    (alignRight fill width text).getLast? = text.getLast? := by
  rw [alignRight, List.getLast?_append_of_ne_nil _ more]

end Aligned

section Alike

variable [DecidableEq α] (fill : α)

/-- A text without what it ends in that it could be filled up with. -/
def unfilled (text : List α) : List α := text.rdropWhile (· == fill)

/-- Filling is taken away again. -/
theorem unfilled_append_replicate (text : List α) (n : Nat) :
    unfilled fill (text ++ List.replicate n fill) = unfilled fill text := by
  induction n with
  | zero => rw [List.replicate_zero, List.append_nil]
  | succ n ih =>
      rw [List.replicate_succ', ← List.append_assoc, unfilled,
        List.rdropWhile_concat_pos (· == fill) _ _ (beq_self_eq_true fill)]
      exact ih

/-- A text ends in some filling. -/
theorem eq_unfilled_append (text : List α) :
    ∃ n, text = unfilled fill text ++ List.replicate n fill := by
  refine ⟨(text.rtakeWhile (· == fill)).length, ?_⟩
  have filled : text.rtakeWhile (· == fill) =
      List.replicate (text.rtakeWhile (· == fill)).length fill :=
    List.eq_replicate_of_mem fun a member =>
      eq_of_beq (List.mem_rtakeWhile_imp (p := (· == fill)) member)
  rw [← filled]
  exact (List.rdropWhile_append_rtakeWhile).symm

/-- What a text that fits is filled up to. -/
theorem alignLeft_of_ge {width : Nat} {text : List α} (fits : text.length ≤ width) :
    alignLeft fill width text =
      unfilled fill text ++ List.replicate (width - (unfilled fill text).length) fill := by
  obtain ⟨n, shape⟩ := eq_unfilled_append fill text
  have lengths := congrArg List.length shape
  rw [List.length_append, List.length_replicate] at lengths
  have filled : n + (width - text.length) = width - (unfilled fill text).length := by omega
  rw [alignLeft]
  conv => lhs; lhs; rw [shape]
  rw [List.append_assoc, List.replicate_append_replicate, filled]

/-- Texts that look alike in a column. -/
def SameIn (width : Nat) (first second : List α) : Prop :=
  first = second ∨
    first.length ≤ width ∧ second.length ≤ width ∧ unfilled fill first = unfilled fill second

instance (width : Nat) (first second : List α) : Decidable (SameIn fill width first second) :=
  inferInstanceAs (Decidable (_ ∨ _))

/-- **Texts fill a column alike** exactly if they are the same in it. -/
theorem alignLeft_eq_iff (width : Nat) (first second : List α) :
    alignLeft fill width first = alignLeft fill width second ↔
      SameIn fill width first second := by
  constructor
  · intro same
    by_cases fit : first.length ≤ width ∧ second.length ≤ width
    · refine .inr ⟨fit.1, fit.2, ?_⟩
      have trimmed := congrArg (unfilled fill) same
      rwa [alignLeft, alignLeft, unfilled_append_replicate, unfilled_append_replicate] at trimmed
    · -- One of them is too wide, and then the other is as wide.
      have lengths := congrArg List.length same
      rw [length_alignLeft, length_alignLeft] at lengths
      have wide : width ≤ first.length ∧ width ≤ second.length := by omega
      rw [alignLeft_of_le fill width wide.1, alignLeft_of_le fill width wide.2] at same
      exact .inl same
  · rintro (rfl | ⟨fits, fits', same⟩)
    · rfl
    · rw [alignLeft_of_ge fill fits, alignLeft_of_ge fill fits', same]

/-- A text goes on past its column, into what stands in the next one. -/
def RunsInto (width width' : Nat) (narrow wide : List α × List α) : Prop :=
  ∃ excess ≠ [], wide.1 = alignLeft fill width narrow.1 ++ excess ∧
    narrow.2 = excess ++ alignLeft fill width' wide.2

/-- Pairs of texts that look alike in two columns next to each other. -/
def SamePair (width width' : Nat) (first second : List α × List α) : Prop :=
  SameIn fill width first.1 second.1 ∧ SameIn fill width' first.2 second.2 ∨
    RunsInto fill width width' first second ∨ RunsInto fill width width' second first

/-- Two columns next to each other. -/
def alignPair (width width' : Nat) (texts : List α × List α) : List α :=
  alignLeft fill width texts.1 ++ alignLeft fill width' texts.2

omit [DecidableEq α] in
/-- A text that runs into the next column shows the same. -/
theorem alignPair_of_runsInto {width width' : Nat} {narrow wide : List α × List α}
    (runs : RunsInto fill width width' narrow wide) :
    alignPair fill width width' narrow = alignPair fill width width' wide := by
  obtain ⟨excess, -, first, second⟩ := runs
  have wide_first : width ≤ wide.1.length := by
    rw [first, List.length_append, length_alignLeft]
    omega
  have wide_second : width' ≤ narrow.2.length := by
    rw [second, List.length_append, length_alignLeft]
    omega
  rw [alignPair, alignPair, alignLeft_of_le fill width wide_first,
    alignLeft_of_le fill width' wide_second, first, second, List.append_assoc]

omit [DecidableEq α] in
/-- A first column that another one begins with. -/
theorem runsInto_of_append {width width' : Nat} {narrow wide : List α × List α}
    {excess : List α} (more : excess ≠ [])
    (first : alignLeft fill width wide.1 = alignLeft fill width narrow.1 ++ excess)
    (second : alignLeft fill width' narrow.2 = excess ++ alignLeft fill width' wide.2) :
    RunsInto fill width width' narrow wide := by
  have positive : 0 < excess.length := List.length_pos_of_ne_nil more
  have lengths := congrArg List.length first
  have lengths' := congrArg List.length second
  rw [List.length_append, length_alignLeft, length_alignLeft] at lengths lengths'
  have wide_first : width ≤ wide.1.length := by omega
  have wide_second : width' ≤ narrow.2.length := by omega
  rw [alignLeft_of_le fill width wide_first] at first
  rw [alignLeft_of_le fill width' wide_second] at second
  exact ⟨excess, more, first, second⟩

/-- **Two columns next to each other show the same** if and only if each shows the
same, or the first runs into the second. -/
theorem alignPair_eq_iff (width width' : Nat) (first second : List α × List α) :
    alignPair fill width width' first = alignPair fill width width' second ↔
      SamePair fill width width' first second := by
  constructor
  · intro same
    rcases List.append_eq_append_iff.mp same with ⟨excess, left, right⟩ | ⟨excess, left, right⟩
    · by_cases more : excess = []
      · rw [more, List.append_nil] at left
        rw [more, List.nil_append] at right
        exact .inl ⟨(alignLeft_eq_iff fill width _ _).mp left.symm,
          (alignLeft_eq_iff fill width' _ _).mp right⟩
      · exact .inr (.inl (runsInto_of_append fill more left right))
    · by_cases more : excess = []
      · rw [more, List.append_nil] at left
        rw [more, List.nil_append] at right
        exact .inl ⟨(alignLeft_eq_iff fill width _ _).mp left,
          (alignLeft_eq_iff fill width' _ _).mp right.symm⟩
      · exact .inr (.inr (runsInto_of_append fill more left right))
  · rintro (⟨left, right⟩ | runs | runs)
    · rw [alignPair, alignPair, (alignLeft_eq_iff fill width _ _).mpr left,
        (alignLeft_eq_iff fill width' _ _).mpr right]
    · exact alignPair_of_runsInto fill runs
    · exact (alignPair_of_runsInto fill runs).symm

end Alike

section Cells

variable (fill : α)

/-- What follows a blank and has none is known from the whole. -/
theorem append_inj_of_fill {start start' text text' : List α} (ends : start.getLast? = some fill)
    (ends' : start'.getLast? = some fill) (notMem : fill ∉ text) (notMem' : fill ∉ text')
    (same : start ++ text = start' ++ text') : start = start' ∧ text = text' := by
  have none_between {before after excess : List α} (more : excess ≠ [])
      (last : (before ++ excess).getLast? = some fill) : fill ∈ excess ++ after := by
    rw [List.getLast?_append_of_ne_nil _ more] at last
    exact List.mem_append_left _ (List.mem_of_getLast? last)
  rcases List.append_eq_append_iff.mp same with ⟨excess, rfl, rfl⟩ | ⟨excess, rfl, rfl⟩
  · by_cases more : excess = []
    · rw [more, List.append_nil, List.nil_append]
      exact ⟨rfl, rfl⟩
    · exact absurd (none_between more ends') notMem
  · by_cases more : excess = []
    · rw [more, List.append_nil, List.nil_append]
      exact ⟨rfl, rfl⟩
    · exact absurd (none_between more ends) notMem'

variable {width : Nat}

/-- A column on the right, after a blank, is known from the whole. -/
theorem append_cell_inj {start start' text text' : List α} (notMem : fill ∉ text)
    (notMem' : fill ∉ text') (same : start ++ fill :: alignRight fill width text =
      start' ++ fill :: alignRight fill width text') : start = start' ∧ text = text' := by
  have shape (start text : List α) : start ++ fill :: alignRight fill width text =
      (start ++ List.replicate (width - text.length + 1) fill) ++ text := by
    rw [alignRight, List.append_assoc, List.replicate_succ, List.cons_append]
  have ends (start text : List α) :
      (start ++ List.replicate (width - text.length + 1) fill).getLast? = some fill := by
    rw [List.replicate_succ', ← List.append_assoc, List.getLast?_concat]
  rw [shape, shape] at same
  obtain ⟨starts, rfl⟩ := append_inj_of_fill fill (ends _ _) (ends _ _) notMem notMem' same
  exact ⟨List.append_cancel_right starts, rfl⟩

/-- Texts without filling are told apart on the right of a column. -/
theorem alignRight_inj {text text' : List α} (notMem : fill ∉ text) (notMem' : fill ∉ text')
    (same : alignRight fill width text = alignRight fill width text') : text = text' := by
  have cell : [] ++ fill :: alignRight fill width text =
      [] ++ fill :: alignRight fill width text' := by rw [same]
  exact (append_cell_inj fill notMem notMem' cell).2

/-- Several columns on the right, each after a blank, are known from the whole. -/
theorem append_cells_inj {start start' : List α} {texts texts' : List (List α)}
    (lengths : texts.length = texts'.length) (notMem : ∀ text ∈ texts, fill ∉ text)
    (notMem' : ∀ text ∈ texts', fill ∉ text)
    (same : start ++ texts.flatMap (fun text => fill :: alignRight fill width text) =
      start' ++ texts'.flatMap fun text => fill :: alignRight fill width text) :
    start = start' ∧ texts = texts' := by
  induction texts generalizing start start' texts' with
  | nil =>
      obtain rfl := List.length_eq_zero_iff.mp lengths.symm
      exact ⟨List.append_cancel_right same, rfl⟩
  | cons text texts ih =>
      obtain _ | ⟨text', texts'⟩ := texts'
      · cases lengths
      · obtain ⟨first, rest⟩ := List.forall_mem_cons.mp notMem
        obtain ⟨first', rest'⟩ := List.forall_mem_cons.mp notMem'
        rw [List.flatMap_cons, List.flatMap_cons, ← List.append_assoc, ← List.append_assoc] at same
        obtain ⟨starts, others⟩ := ih (Nat.succ.inj lengths) rest rest' same
        obtain ⟨starts, texts⟩ := append_cell_inj fill first first' starts
        exact ⟨starts, by rw [texts, others]⟩

/-- A text that goes on into the column on its right, and is cut off there as if that
began where it ends. -/
def RunsOn (width : Nat) (narrow wide : List α × List α) : Prop :=
  ∃ excess ≠ [], wide.1 = narrow.1 ++ excess ∧ narrow.2 = excess ++ wide.2 ∧
    width ≤ wide.2.length

theorem alignRight_of_le {text : List α} (wide : width ≤ text.length) :
    alignRight fill width text = text := by
  rw [alignRight, Nat.sub_eq_zero_of_le wide, List.replicate_zero, List.nil_append]

theorem runsOn_of_append {narrow wide : List α × List α} {excess : List α} (more : excess ≠ [])
    (notMem : fill ∉ narrow.2) (first : wide.1 = narrow.1 ++ excess)
    (second : alignRight fill width narrow.2 = excess ++ alignRight fill width wide.2) :
    RunsOn width narrow wide := by
  have positive : 0 < excess.length := List.length_pos_of_ne_nil more
  have lengths := congrArg List.length second
  simp only [alignRight, List.length_append, List.length_replicate] at lengths
  have wide_first : width ≤ narrow.2.length := by omega
  rw [alignRight_of_le fill wide_first] at second
  have full : width - wide.2.length = 0 := by
    by_contra filled
    have blank : fill ∈ alignRight fill width wide.2 :=
      List.mem_append_left _ (List.mem_replicate.mpr ⟨filled, rfl⟩)
    exact notMem (second ▸ List.mem_append_right _ blank)
  rw [alignRight_of_le fill (Nat.le_of_sub_eq_zero full)] at second
  exact ⟨excess, more, first, second, Nat.le_of_sub_eq_zero full⟩

/-- A text that goes on into the column after it shows the same. -/
theorem append_alignRight_of_runsOn {narrow wide : List α × List α}
    (runs : RunsOn width narrow wide) :
    narrow.1 ++ alignRight fill width narrow.2 = wide.1 ++ alignRight fill width wide.2 := by
  obtain ⟨excess, -, first, second, full⟩ := runs
  have longer : width ≤ narrow.2.length := by
    rw [second, List.length_append]
    omega
  rw [alignRight_of_le fill longer, alignRight_of_le fill full, first, second, List.append_assoc]

/-- **A text and a column on its right show the same** as others if and only if they are
the same, or the one text runs on into its column. -/
theorem append_alignRight_eq_iff {first second : List α × List α} (notMem : fill ∉ first.2)
    (notMem' : fill ∉ second.2) :
    first.1 ++ alignRight fill width first.2 = second.1 ++ alignRight fill width second.2 ↔
      first = second ∨ RunsOn width first second ∨ RunsOn width second first := by
  constructor
  · intro same
    rcases List.append_eq_append_iff.mp same with ⟨excess, left, right⟩ | ⟨excess, left, right⟩
    · by_cases more : excess = []
      · rw [more, List.append_nil] at left
        rw [more, List.nil_append] at right
        exact .inl (Prod.ext left.symm (alignRight_inj fill notMem notMem' right))
      · exact .inr (.inl (runsOn_of_append fill more notMem left right))
    · by_cases more : excess = []
      · rw [more, List.append_nil] at left
        rw [more, List.nil_append] at right
        exact .inl (Prod.ext left (alignRight_inj fill notMem notMem' right.symm))
      · exact .inr (.inr (runsOn_of_append fill more notMem' left right))
  · rintro (rfl | runs | runs)
    · rfl
    · exact append_alignRight_of_runsOn fill runs
    · exact (append_alignRight_of_runsOn fill runs).symm

end Cells

section Lines

variable [DecidableEq α] (separator : α)

/-- Texts that are each ended by a separator. -/
def ended (texts : List (List α)) : List α := texts.flatMap (· ++ [separator])

/-- There is one more piece than there are separators. -/
theorem length_splitOn (text : List α) :
    (text.splitOn separator).length = text.count separator + 1 := by
  induction text with
  | nil => rfl
  | cons a text ih =>
      rw [List.splitOn_cons_eq_if_modifyHead, List.count_cons]
      split
      · rw [List.length_cons, ih]
      · rw [List.length_modifyHead, ih, Nat.add_zero]

/-- Texts that are ended by separators are split one by one. -/
theorem splitOn_ended_cons (text : List α) (texts : List (List α)) :
    (ended separator (text :: texts)).splitOn separator =
      text.splitOn separator ++ (ended separator texts).splitOn separator := by
  rw [ended, List.flatMap_cons, ← ended, List.append_assoc, List.singleton_append,
    List.splitOn_append_cons_self]

/-- There are at least as many pieces as there were texts. -/
theorem length_le_splitOn_ended (texts : List (List α)) :
    texts.length + 1 ≤ ((ended separator texts).splitOn separator).length := by
  induction texts with
  | nil => exact Nat.le_refl 1
  | cons text texts ih =>
      rw [splitOn_ended_cons, List.length_append, length_splitOn, List.length_cons]
      omega

/-- **Texts are the lines they are ended to** if and only if the separator is in none
of them. -/
theorem splitOn_ended_iff (texts : List (List α)) :
    (ended separator texts).splitOn separator = texts ++ [[]] ↔
      ∀ text ∈ texts, separator ∉ text := by
  induction texts with
  | nil => exact ⟨fun _ => nofun, fun _ => rfl⟩
  | cons text texts ih =>
      rw [splitOn_ended_cons, List.forall_mem_cons, ← ih]
      constructor
      · intro split
        have least := length_le_splitOn_ended separator texts
        have lengths := congrArg List.length split
        rw [List.length_append, length_splitOn, List.length_append, List.length_cons,
          List.length_singleton] at lengths
        have single : separator ∉ text := List.count_eq_zero.mp (by omega)
        rw [List.splitOn_eq_singleton single, List.singleton_append, List.cons_append,
          List.cons_inj_right] at split
        exact ⟨single, split⟩
      · rintro ⟨single, rest⟩
        rw [List.splitOn_eq_singleton single, rest, List.singleton_append, List.cons_append]

end Lines

end Columns
