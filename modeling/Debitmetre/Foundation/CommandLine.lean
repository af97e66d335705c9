import Mathlib.Data.List.Basic
import Mathlib.Data.List.Induction

/-!
# Command lines

The words of a command line are read from left to right.  A word makes a setting, or it
takes the word after it to make one, or it is refused.  A line is read exactly if it spells
settings one after another, and what is said of another line is said of the first place
where no setting is spelled.
-/

namespace Debitmetre

namespace CommandLine

variable {α ε σ : Type}

/-- What a word of a command line stands for. -/
inductive Word (α ε : Type)
  | flag (setting : α)
  /-- The word takes the next one. -/
  | option (missing : ε) (take : String → Except ε α)
  | refused (error : ε)

/-- A line is read word by word, and each setting is put into a state. -/
def read (word : String → Word α ε) (put : σ → α → σ) (state : σ) : List String → Except ε σ
  | [] => .ok state
  | first :: rest =>
      match word first with
      | .flag setting => read word put (put state setting) rest
      | .refused error => .error error
      | .option missing take =>
          match rest with
          | [] => .error missing
          | value :: rest =>
              match take value with
              | .ok setting => read word put (put state setting) rest
              | .error error => .error error

/-- The words that a setting is made from. -/
inductive Spelled (word : String → Word α ε) : α → List String → Prop
  | flag {first : String} {setting : α} (stands : word first = .flag setting) :
      Spelled word setting [first]
  | option {first value : String} {setting : α} {missing : ε} {take : String → Except ε α}
      (stands : word first = .option missing take) (taken : take value = .ok setting) :
      Spelled word setting [first, value]

/-- What is said of a line that begins with no setting. -/
inductive Offends (word : String → Word α ε) : List String → ε → Prop
  | refused {first : String} {rest : List String} {error : ε}
      (stands : word first = .refused error) : Offends word (first :: rest) error
  | missing {first : String} {missing : ε} {take : String → Except ε α}
      (stands : word first = .option missing take) : Offends word [first] missing
  | taken {first value : String} {rest : List String} {missing error : ε}
      {take : String → Except ε α} (stands : word first = .option missing take)
      (taken : take value = .error error) : Offends word (first :: value :: rest) error

/-- A line that spells settings one after another, in some way of spelling each. -/
inductive Spells (spelled : α → List String → Prop) : List α → List String → Prop
  | nil : Spells spelled [] []
  | cons {setting : α} {settings : List α} {words rest : List String}
      (first : spelled setting words) (others : Spells spelled settings rest) :
      Spells spelled (setting :: settings) (words ++ rest)

theorem Spells.mono {spelled spelled' : α → List String → Prop}
    (more : ∀ {setting words}, spelled setting words → spelled' setting words)
    {settings : List α} {words : List String} (line : Spells spelled settings words) :
    Spells spelled' settings words := by
  induction line with
  | nil => exact .nil
  | cons first others ih => exact .cons (more first) ih

theorem spells_congr {spelled spelled' : α → List String → Prop}
    (same : ∀ {setting words}, spelled setting words ↔ spelled' setting words)
    {settings : List α} {words : List String} :
    Spells spelled settings words ↔ Spells spelled' settings words :=
  ⟨Spells.mono same.mp, Spells.mono same.mpr⟩

variable {word : String → Word α ε} {put : σ → α → σ}

theorem read_spelled {setting : α} {words : List String} (spelled : Spelled word setting words)
    (state : σ) (rest : List String) :
    read word put state (words ++ rest) = read word put (put state setting) rest := by
  cases spelled with
  | flag stands => rw [List.singleton_append, read, stands]
  | option stands taken =>
      rw [List.cons_append, List.singleton_append, read, stands]
      simp only [taken]

theorem read_spells {settings : List α} {words : List String}
    (line : Spells (Spelled word) settings words) (state : σ) (rest : List String) :
    read word put state (words ++ rest) = read word put (settings.foldl put state) rest := by
  induction line generalizing state with
  | nil => rfl
  | cons first others ih => rw [List.append_assoc, read_spelled first, ih, List.foldl_cons]

theorem read_offends {words : List String} {error : ε} (offends : Offends word words error)
    (state : σ) : read word put state words = .error error := by
  cases offends with
  | refused stands => rw [read, stands]
  | missing stands => rw [read, stands]
  | taken stands taken =>
      rw [read, stands]
      simp only [taken]

/-- A line begins with a setting, or it offends, or it is over. -/
theorem begins (word : String → Word α ε) (words : List String) :
    words = [] ∨ (∃ error, Offends word words error) ∨
      ∃ setting spelling rest, Spelled word setting spelling ∧ words = spelling ++ rest ∧
        rest.length < words.length := by
  cases words with
  | nil => exact .inl rfl
  | cons first rest =>
      refine .inr ?_
      cases stands : word first with
      | flag setting =>
          exact .inr ⟨setting, [first], rest, .flag stands, rfl, Nat.lt_succ_self _⟩
      | refused error => exact .inl ⟨error, .refused stands⟩
      | option missing take =>
          cases rest with
          | nil => exact .inl ⟨missing, .missing stands⟩
          | cons value rest =>
              cases taken : take value with
              | error error => exact .inl ⟨error, .taken stands taken⟩
              | ok setting =>
                  refine .inr ⟨setting, [first, value], rest, .option stands taken, rfl, ?_⟩
                  rw [List.length_cons, List.length_cons]
                  omega

/-- Every line spells settings up to its end, or up to a place where it offends. -/
theorem divides (word : String → Word α ε) (words : List String) :
    ∃ settings before rest, Spells (Spelled word) settings before ∧ words = before ++ rest ∧
      (rest = [] ∨ ∃ error, Offends word rest error) := by
  induction length : words.length using Nat.strongRecOn generalizing words with
  | ind length ih =>
      rcases begins word words with ended | offends |
        ⟨setting, spelling, rest, spelled, same, shorter⟩
      · exact ⟨[], [], words, .nil, rfl, .inl ended⟩
      · exact ⟨[], [], words, .nil, rfl, .inr offends⟩
      · obtain ⟨settings, before, rest, line, divided, ends⟩ :=
          ih rest.length (length ▸ shorter) rest rfl
        refine ⟨setting :: settings, spelling ++ before, rest, .cons spelled line, ?_, ends⟩
        rw [same, divided, List.append_assoc]

/-- **A line is read** if and only if it spells settings one after another, and these are
put into the state in their order. -/
theorem read_eq_ok_iff {state final : σ} {words : List String} :
    read word put state words = .ok final ↔
      ∃ settings, Spells (Spelled word) settings words ∧ settings.foldl put state = final := by
  constructor
  · intro parsed
    obtain ⟨settings, before, rest, line, same, ends⟩ := divides word words
    rw [same, read_spells line] at parsed
    rcases ends with ended | ⟨error, offends⟩
    · rw [ended, read] at parsed
      rw [same, ended, List.append_nil]
      exact ⟨settings, line, Except.ok.inj parsed⟩
    · rw [read_offends offends] at parsed
      cases parsed
  · intro spelled
    obtain ⟨settings, line, same⟩ := spelled
    rw [← List.append_nil words, read_spells line, read, same]

/-- **A line is refused** for the first place where it spells no setting. -/
theorem read_eq_error_iff {state : σ} {words : List String} {error : ε} :
    read word put state words = .error error ↔
      ∃ settings before rest, Spells (Spelled word) settings before ∧ words = before ++ rest ∧
        Offends word rest error := by
  constructor
  · intro parsed
    obtain ⟨settings, before, rest, line, same, ends⟩ := divides word words
    rw [same, read_spells line] at parsed
    rcases ends with ended | ⟨other, offends⟩
    · rw [ended, read] at parsed
      cases parsed
    · rw [read_offends offends] at parsed
      rw [← Except.error.inj parsed]
      exact ⟨settings, before, rest, line, same, offends⟩
  · intro refused
    obtain ⟨settings, before, rest, line, same, offends⟩ := refused
    rw [same, read_spells line, read_offends offends]

variable (put) in
/-- The last setting that gives a value decides it. -/
theorem foldl_put_or {β : Type} (value : σ → Option β) (given : α → Option β)
    (decides : ∀ state setting, value (put state setting) = (given setting).or (value state))
    (settings : List α) (state : σ) :
    value (settings.foldl put state) = (settings.filterMap given).getLast?.or (value state) := by
  induction settings using List.reverseRecOn with
  | nil => rfl
  | append_singleton settings setting ih =>
      rw [List.foldl_append, List.foldl_cons, List.foldl_nil, decides, List.filterMap_append, ih]
      cases one : given setting with
      | none =>
          rw [List.filterMap_cons_none one, List.filterMap_nil, List.append_nil, Option.none_or]
      | some _ =>
          rw [List.filterMap_cons_some one, List.filterMap_nil, List.getLast?_concat,
            Option.some_or, Option.some_or]

variable (put) in
/-- The last setting that gives a value decides it, and if there is none, the default. -/
theorem foldl_put_getD {β : Type} (value : σ → β) (given : α → Option β)
    (decides : ∀ state setting, value (put state setting) = (given setting).getD (value state))
    (settings : List α) (state : σ) :
    value (settings.foldl put state) =
      (settings.filterMap given).getLast?.getD (value state) := by
  apply Option.some.inj
  rw [foldl_put_or put (fun state => some (value state)) given]
  · exact Option.or_some
  · intro state setting
    rw [decides]
    exact Option.or_some.symm

end CommandLine

end Debitmetre
