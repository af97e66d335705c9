import Debitmetre.Usage.Extraction

/-!
# Counters

A counter of a `usage` object may stand in several places, and the first place
that holds an unsigned 64-bit integer should count.  Four of the six counters are
read so.  The totals of input and output are read from the first place that holds
anything, whether it is a counter or not.
-/

namespace Debitmetre

open Wire Wire.Json

variable {F : Type}

/-- The counters read from a `usage` object. -/
inductive RawCounter
  | inputTotal
  | cacheRead
  | cacheWrite
  | outputTotal
  | reasoning
  | total
  deriving DecidableEq, Repr

def RawUsage.counter (raw : RawUsage) : RawCounter → Option UInt64
  | .inputTotal => raw.inputTotal
  | .cacheRead => raw.cacheRead
  | .cacheWrite => raw.cacheWrite
  | .outputTotal => raw.outputTotal
  | .reasoning => raw.reasoning
  | .total => raw.total

/-- The places a counter may stand in, in the order of their precedence. -/
def RawCounter.places : RawCounter → List (List String)
  | .inputTotal => [["input_tokens"], ["prompt_tokens"]]
  | .cacheRead =>
      [["input_tokens_details", "cached_tokens"], ["prompt_cache_hit_tokens"],
        ["cache_read_input_tokens"]]
  | .cacheWrite =>
      [["input_tokens_details", "cache_write_tokens"], ["cache_write_input_tokens"],
        ["cache_write_tokens"], ["cache_creation_input_tokens"],
        ["prompt_tokens_details", "cache_write_tokens"]]
  | .outputTotal => [["output_tokens"], ["completion_tokens"]]
  | .reasoning =>
      [["output_tokens_details", "reasoning_tokens"],
        ["completion_tokens_details", "reasoning_tokens"], ["reasoning_tokens"]]
  | .total => [["total_tokens"]]

/-- What the first of some places that holds a counter holds. -/
def firstHeld (usage : Value F) (places : List (List String)) : Option UInt64 :=
  places.findSome? (nested usage)

theorem RawUsage.ext_counter {raw raw' : RawUsage}
    (same : ∀ c, raw.counter c = raw'.counter c) : raw = raw' := by
  obtain ⟨inputTotal, cacheRead, cacheWrite, outputTotal, reasoning, total⟩ := raw
  rw [RawUsage.mk.injEq]
  exact ⟨same .inputTotal, same .cacheRead, same .cacheWrite, same .outputTotal,
    same .reasoning, same .total⟩

theorem nested_cons (usage : Value F) (name : String) (path : List String) :
    nested usage (name :: path) = (usage.get name).bind fun inner => nested inner path := by
  rw [nested, List.foldlM_cons]
  exact Option.bind_assoc ..

theorem nested_singleton (usage : Value F) (name : String) :
    nested usage [name] = (usage.get name).bind Value.asU64 := nested_cons usage name []

@[simp] theorem firstHeld_nil (usage : Value F) : firstHeld usage [] = none := rfl

theorem firstHeld_cons (usage : Value F) (path : List String) (places : List (List String)) :
    firstHeld usage (path :: places) = (nested usage path <|> firstHeld usage places) := by
  rw [firstHeld, List.findSome?_cons]
  cases nested usage path <;> rfl

theorem firstHeld_congr {usage usage' : Value F} {places : List (List String)}
    (same : ∀ place ∈ places, nested usage place = nested usage' place) :
    firstHeld usage places = firstHeld usage' places := by
  induction places with
  | nil => rfl
  | cons place places ih =>
      obtain ⟨first, rest⟩ := List.forall_mem_cons.mp same
      rw [firstHeld_cons, firstHeld_cons, first, ih rest]

/-- The total that is read from the first of two places that holds anything. -/
def chosen (usage : Value F) (name legacy : String) : Option UInt64 :=
  (usage.get name <|> usage.get legacy).bind Value.asU64

/-- All counters but the totals of input and output are read from the first place
that holds one. -/
theorem extractRawUsage_counter (usage : Value F) (c : RawCounter) :
    (extractRawUsage usage).counter c = match c with
      | .inputTotal => chosen usage "input_tokens" "prompt_tokens"
      | .outputTotal => chosen usage "output_tokens" "completion_tokens"
      | c => firstHeld usage c.places := by
  cases c with
  | inputTotal | outputTotal => rfl
  | cacheRead | cacheWrite | reasoning | total =>
      simp only [RawUsage.counter, extractRawUsage, RawCounter.places, firstHeld_cons,
        firstHeld_nil, nested_singleton, Option.orElse_eq_orElse, Option.orElse_eq_or,
        Option.or_none]

/-- A counter in the second of two places is hidden by what stands in the first. -/
def Hidden (usage : Value F) (name legacy : String) : Prop :=
  (∃ value, usage.get name = some value ∧ value.asU64 = none) ∧ (nested usage [legacy]).isSome

/-- A counter in the second of two places would be hidden by anything that was put
in the first. -/
def Hideable (usage : Value F) (name legacy : String) : Prop :=
  usage.get name = none ∧ (nested usage [legacy]).isSome

theorem chosen_eq_firstHeld_iff (usage : Value F) (name legacy : String) :
    chosen usage name legacy = firstHeld usage [[name], [legacy]] ↔
      ¬ Hidden usage name legacy := by
  simp only [chosen, Hidden, firstHeld_cons, firstHeld_nil, nested_singleton]
  cases usage.get name with
  | none => simp
  | some value =>
      cases held : value.asU64 <;> cases (usage.get legacy).bind Value.asU64 <;> simp [held]

/-- Every counter is what the first place that holds one holds. -/
def NoneDropped (usage : Value F) : Prop :=
  ∀ c, (extractRawUsage usage).counter c = firstHeld usage c.places

theorem noneDropped_iff (usage : Value F) : NoneDropped usage ↔
    ¬ Hidden usage "input_tokens" "prompt_tokens" ∧
      ¬ Hidden usage "output_tokens" "completion_tokens" := by
  constructor
  · intro kept
    have input := kept .inputTotal
    have output := kept .outputTotal
    rw [extractRawUsage_counter] at input output
    exact ⟨(chosen_eq_firstHeld_iff _ _ _).mp input, (chosen_eq_firstHeld_iff _ _ _).mp output⟩
  · rintro ⟨input, output⟩ c
    rw [extractRawUsage_counter]
    cases c with
    | inputTotal => exact (chosen_eq_firstHeld_iff _ _ _).mpr input
    | outputTotal => exact (chosen_eq_firstHeld_iff _ _ _).mpr output
    | cacheRead | cacheWrite | reasoning | total => rfl

/-- An object with a null member more, at the end of a path that it lacks. -/
def withNull : Value F → List String → Option (Value F)
  | .object members, [name] =>
      if (members.lookup name).isNone then some (.object (Value.insert name .null members))
      else none
  | .object members, name :: path =>
      (members.lookup name).bind fun inner => (withNull inner path).map fun inner =>
        .object (Value.insert name inner members)
  | _, _ => none

/-- What a null member in a path adds to an object. -/
theorem withNull_eq_some {usage wider : Value F} {path : List String}
    (added : withNull usage path = some wider) :
    ∃ members name rest inner, usage = .object members ∧ path = name :: rest ∧
      wider = .object (Value.insert name inner members) ∧
      ((rest = [] ∧ members.lookup name = none ∧ inner = .null) ∨
        ∃ held, members.lookup name = some held ∧ withNull held rest = some inner) := by
  unfold withNull at added
  split at added
  · rename_i members name
    obtain ⟨lacking, same⟩ := Option.ite_none_right_eq_some.mp added
    cases same
    exact ⟨members, name, [], .null, rfl, rfl, rfl,
      .inl ⟨rfl, Option.isNone_iff_eq_none.mp lacking, rfl⟩⟩
  · rename_i members name rest more
    obtain ⟨held, found, added⟩ := Option.bind_eq_some_iff.mp added
    obtain ⟨inner, within, rfl⟩ := Option.map_eq_some_iff.mp added
    exact ⟨members, name, rest, inner, rfl, rfl, rfl, .inr ⟨held, found, within⟩⟩
  · cases added

/-- Another member is as it was. -/
theorem get_withNull_of_ne {usage wider : Value F} {path : List String} {name : String}
    (added : withNull usage path = some wider) (other : path.head? ≠ some name) :
    wider.get name = usage.get name := by
  obtain ⟨members, head, rest, inner, rfl, rfl, rfl, -⟩ := withNull_eq_some added
  rw [List.head?_cons, ne_eq, Option.some.injEq] at other
  rw [Value.get, Value.get, Value.lookup_insert, if_neg (Ne.symm other)]

/-- The added member is null, and there was none. -/
theorem get_withNull_singleton {usage wider : Value F} {name : String}
    (added : withNull usage [name] = some wider) :
    usage.get name = none ∧ wider.get name = some .null := by
  obtain ⟨members, head, rest, inner, rfl, path, rfl, ⟨-, lacking, rfl⟩ | ⟨held, -, none⟩⟩ :=
    withNull_eq_some added
  · obtain ⟨rfl, -⟩ := List.cons.inj path
    exact ⟨lacking, by rw [Value.get, Value.lookup_insert, if_pos rfl]⟩
  · obtain ⟨-, rfl⟩ := List.cons.inj path
    cases held <;> cases none

/-- A null member is no counter, and hides none that stands elsewhere. -/
theorem nested_withNull {usage wider : Value F} {path : List String}
    (added : withNull usage path = some wider) (place : List String) :
    nested wider place = nested usage place := by
  induction path generalizing usage wider place with
  | nil =>
      obtain ⟨members, name, rest, inner, object, nothing, more⟩ := withNull_eq_some added
      cases nothing
  | cons first path ih =>
      obtain ⟨members, name, rest, inner, rfl, same, rfl, more⟩ := withNull_eq_some added
      obtain ⟨rfl, rfl⟩ := List.cons.inj same
      cases place with
      | nil => rfl
      | cons head place =>
          rw [nested_cons, nested_cons, Value.get, Value.get, Value.lookup_insert]
          by_cases there : head = first
          · rw [if_pos there, there, Option.bind_some]
            rcases more with ⟨-, lacking, rfl⟩ | ⟨held, found, added⟩
            · rw [lacking]
              cases place <;> rfl
            · rw [found, Option.bind_some]
              exact ih added place
          · rw [if_neg there]

/-- A null member for a candidate that is lacking changes no counter. -/
def NullsIgnored (usage : Value F) : Prop :=
  ∀ c : RawCounter, ∀ place ∈ c.places, ∀ wider, withNull usage place = some wider →
    extractRawUsage wider = extractRawUsage usage

/-- A null member changes a total only where it hides it. -/
theorem chosen_withNull {usage wider : Value F} {name legacy : String} {path : List String}
    (added : withNull usage path = some wider)
    (place : path.head? = some name ∨ path.head? = some legacy → path.length = 1)
    (seen : ¬ Hideable usage name legacy) :
    chosen wider name legacy = chosen usage name legacy := by
  by_cases first : path = [name]
  · subst path
    obtain ⟨lacking, null⟩ := get_withNull_singleton added
    have none : nested usage [legacy] = none := by
      by_contra held
      exact seen ⟨lacking, Option.isSome_iff_ne_none.mpr held⟩
    rw [nested_singleton] at none
    rw [chosen, chosen, lacking, null]
    exact none.symm
  · have kept : wider.get name = usage.get name := by
      apply get_withNull_of_ne added
      intro head
      have single := place (.inl head)
      obtain ⟨only, rfl⟩ := List.length_eq_one_iff.mp single
      exact first (congrArg (fun name => [name]) (Option.some.inj head))
    by_cases second : path.head? = some legacy
    · obtain ⟨only, rfl⟩ := List.length_eq_one_iff.mp (place (.inr second))
      obtain rfl : only = legacy := Option.some.inj second
      obtain ⟨lacking, null⟩ := get_withNull_singleton added
      rw [chosen, chosen, kept, lacking, null]
      cases usage.get name <;> rfl
    · rw [chosen, chosen, kept, get_withNull_of_ne added second]

/-- The totals are the only members whose candidates are read without a path. -/
theorem length_of_mem_places {c : RawCounter} {place : List String} (member : place ∈ c.places)
    {name : String} (total : name ∈ ["input_tokens", "prompt_tokens", "output_tokens",
      "completion_tokens"]) (head : place.head? = some name) : place.length = 1 := by
  cases c <;> simp only [RawCounter.places, List.mem_cons, List.not_mem_nil, or_false] at member <;>
    rcases member with rfl | rfl | rfl | rfl | rfl <;> first
      | rfl
      | (cases head; simp at total)

theorem nullsIgnored_iff (usage : Value F) : NullsIgnored usage ↔
    ¬ Hideable usage "input_tokens" "prompt_tokens" ∧
      ¬ Hideable usage "output_tokens" "completion_tokens" := by
  constructor
  · intro ignored
    have hidden (c : RawCounter) {name legacy : String} (places : [name] ∈ c.places)
        (read : ∀ usage : Value F, (extractRawUsage usage).counter c = chosen usage name legacy) :
        ¬ Hideable usage name legacy := by
      rintro ⟨lacking, held⟩
      obtain ⟨members, rfl⟩ : ∃ members, usage = .object members := by
        cases usage with
        | object members => exact ⟨members, rfl⟩
        | null | bool | number | string | array =>
            rw [nested_singleton] at held
            cases held
      have lacks : (members.lookup name).isNone := Option.isNone_iff_eq_none.mpr lacking
      have added : withNull (.object members) [name] =
          some (.object (Value.insert name .null members)) := by rw [withNull, if_pos lacks]
      have same := congrArg (RawUsage.counter · c) (ignored c [name] places _ added)
      have null := (get_withNull_singleton added).2
      rw [read, read, chosen, null, chosen, lacking] at same
      rw [nested_singleton] at held
      exact Option.not_isSome_iff_eq_none.mpr same.symm held
    exact ⟨hidden .inputTotal (by simp [RawCounter.places]) fun _ => rfl,
      hidden .outputTotal (by simp [RawCounter.places]) fun _ => rfl⟩
  · rintro ⟨input, output⟩ c place member wider added
    apply RawUsage.ext_counter
    intro c'
    rw [extractRawUsage_counter, extractRawUsage_counter]
    cases c' with
    | inputTotal =>
        exact chosen_withNull added (fun head => head.elim
          (length_of_mem_places member (by simp)) (length_of_mem_places member (by simp))) input
    | outputTotal =>
        exact chosen_withNull added (fun head => head.elim
          (length_of_mem_places member (by simp)) (length_of_mem_places member (by simp))) output
    | cacheRead | cacheWrite | reasoning | total =>
        exact firstHeld_congr fun place _ => nested_withNull added place

/-- **A counter is dropped exactly when a total is hidden**: when its first place
holds something that is no counter, and its second place holds one.  A null
member for a lacking candidate changes a counter exactly when it is put in the
first place of a total whose second place holds one. -/
theorem keepsCounters_iff (usage : Value F) :
    (NoneDropped usage ↔
      ¬ Hidden usage "input_tokens" "prompt_tokens" ∧
        ¬ Hidden usage "output_tokens" "completion_tokens") ∧
      (NullsIgnored usage ↔
        ¬ Hideable usage "input_tokens" "prompt_tokens" ∧
          ¬ Hideable usage "output_tokens" "completion_tokens") :=
  ⟨noneDropped_iff usage, nullsIgnored_iff usage⟩

/-- A null member hides a total of another name, which is read from the object without
that member. -/
theorem not_keepsCounters :
    let five : Value Empty := .number (.posInt 5)
    ¬ NoneDropped (.object [("input_tokens", .null), ("prompt_tokens", five)]) ∧
      ¬ NullsIgnored (.object [("prompt_tokens", five)]) := by
  intro five
  constructor
  · intro kept
    exact ((noneDropped_iff _).mp kept).1 ⟨⟨.null, rfl, rfl⟩, rfl⟩
  · intro ignored
    exact ((nullsIgnored_iff _).mp ignored).1 ⟨rfl, rfl⟩

/-- The name of a counter in a chat completion. -/
def legacyName (name : String) : String :=
  if name = "input_tokens" then "prompt_tokens"
  else if name = "output_tokens" then "completion_tokens"
  else if name = "input_tokens_details" then "prompt_tokens_details"
  else if name = "output_tokens_details" then "completion_tokens_details"
  else name

/-- The names that only chat completions use. -/
def legacyNames : List String :=
  ["prompt_tokens", "completion_tokens", "prompt_tokens_details", "completion_tokens_details"]

/-- A `usage` object with the names of chat completions. -/
def legacyUsage : Value F → Value F
  | .object members => .object (Value.renamed legacyName members)
  | usage => usage

/-- A `usage` object is written with the names of Responses. -/
def ResponsesNames (usage : Value F) : Prop := ∀ name ∈ legacyNames, usage.get name = none

theorem responsesNames_object {members : List (String × Value F)}
    (plain : (members.all fun member => !legacyNames.contains member.1) = true) :
    ResponsesNames (.object members) := by
  intro name legacy
  apply List.lookup_eq_none_iff.mpr
  intro member here
  rw [bne_iff_ne]
  rintro rfl
  have absent := List.all_eq_true.mp plain member here
  rw [List.contains_iff_mem.mpr legacy] at absent
  cases absent

theorem legacyName_inj {name other : String} (same : legacyName name = legacyName other)
    (plain : name ∉ legacyNames) (plain' : other ∉ legacyNames) : name = other := by
  simp only [legacyNames, List.mem_cons, List.not_mem_nil, or_false, not_or] at plain plain'
  unfold legacyName at same
  split_ifs at same <;> simp_all

theorem legacyName_ne {name : String} (other : String) (moved : legacyName name ≠ name)
    (plain : name ∉ legacyNames) : legacyName other ≠ name := by
  intro same
  simp only [legacyNames, List.mem_cons, List.not_mem_nil, or_false, not_or] at plain
  unfold legacyName at same moved
  split_ifs at same moved <;> simp_all

theorem notMem_of_responsesNames {members : List (String × Value F)}
    (written : ResponsesNames (.object members)) : ∀ member ∈ members, member.1 ∉ legacyNames := by
  intro member here legacy
  have absent := List.lookup_eq_none_iff.mp (written member.1 legacy) member here
  exact bne_iff_ne.mp absent rfl

/-- Every member of Responses is under its other name. -/
theorem get_legacyUsage {usage : Value F} (written : ResponsesNames usage) {name : String}
    (plain : name ∉ legacyNames) : (legacyUsage usage).get (legacyName name) = usage.get name := by
  cases usage with
  | object members =>
      exact Value.lookup_renamed fun member here same =>
        legacyName_inj same (notMem_of_responsesNames written member here) plain
  | null | bool | number | string | array => rfl

/-- A name that was changed is left to no member. -/
theorem get_legacyUsage_eq_none (usage : Value F) {name : String} (moved : legacyName name ≠ name)
    (plain : name ∉ legacyNames) : (legacyUsage usage).get name = none := by
  cases usage with
  | object members =>
      exact Value.lookup_renamed_eq_none fun member _ => legacyName_ne member.1 moved plain
  | null | bool | number | string | array => rfl

theorem canonicalize_inj {raw raw' : RawUsage} :
    canonicalize raw = canonicalize raw' ↔ raw = raw' := by
  refine ⟨fun same => ?_, congrArg canonicalize⟩
  obtain ⟨inputTotal, cacheRead, cacheWrite, outputTotal, reasoning, total⟩ := raw
  have usage := congrArg Prod.fst same
  rw [canonicalize, canonicalize, Usage.mk.injEq] at usage
  obtain ⟨rfl, -, rfl, rfl, rfl, rfl, rfl⟩ := usage
  rfl

/-- The places outside the details where the cached input may stand. -/
def flatCacheRead : List (List String) := [["prompt_cache_hit_tokens"], ["cache_read_input_tokens"]]

/-- The places outside the details where the input written to the cache may stand. -/
def flatCacheWrite : List (List String) :=
  [["cache_write_input_tokens"], ["cache_write_tokens"], ["cache_creation_input_tokens"]]

theorem chosen_legacyUsage {usage : Value F} (written : ResponsesNames usage) {name legacy : String}
    (plain : name ∉ legacyNames) (called : legacyName name = legacy) (used : legacy ∈ legacyNames) :
    chosen (legacyUsage usage) name legacy = chosen usage name legacy := by
  have moved : legacyName name ≠ name := by
    rw [called]
    rintro rfl
    exact plain used
  rw [chosen, chosen, get_legacyUsage_eq_none usage moved plain, written legacy used, ← called,
    get_legacyUsage written plain]
  cases usage.get name <;> rfl

/-- What is read under the other names. -/
theorem extractRawUsage_legacyUsage {usage : Value F} (written : ResponsesNames usage) :
    extractRawUsage (legacyUsage usage) =
      { extractRawUsage usage with
        cacheRead := firstHeld usage flatCacheRead
        cacheWrite :=
          (firstHeld usage flatCacheWrite <|>
            nested usage ["input_tokens_details", "cache_write_tokens"]) } := by
  have kept (name called : String) (path : List String) (plain : name ∉ legacyNames)
      (same : legacyName name = called) :
      nested (legacyUsage usage) (called :: path) = nested usage (name :: path) := by
    rw [nested_cons, nested_cons, ← same, get_legacyUsage written plain]
  have flat (name : String) (plain : name ∉ legacyNames) (same : legacyName name = name) :
      nested (legacyUsage usage) [name] = nested usage [name] := kept name name [] plain same
  have moved {name : String} (path : List String) (plain : name ∉ legacyNames)
      (moved : legacyName name ≠ name) : nested (legacyUsage usage) (name :: path) = none := by
    rw [nested_cons, get_legacyUsage_eq_none usage moved plain, Option.bind_none]
  have lacking (name : String) (path : List String) (legacy : name ∈ legacyNames) :
      nested usage (name :: path) = none := by
    rw [nested_cons, written name legacy, Option.bind_none]
  apply RawUsage.ext_counter
  intro c
  rw [extractRawUsage_counter]
  cases c with
  | inputTotal => exact chosen_legacyUsage written (by decide) rfl (by decide)
  | outputTotal => exact chosen_legacyUsage written (by decide) rfl (by decide)
  | cacheRead =>
      simp only [RawCounter.places, RawUsage.counter, flatCacheRead, firstHeld_cons]
      rw [moved _ (by decide) (by decide), flat "prompt_cache_hit_tokens" (by decide) rfl,
        flat "cache_read_input_tokens" (by decide) rfl]
      rfl
  | cacheWrite =>
      simp only [RawCounter.places, RawUsage.counter, flatCacheWrite, firstHeld_cons]
      rw [moved _ (by decide) (by decide), flat "cache_write_input_tokens" (by decide) rfl,
        flat "cache_write_tokens" (by decide) rfl,
        flat "cache_creation_input_tokens" (by decide) rfl,
        kept "input_tokens_details" "prompt_tokens_details" _ (by decide) rfl]
      simp only [firstHeld_nil, Option.orElse_eq_orElse, Option.orElse_eq_or, Option.or_none,
        Option.none_or, Option.or_assoc]
  | reasoning =>
      have original := extractRawUsage_counter usage .reasoning
      have absent := lacking "completion_tokens_details" ["reasoning_tokens"] (by decide)
      simp only [RawCounter.places, RawUsage.counter, firstHeld_cons, firstHeld_nil] at original ⊢
      rw [moved _ (by decide) (by decide),
        kept "output_tokens_details" "completion_tokens_details" _ (by decide) rfl,
        flat "reasoning_tokens" (by decide) rfl, original, absent]
      cases nested usage ["output_tokens_details", "reasoning_tokens"] <;> rfl
  | total =>
      have original := extractRawUsage_counter usage .total
      simp only [RawCounter.places, RawUsage.counter, firstHeld_cons, firstHeld_nil] at original ⊢
      rw [flat "total_tokens" (by decide) rfl, original]

/-- What the details of the input hold is what was read. -/
theorem extractRawUsage_of_responsesNames {usage : Value F} (written : ResponsesNames usage) :
    (extractRawUsage usage).cacheRead =
        (nested usage ["input_tokens_details", "cached_tokens"] <|>
          firstHeld usage flatCacheRead) ∧
      (extractRawUsage usage).cacheWrite =
        (nested usage ["input_tokens_details", "cache_write_tokens"] <|>
          firstHeld usage flatCacheWrite) := by
  have read := extractRawUsage_counter usage .cacheRead
  have write := extractRawUsage_counter usage .cacheWrite
  have lacking : nested usage ["prompt_tokens_details", "cache_write_tokens"] = none := by
    rw [nested_cons, written "prompt_tokens_details" (by decide), Option.bind_none]
  simp only [RawUsage.counter, RawCounter.places, firstHeld_cons, firstHeld_nil, lacking]
    at read write
  simp only [flatCacheRead, flatCacheWrite, firstHeld_cons, firstHeld_nil]
  exact ⟨read, write⟩

/-- **The names of chat completions give the same usage** if and only if no
counter that only the details of the input have is lost, and none that stands
elsewhere, too, is taken from there instead. -/
theorem legacyUsage_iff {usage : Value F} (written : ResponsesNames usage) :
    canonicalize (extractRawUsage (legacyUsage usage)) = canonicalize (extractRawUsage usage) ↔
      ((nested usage ["input_tokens_details", "cached_tokens"]).isSome →
        firstHeld usage flatCacheRead = nested usage ["input_tokens_details", "cached_tokens"]) ∧
      ((nested usage ["input_tokens_details", "cache_write_tokens"]).isSome →
        (firstHeld usage flatCacheWrite).isSome →
        firstHeld usage flatCacheWrite =
          nested usage ["input_tokens_details", "cache_write_tokens"]) := by
  obtain ⟨read, write⟩ := extractRawUsage_of_responsesNames written
  have parts : extractRawUsage (legacyUsage usage) = extractRawUsage usage ↔
      firstHeld usage flatCacheRead = (extractRawUsage usage).cacheRead ∧
        (firstHeld usage flatCacheWrite <|>
          nested usage ["input_tokens_details", "cache_write_tokens"]) =
            (extractRawUsage usage).cacheWrite := by
    rw [extractRawUsage_legacyUsage written]
    refine ⟨fun same => ?_, fun ⟨same, same'⟩ => by rw [same, same']⟩
    exact ⟨congrArg RawUsage.cacheRead same, congrArg RawUsage.cacheWrite same⟩
  rw [canonicalize_inj, parts, read, write]
  refine and_congr ?_ ?_
  · cases nested usage ["input_tokens_details", "cached_tokens"] with
    | none => exact ⟨fun _ => nofun, fun _ => rfl⟩
    | some cached => exact ⟨fun same _ => same, fun same => same rfl⟩
  · cases nested usage ["input_tokens_details", "cache_write_tokens"] <;>
      cases firstHeld usage flatCacheWrite <;> simp

/-- Totals alone are read under either names. -/
theorem legacyUsage_totals :
    let usage : Value Empty :=
      .object [("input_tokens", .number (.posInt 10)), ("total_tokens", .number (.posInt 12))]
    canonicalize (extractRawUsage (legacyUsage usage)) = canonicalize (extractRawUsage usage) := by
  intro usage
  have written : ResponsesNames usage := responsesNames_object rfl
  exact (legacyUsage_iff written).mpr ⟨nofun, nofun⟩

/-- The cached input of a complete detail is lost under the names of chat
completions. -/
theorem not_legacyUsage_cached :
    let usage : Value Empty :=
      .object
        [("input_tokens", .number (.posInt 10)),
          ("input_tokens_details", .object
            [("cache_write_tokens", .number (.posInt 0)), ("cached_tokens", .number (.posInt 4))])]
    ResponsesNames usage ∧
      canonicalize (extractRawUsage (legacyUsage usage)) ≠
        canonicalize (extractRawUsage usage) := by
  intro usage
  have written : ResponsesNames usage := responsesNames_object rfl
  refine ⟨written, fun same => ?_⟩
  have reads : (extractRawUsage usage).cacheRead = some 4 := rfl
  have lost := congrArg RawUsage.cacheRead (canonicalize_inj.mp same)
  rw [extractRawUsage_legacyUsage written, reads] at lost
  cases lost

end Debitmetre
