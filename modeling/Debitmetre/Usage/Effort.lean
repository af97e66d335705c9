import Debitmetre.Usage.Text
import Debitmetre.Wire.Decoding
import Debitmetre.Wire.Json.Members
import Debitmetre.Wire.Json.RoundTrip

/-!
# The effort a request declares

The observer of a request's body mirrors the chunks that are forwarded and, once
the lifecycle is over, reads the declared effort from the mirror: the string
`effort` of the object `reasoning` of the body.  A body with an encoding that is
not supported is not read.  How Zstandard is decoded is decided by a library,
which is a parameter.
-/

namespace Debitmetre

open Wire Wire.Json

/-- The content encodings of request bodies that are told apart. -/
inductive EncodingKind
  | identity
  | zstd
  | unsupported
  deriving DecidableEq, Repr

/-- The tokens of a list of encodings. -/
def encodingTokens (value : String) : List (List Char) :=
  ((value.toList.splitOn ',').map fun token => (Str.trim token).map Char.toLower).filter
    fun token => !token.isEmpty

/-- The encoding that some tokens name. -/
def kindOfTokens : List (List Char) → EncodingKind
  | [] => .identity
  | [token] =>
      if token = "identity".toList then .identity
      else if token = "zstd".toList then .zstd
      else .unsupported
  | _ => .unsupported

/-- The encoding a request declares. -/
def encodingKind : Option String → EncodingKind
  | none => .identity
  | some value => kindOfTokens (encodingTokens value)

structure DeclaredReasoningDetail where
  effort : Option String
  deriving DecidableEq, Repr

/-- The minimal shape needed to read the declared effort. -/
structure DeclaredReasoning where
  reasoning : Option DeclaredReasoningDetail
  deriving DecidableEq, Repr

def DeclaredReasoningDetail.ofJson : Decoder DeclaredReasoningDetail := fun tree =>
  (single? "effort" Decoder.string tree).map DeclaredReasoningDetail.mk

def DeclaredReasoning.ofJson : Decoder DeclaredReasoning := fun tree =>
  (single? "reasoning" DeclaredReasoningDetail.ofJson tree).map DeclaredReasoning.mk

/-- `serde_json::from_slice::<DeclaredReasoning>`, and `from_reader` of what a reader
reads to its end. -/
def DeclaredReasoning.fromSlice (body : Bytes) : Option DeclaredReasoning :=
  (parse body).bind DeclaredReasoning.ofJson

/-- The effort that a body which is not encoded declares. -/
def declaredEffort (body : Bytes) : Option String :=
  ((DeclaredReasoning.fromSlice body).bind DeclaredReasoning.reasoning).bind
    DeclaredReasoningDetail.effort

/-- Read the declared effort from a mirror, according to its encoding. -/
def declaredEffortFrom (zstd : Bytes → Option Bytes) (raw : Bytes) (encoding : Option String) :
    Option String :=
  let declared :=
    match encodingKind encoding with
    | .identity => DeclaredReasoning.fromSlice raw
    | .zstd => (zstd raw).bind DeclaredReasoning.fromSlice
    | .unsupported => none
  (declared.bind DeclaredReasoning.reasoning).bind DeclaredReasoningDetail.effort

/-- The observer of one request body. -/
structure RequestEffort where
  encoding : Option String
  mirror : Bytes
  effort : Option String
  parsed : Bool
  deriving DecidableEq, Repr

namespace RequestEffort

def new (encoding : Option String) : RequestEffort := ⟨encoding, [], none, false⟩

/-- Mirror one forwarded chunk. -/
def observe (observer : RequestEffort) (chunk : Bytes) : RequestEffort :=
  if observer.parsed then observer else { observer with mirror := observer.mirror ++ chunk }

/-- Decode and parse the mirror once. -/
def finish (zstd : Bytes → Option Bytes) (observer : RequestEffort) : RequestEffort :=
  if observer.parsed then observer
  else
    { observer with
      parsed := true
      mirror := []
      effort := declaredEffortFrom zstd observer.mirror observer.encoding }

end RequestEffort

/-- A body is a JSON text, and its object has an object under `reasoning` that has a
string under `effort`. -/
def Declares (body : Bytes) (effort : String) : Prop :=
  ∃ text root reasoning literal, body = utf8 text ∧ parse body = some root ∧
    HasMember root "reasoning" reasoning ∧ HasMember reasoning "effort" (.str literal) ∧
    literal.string? = some effort

/-- A body has an effort where a deserializer looks for it, in objects or in arrays. -/
def Places (body : Bytes) (root reasoning : Json) (effort : String) : Prop :=
  parse body = some root ∧ Stands root "reasoning" reasoning ∧
    ∃ literal, Stands reasoning "effort" (.str literal) ∧ literal.string? = some effort

/-- A string is read from the trees of strings. -/
theorem decoder_string_eq_some_iff {tree : Json} {text : String} :
    Decoder.string tree = some text ↔
      ∃ literal, tree = .str literal ∧ literal.string? = some text := by
  cases tree <;> simp [Decoder.string]

/-- The effort that a detail has. -/
theorem effort_ofJson_iff {tree : Json} (distinct : tree.Distinct) {effort : String} :
    DeclaredReasoningDetail.ofJson tree = some ⟨some effort⟩ ↔
      (∃ literal, Stands tree "effort" (.str literal) ∧ literal.string? = some effort) ∧
        tree.KeysSpelled := by
  have unwrapped : DeclaredReasoningDetail.ofJson tree = some ⟨some effort⟩ ↔
      single? "effort" Decoder.string tree = some (some effort) := by
    rw [DeclaredReasoningDetail.ofJson, Option.map_eq_some_iff]
    simp only [DeclaredReasoningDetail.mk.injEq, exists_eq_right]
  rw [unwrapped, single?_eq_some_some_iff distinct]
  constructor
  · rintro ⟨value, stands, spelled, -, read⟩
    obtain ⟨literal, rfl, text⟩ := decoder_string_eq_some_iff.mp read
    exact ⟨⟨literal, stands, text⟩, spelled⟩
  · rintro ⟨⟨literal, stands, text⟩, spelled⟩
    exact ⟨.str literal, stands, spelled, nofun, text⟩

/-- **What an effort is read from**: a place of an effort in a body whose keys on the
way to it spell texts. -/
theorem declaredEffortFrom_eq_some_iff {zstd : Bytes → Option Bytes} {encoding : Option String}
    (identity : encodingKind encoding = .identity) {body : Bytes}
    (distinct : ∀ root, parse body = some root → root.Distinct) {effort : String} :
    declaredEffortFrom zstd body encoding = some effort ↔
      ∃ root reasoning, Places body root reasoning effort ∧ root.KeysSpelled ∧
        reasoning.KeysSpelled := by
  have unwrapped : declaredEffortFrom zstd body encoding = some effort ↔
      ∃ root, parse body = some root ∧
        single? "reasoning" DeclaredReasoningDetail.ofJson root = some (some ⟨some effort⟩) := by
    simp only [declaredEffortFrom, identity, DeclaredReasoning.fromSlice, DeclaredReasoning.ofJson,
      Option.bind_eq_some_iff, Option.map_eq_some_iff]
    constructor
    · rintro ⟨⟨_⟩, ⟨_, ⟨root, parsed, _, read, rfl⟩, rfl⟩, rfl⟩
      exact ⟨root, parsed, read⟩
    · rintro ⟨root, parsed, read⟩
      exact ⟨⟨some effort⟩, ⟨_, ⟨root, parsed, _, read, rfl⟩, rfl⟩, rfl⟩
  rw [unwrapped]
  constructor
  · rintro ⟨root, parsed, read⟩
    obtain ⟨reasoning, stands, spelled, -, read⟩ :=
      (single?_eq_some_some_iff (distinct root parsed)).mp read
    obtain ⟨text, spelled'⟩ :=
      (effort_ofJson_iff ((distinct root parsed).of_stands stands)).mp read
    exact ⟨root, reasoning, ⟨parsed, stands, text⟩, spelled, spelled'⟩
  · rintro ⟨root, reasoning, ⟨parsed, stands, text⟩, spelled, spelled'⟩
    refine ⟨root, parsed, (single?_eq_some_some_iff (distinct root parsed)).mpr ?_⟩
    have read := (effort_ofJson_iff ((distinct root parsed).of_stands stands)).mpr ⟨text, spelled'⟩
    refine ⟨reasoning, stands, spelled, ?_, read⟩
    rintro rfl
    cases read

/-- A body declares the effort that it has in an object of an object. -/
theorem declares_iff {body : Bytes} {effort : String} :
    Declares body effort ↔ ∃ root reasoning, Places body root reasoning effort ∧
      (∃ text, body = utf8 text) ∧ root.IsObject ∧ reasoning.IsObject := by
  constructor
  · rintro ⟨text, root, reasoning, literal, decoded, parsed, stands, stands', spelled⟩
    refine ⟨root, reasoning, ⟨parsed, .inl stands, literal, .inl stands', spelled⟩,
      ⟨text, decoded⟩, ?_, ?_⟩
    · obtain ⟨members, _, object, -⟩ := stands
      exact ⟨members, object⟩
    · obtain ⟨members, _, object, -⟩ := stands'
      exact ⟨members, object⟩
  · rintro ⟨root, reasoning, ⟨parsed, stands, literal, stands', spelled⟩, ⟨text, decoded⟩,
      ⟨members, rfl⟩, ⟨members', rfl⟩⟩
    exact ⟨text, _, _, literal, decoded, parsed, stands.resolve_right nofun,
      stands'.resolve_right nofun, spelled⟩

/-- A body that has an effort in some place is read as it declares: the keys on the
way spell texts if and only if it is UTF-8 and the place is in an object of an
object. -/
def Plain (body : Bytes) : Prop :=
  ∀ root reasoning effort, Places body root reasoning effort →
    (root.KeysSpelled ∧ reasoning.KeysSpelled ↔
      (∃ text, body = utf8 text) ∧ root.IsObject ∧ reasoning.IsObject)

/-- The place of an effort is determined. -/
theorem Places.unique {body : Bytes} (distinct : ∀ root, parse body = some root → root.Distinct)
    {root root' reasoning reasoning' : Json} {effort effort' : String}
    (first : Places body root reasoning effort) (second : Places body root' reasoning' effort') :
    root = root' ∧ reasoning = reasoning' := by
  have same := Option.some.inj (first.1.symm.trans second.1)
  subst same
  exact ⟨rfl, first.2.1.unique (distinct root first.1) second.2.1⟩

/-- **The declared effort is the field `reasoning.effort`** of a body without
repeated keys, if and only if the body is plain. -/
theorem declaredEffortFrom_iff (zstd : Bytes → Option Bytes) {encoding : Option String}
    (identity : encodingKind encoding = .identity) {body : Bytes}
    (distinct : ∀ root, parse body = some root → root.Distinct) :
    (∀ effort, declaredEffortFrom zstd body encoding = some effort ↔ Declares body effort) ↔
      Plain body := by
  constructor
  · intro declared root reasoning effort places
    have read : declaredEffortFrom zstd body encoding = some effort ↔
        ∃ root reasoning, Places body root reasoning effort ∧
          root.KeysSpelled ∧ reasoning.KeysSpelled :=
      declaredEffortFrom_eq_some_iff identity distinct
    constructor
    · intro spelled
      have own := (declared effort).mp (read.mpr ⟨root, reasoning, places, spelled⟩)
      obtain ⟨root', reasoning', places', object⟩ := declares_iff.mp own
      obtain ⟨rfl, rfl⟩ := places.unique distinct places'
      exact object
    · intro object
      have own := (declared effort).mpr (declares_iff.mpr ⟨root, reasoning, places, object⟩)
      obtain ⟨root', reasoning', places', spelled⟩ := read.mp own
      obtain ⟨rfl, rfl⟩ := places.unique distinct places'
      exact spelled
  · intro plain effort
    rw [declaredEffortFrom_eq_some_iff identity distinct, declares_iff]
    apply exists_congr
    intro root
    apply exists_congr
    intro reasoning
    exact and_congr_right fun places => plain root reasoning effort places

/-- The tree of a body that declares an effort. -/
def highTree : Json := object [("reasoning", object [("effort", ofString "high")])]

theorem distinct_highTree : highTree.Distinct := by
  simp [highTree, object, ofString, Distinct, DistinctMembers, keysOf]

/-- The effort of an object of an object is declared. -/
theorem declaredEffortFrom_iff_object : Declares (print highTree) "high" := by
  have distinct : ∀ root, parse (print highTree) = some root → root.Distinct := by
    intro root parsed
    rw [parse_print] at parsed
    cases parsed
    exact distinct_highTree
  have plain : Plain (print highTree) := by
    rintro root reasoning effort ⟨parsed, stands, -⟩
    rw [parse_print] at parsed
    cases parsed
    have own : Stands highTree "reasoning" (object [("effort", ofString "high")]) :=
      .inl ⟨_, _, rfl, List.mem_singleton_self _, StrLit.string?_ofString _⟩
    obtain rfl := stands.unique distinct_highTree own
    have spelled (name : String) (value : Json) : (object [(name, value)]).KeysSpelled := by
      rintro members same member found
      cases same
      rw [List.mem_singleton.mp found]
      exact Option.isSome_of_eq_some (StrLit.string?_ofString name)
    refine ⟨fun _ => ⟨⟨"\x7b\"reasoning\":\x7b\"effort\":\"high\"\x7d\x7d", rfl⟩, ?_, ?_⟩,
      fun _ => ⟨spelled _ _, spelled _ _⟩⟩
    · exact ⟨_, rfl⟩
    · exact ⟨_, rfl⟩
  have identity : encodingKind none = .identity := rfl
  exact ((declaredEffortFrom_iff (fun _ => none) identity distinct).mpr plain "high").mp rfl

/-- An array in the place of an object has an effort read from it that is not
declared. -/
theorem not_declares_array : ¬ ∀ (zstd : Bytes → Option Bytes) (body : Bytes),
    (∀ root, parse body = some root → root.Distinct) →
    ∀ effort, declaredEffortFrom zstd body none = some effort ↔ Declares body effort := by
  intro declared
  let tree : Json := .arr [.arr [ofString "high"]]
  have distinct : ∀ root, parse (print tree) = some root → root.Distinct := by
    intro root parsed
    rw [parse_print] at parsed
    cases parsed
    exact ⟨⟨trivial, trivial⟩, trivial⟩
  obtain ⟨text, root, reasoning, literal, -, parsed, ⟨members, key, object, -⟩, -⟩ :=
    (declared (fun _ => none) (print tree) distinct "high").mp rfl
  rw [parse_print, object] at parsed
  exact Json.noConfusion (Option.some.inj parsed)

end Debitmetre
