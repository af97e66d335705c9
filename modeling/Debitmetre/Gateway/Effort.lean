import Debitmetre.Foundation.Transition
import Debitmetre.Gateway.Headers
import Debitmetre.Usage.Effort
import Debitmetre.Wire.Truncation

/-!
# Observing the effort of a request

The observer of a request's body is shared by the stream that is forwarded, which
shows it each chunk, and by the task that ends the lifecycle, which finishes it
whatever has been forwarded until then.  How the body is encoded it is told by the
first `Content-Encoding` line of the request.
-/

namespace Debitmetre

open Wire Wire.Json Transition

/-- What a stream of chunks is polled for. -/
inductive Polled
  | pending
  | chunk (octets : Bytes)
  | failed
  | ended
  deriving DecidableEq, Repr

/-- `RequestMirrorStream::poll_next`: what the inner stream has is handed on as it is,
and a chunk is shown to the observer, if there is one. -/
def pollNext (effort : Option RequestEffort) (inner : Polled) : Option RequestEffort × Polled :=
  match inner with
  | .chunk octets => (effort.map fun observer => observer.observe octets, .chunk octets)
  | .pending => (effort, .pending)
  | .failed => (effort, .failed)
  | .ended => (effort, .ended)

/-- A call on a shared observer. -/
inductive EffortCall
  /-- The stream is polled. -/
  | poll (inner : Polled)
  | finish
  | effort
  deriving DecidableEq, Repr

namespace EffortCall

variable (zstd : Bytes → Option Bytes)

/-- The state that a call leaves the observer in: each has the lock for itself. -/
def step (observer : RequestEffort) : EffortCall → Option RequestEffort
  | .poll inner => (pollNext (some observer) inner).1
  | .finish => some (observer.finish zstd)
  | .effort => some observer

/-- What a call returns. -/
def returns (observer : RequestEffort) : EffortCall → Option (Option String)
  | .poll _ | .finish => none
  | .effort => some observer.effort

/-- The chunk that a call shows the observer. -/
def shown : EffortCall → Option Bytes
  | .poll (.chunk octets) => some octets
  | .poll .pending | .poll .failed | .poll .ended | .finish | .effort => none

/-- The octets that some calls show the observer. -/
def shownBy (calls : List EffortCall) : Bytes := (calls.filterMap shown).flatten

/-- An observer that has not been finished has mirrored what it was shown. -/
theorem run_of_unfinished {calls : List EffortCall} (unfinished : .finish ∉ calls)
    (encoding : Option String) (mirror : Bytes) :
    run (step zstd) ⟨encoding, mirror, none, false⟩ calls =
      some ⟨encoding, mirror ++ shownBy calls, none, false⟩ := by
  induction calls generalizing mirror with
  | nil => rw [shownBy, List.filterMap_nil, List.flatten_nil, List.append_nil]; rfl
  | cons call calls ih =>
      rw [List.mem_cons, not_or] at unfinished
      have rest := ih unfinished.2
      cases call with
      | finish => exact absurd rfl unfinished.1
      | effort => exact rest mirror
      | poll inner =>
          cases inner with
          | pending | failed | ended => exact rest mirror
          | chunk octets =>
              have next : step zstd ⟨encoding, mirror, none, false⟩ (.poll (.chunk octets)) =
                  some ⟨encoding, mirror ++ octets, none, false⟩ := rfl
              have more : shownBy (.poll (.chunk octets) :: calls) = octets ++ shownBy calls := rfl
              rw [run_cons, next, Option.bind_some, rest, more, List.append_assoc]

/-- A finished observer stays as it is. -/
theorem step_of_parsed {observer : RequestEffort} (parsed : observer.parsed = true)
    (call : EffortCall) : step zstd observer call = some observer := by
  have observed (octets : Bytes) : observer.observe octets = observer := if_pos parsed
  have finished : observer.finish zstd = observer := if_pos parsed
  cases call with
  | effort => rfl
  | finish => rw [step, finished]
  | poll inner =>
      cases inner with
      | pending | failed | ended => rfl
      | chunk octets => rw [step, pollNext, Option.map_some, observed]

/-- A finished observer returns its effort, whatever else it is called for. -/
theorem trace_of_parsed {observer : RequestEffort} (parsed : observer.parsed = true)
    (calls : List EffortCall) :
    ∀ returned ∈ trace (step zstd) returns observer calls, returned = observer.effort := by
  induction calls with
  | nil => intro returned member; cases member
  | cons call calls ih =>
      rw [trace_cons (step_of_parsed zstd parsed call)]
      intro returned member
      rcases List.mem_append.mp member with own | later
      · cases call with
        | effort => exact List.mem_singleton.mp own
        | poll inner => cases own
        | finish => cases own
      · exact ih returned later

end EffortCall

/-- What is read of a body before a cut is read of the whole body. -/
theorem declaredEffortFrom_of_cut {zstd : Bytes → Option Bytes} {encoding : Option String}
    (identity : encodingKind encoding = .identity) {body before : Bytes} {root : Json}
    (whole : parse body = some root) (cut : before <+: body) :
    declaredEffortFrom zstd before encoding = none ∨
      declaredEffortFrom zstd before encoding = declaredEffortFrom zstd body encoding := by
  simp only [declaredEffortFrom, identity, DeclaredReasoning.fromSlice, whole]
  cases early : parse before with
  | none => exact .inl rfl
  | some first =>
      by_cases number : ∃ literal, first = .num literal
      · obtain ⟨literal, rfl⟩ := number
        exact .inl rfl
      · cases eq_of_parse_cut whole cut early fun literal same => number ⟨literal, same⟩
        exact .inr rfl

/-- **An early finish yields no other effort.** -/
theorem effort_of_calls (zstd : Bytes → Option Bytes) {encoding : Option String}
    (identity : encodingKind encoding = .identity) {body : Bytes} {root : Json}
    (whole : parse body = some root) {before after : List EffortCall}
    (first : .finish ∉ before)
    (shown : EffortCall.shownBy (before ++ .finish :: after) <+: body) :
    ∃ observer, run (EffortCall.step zstd) (.new encoding) (before ++ [.finish]) = some observer ∧
      (∀ returned ∈ trace (EffortCall.step zstd) EffortCall.returns observer after,
        returned = observer.effort) ∧
      (observer.effort = none ∨ observer.effort = declaredEffortFrom zstd body encoding) ∧
      (EffortCall.shownBy before = body →
        observer.effort = declaredEffortFrom zstd body encoding) := by
  have mirrored := EffortCall.run_of_unfinished zstd first encoding []
  rw [List.nil_append] at mirrored
  have early : EffortCall.shownBy before <+: body := by
    refine List.IsPrefix.trans ?_ shown
    rw [EffortCall.shownBy, EffortCall.shownBy, List.filterMap_append, List.flatten_append]
    exact List.prefix_append _ _
  refine ⟨⟨encoding, [], declaredEffortFrom zstd (EffortCall.shownBy before) encoding, true⟩,
    run_append mirrored rfl, EffortCall.trace_of_parsed zstd rfl after, ?_, ?_⟩
  · exact declaredEffortFrom_of_cut identity whole early
  · intro all
    rw [all]

/-- An effort that was shown whole is returned after any other call. -/
theorem effort_of_calls_split :
    ∃ observer, run (EffortCall.step fun _ => none) (.new none)
        ([.poll (.chunk ((print highTree).take 9)), .effort,
          .poll (.chunk ((print highTree).drop 9))] ++ [.finish]) = some observer ∧
      observer.effort = some "high" := by
  let before : List EffortCall := [.poll (.chunk ((print highTree).take 9)), .effort,
    .poll (.chunk ((print highTree).drop 9))]
  have identity : encodingKind none = .identity := rfl
  have first : EffortCall.finish ∉ before := by
    simp only [before, List.mem_cons, List.not_mem_nil, reduceCtorEq, or_self, not_false_eq_true]
  have shown : EffortCall.shownBy (before ++ .finish :: [.effort, .finish, .effort]) <+:
      print highTree := List.prefix_refl _
  obtain ⟨observer, finished, -, -, whole⟩ :=
    effort_of_calls (fun _ => none) identity (parse_print highTree) first shown
  exact ⟨observer, finished, whole rfl⟩

/-- `header::CONTENT_ENCODING`. -/
def contentEncodingName : HeaderName := ⟨utf8 "content-encoding", rfl⟩

/-- The encoding that the observer of a request is told. -/
def contentEncoding (headers : HeaderMap) : Option String :=
  (headers.get contentEncodingName).bind toStr

/-- All values of a header as the text of one line, if they have a text. -/
def joined (values : List HeaderValue) : Option String :=
  (values.mapM toStr).map (String.intercalate ",")

/-- The encoding that all lines of a header declare together. -/
def joinedKind (values : List HeaderValue) : EncodingKind :=
  match joined values with
  | some line => kindOfTokens (encodingTokens line)
  | none => .unsupported

/-- The effort of a body with an encoding. -/
def effortOf (zstd : Bytes → Option Bytes) (body : Bytes) : EncodingKind → Option String
  | .identity => declaredEffort body
  | .zstd => (zstd body).bind declaredEffort
  | .unsupported => none

/-- The tokens of all the values that have a text. -/
def tokensOf (values : List HeaderValue) : List (List Char) :=
  (values.filterMap toStr).flatMap encodingTokens

/-- The first line decides about the encoding: it is not supported by itself, or all
lines have a text and either the later ones have no token, or the only token of all
is `identity`. -/
def Undivided (values : List HeaderValue) : Prop :=
  (∃ text, values.head?.bind toStr = some text ∧
      kindOfTokens (encodingTokens text) = .unsupported) ∨
    (∀ value ∈ values, (toStr value).isSome) ∧
      (tokensOf values.tail = [] ∨ tokensOf values = ["identity".toList])

theorem declaredEffortFrom_eq (zstd : Bytes → Option Bytes) (body : Bytes)
    (encoding : Option String) :
    declaredEffortFrom zstd body encoding = effortOf zstd body (encodingKind encoding) := by
  rw [declaredEffortFrom]
  cases encodingKind encoding with
  | identity => rfl
  | zstd =>
      rw [effortOf]
      cases zstd body <;> rfl
  | unsupported => rfl

/-- The tokens of a list are those of its two parts. -/
theorem encodingTokens_append (first second : String) :
    encodingTokens (first ++ "," ++ second) = encodingTokens first ++ encodingTokens second := by
  have parts : (first ++ "," ++ second).toList = first.toList ++ ',' :: second.toList := by
    simp only [String.toList_append, String.reduceToList, List.append_assoc, List.cons_append,
      List.nil_append]
  rw [encodingTokens, parts, List.splitOn_append_cons_self, List.map_append, List.filter_append]
  rfl

theorem encodingTokens_intercalate (texts : List String) :
    encodingTokens (",".intercalate texts) = texts.flatMap encodingTokens := by
  induction texts with
  | nil => rfl
  | cons text texts ih =>
      cases texts with
      | nil => rw [String.intercalate_singleton, List.flatMap_singleton]
      | cons next texts =>
          rw [String.intercalate_cons_cons, encodingTokens_append, ih]
          rfl

theorem mapM_toStr (values : List HeaderValue) :
    values.mapM toStr =
      if ∀ value ∈ values, (toStr value).isSome then some (values.filterMap toStr) else none := by
  induction values with
  | nil => rfl
  | cons value values ih =>
      rw [List.mapM_cons, ih, List.filterMap_cons]
      simp only [List.forall_mem_cons]
      cases toStr value with
      | none => simp only [Option.isSome_none, Bool.false_eq_true, false_and, ↓reduceIte]; rfl
      | some text =>
          simp only [Option.isSome_some, true_and]
          split_ifs <;> rfl

/-- What all lines declare together. -/
theorem joinedKind_eq (values : List HeaderValue) :
    joinedKind values =
      if ∀ value ∈ values, (toStr value).isSome then kindOfTokens (tokensOf values)
      else .unsupported := by
  rw [joinedKind, joined, mapM_toStr]
  split_ifs
  · simp only [Option.map_some, encodingTokens_intercalate]
    rfl
  · rfl

/-- More tokens change an encoding that is supported. -/
theorem kindOfTokens_append_iff (first second : List (List Char)) :
    kindOfTokens first = kindOfTokens (first ++ second) ↔
      kindOfTokens first = .unsupported ∨ second = [] ∨
        first ++ second = ["identity".toList] := by
  cases second with
  | nil => simp only [List.append_nil, true_or, or_true]
  | cons next second =>
      match first with
      | [] =>
          have empty : kindOfTokens [] = .identity := rfl
          rw [empty, List.nil_append]
          cases second with
          | nil =>
              simp only [List.cons.injEq, and_true, reduceCtorEq, false_or]
              constructor
              · intro same
                rw [kindOfTokens] at same
                split_ifs at same with identity
                exact identity
              · rintro rfl
                rfl
          | cons other second =>
              simp only [kindOfTokens, reduceCtorEq, List.cons.injEq, and_false, or_self]
      | [token] =>
          have more : kindOfTokens ([token] ++ next :: second) = .unsupported := rfl
          rw [more]
          simp only [List.cons_append, List.nil_append, List.cons.injEq, reduceCtorEq, and_false,
            or_self, or_false]
      | token :: other :: first =>
          have unsupported : kindOfTokens (token :: other :: first) = .unsupported := rfl
          have more : kindOfTokens (token :: other :: first ++ next :: second) = .unsupported := rfl
          simp only [unsupported, more, true_or]

/-- **The first line names the encoding of all lines together**, if and only if it
decides about it. -/
theorem encodingKind_head_iff (values : List HeaderValue) :
    encodingKind (values.head?.bind toStr) = joinedKind values ↔ Undivided values := by
  rw [joinedKind_eq, Undivided]
  cases values with
  | nil =>
      simp only [List.not_mem_nil, false_imp_iff, implies_true, ↓reduceIte]
      exact ⟨fun _ => .inr ⟨trivial, .inl rfl⟩, fun _ => rfl⟩
  | cons value rest =>
      rw [List.head?_cons, Option.bind_some, List.tail_cons]
      simp only [List.forall_mem_cons]
      cases read : toStr value with
      | none =>
          simp only [Option.isSome_none, Bool.false_eq_true, false_and, ↓reduceIte, reduceCtorEq,
            exists_false, or_self, iff_false]
          exact nofun
      | some text =>
          have tokens : tokensOf (value :: rest) = encodingTokens text ++ tokensOf rest := by
            rw [tokensOf, List.filterMap_cons, read, List.flatMap_cons, tokensOf]
          simp only [Option.isSome_some, true_and, Option.some.injEq, exists_eq_left', tokens]
          split_ifs with visible
          · rw [encodingKind, kindOfTokens_append_iff]
            exact or_congr_right ⟨fun tokens => ⟨visible, tokens⟩, And.right⟩
          · rw [encodingKind]
            exact ⟨.inl, fun decided => decided.resolve_right fun all => visible all.1⟩

/-- What is known of a decoder of Zstandard: every text is that of a frame, and a JSON
object is no frame. -/
structure Zstandard (zstd : Bytes → Option Bytes) : Prop where
  frames : ∀ text, ∃ frame, zstd frame = some text
  object : ∀ rest, zstd (Ascii.lbrace :: rest) = none

/-- Different encodings have different efforts. -/
theorem effortOf_inj {zstd : Bytes → Option Bytes} (known : Zstandard zstd)
    {first second : EncodingKind}
    (same : ∀ body, effortOf zstd body first = effortOf zstd body second) : first = second := by
  have plain : declaredEffort (print highTree) = some "high" := rfl
  have object : zstd (print highTree) = none := known.object _
  obtain ⟨frame, decodes⟩ := known.frames (print highTree)
  have own := same (print highTree)
  have decoded := same frame
  cases first <;> cases second <;>
    simp only [effortOf, plain, object, decodes, Option.bind_none, Option.bind_some,
      reduceCtorEq] at own decoded ⊢

/-- **The lines of `Content-Encoding` are read as if they were one**, if and only if
the first of them decides about the encoding. -/
theorem effort_asJoined_iff {zstd : Bytes → Option Bytes} (known : Zstandard zstd)
    (headers : HeaderMap) :
    (∀ body, declaredEffortFrom zstd body (contentEncoding headers) =
        effortOf zstd body (joinedKind (headers.getAll contentEncodingName))) ↔
      Undivided (headers.getAll contentEncodingName) := by
  have first : contentEncoding headers =
      (headers.getAll contentEncodingName).head?.bind toStr := rfl
  rw [← encodingKind_head_iff, ← first]
  constructor
  · intro same
    apply effortOf_inj known
    intro body
    rw [← declaredEffortFrom_eq, same]
  · intro same body
    rw [declaredEffortFrom_eq, same]

/-- The octets a frame of Zstandard starts with. -/
def zstdMagic : Bytes := [0x28, 0xB5, 0x2F, 0xFD]

/-- A decoder of frames whose content is stored as it is. -/
def storedZstd (frame : Bytes) : Option Bytes :=
  if zstdMagic.isPrefixOf frame then some (frame.drop zstdMagic.length) else none

theorem zstandard_storedZstd : Zstandard storedZstd where
  frames := fun text => ⟨zstdMagic ++ text, rfl⟩
  object := fun _ => rfl

/-- A body that is declared to be a frame and is an object has no effort. -/
theorem effort_asJoined_iff_zstd :
    declaredEffortFrom storedZstd (print highTree)
      (contentEncoding [(contentEncodingName, ⟨utf8 " ZSTD", rfl⟩)]) = none := by
  have read : toStr ⟨utf8 " ZSTD", rfl⟩ = some " ZSTD" := toStr_eq_some_iff.mpr ⟨rfl, rfl⟩
  have only : HeaderMap.getAll [(contentEncodingName, ⟨utf8 " ZSTD", rfl⟩)] contentEncodingName =
      [⟨utf8 " ZSTD", rfl⟩] := rfl
  have visible : ∀ value ∈ [(⟨utf8 " ZSTD", rfl⟩ : HeaderValue)], (toStr value).isSome := by
    intro value member
    rw [List.mem_singleton.mp member, read]
    rfl
  have undivided : Undivided
      (HeaderMap.getAll [(contentEncodingName, ⟨utf8 " ZSTD", rfl⟩)] contentEncodingName) :=
    .inr ⟨visible, .inl rfl⟩
  rw [(effort_asJoined_iff zstandard_storedZstd _).mpr undivided, only, joinedKind_eq,
    if_pos visible, tokensOf, List.filterMap_cons, read]
  rfl

/-- A second line of the header is not seen. -/
theorem not_asJoined_layered : ¬ ∀ (headers : HeaderMap) (body : Bytes),
    declaredEffortFrom storedZstd body (contentEncoding headers) =
      effortOf storedZstd body (joinedKind (headers.getAll contentEncodingName)) := by
  intro same
  let headers : HeaderMap := [(contentEncodingName, ⟨utf8 "identity", rfl⟩),
    (contentEncodingName, ⟨utf8 "zstd", rfl⟩)]
  have first : toStr ⟨utf8 "identity", rfl⟩ = some "identity" :=
    toStr_eq_some_iff.mpr ⟨rfl, rfl⟩
  have second : toStr ⟨utf8 "zstd", rfl⟩ = some "zstd" := toStr_eq_some_iff.mpr ⟨rfl, rfl⟩
  have kind : encodingKind (contentEncoding headers) =
      joinedKind (headers.getAll contentEncodingName) := by
    apply effortOf_inj zstandard_storedZstd
    intro body
    rw [← declaredEffortFrom_eq, same]
  have values : headers.getAll contentEncodingName =
      [⟨utf8 "identity", rfl⟩, ⟨utf8 "zstd", rfl⟩] := rfl
  have told : contentEncoding headers = some "identity" := first
  rw [told, values, joinedKind_eq, if_pos, tokensOf] at kind
  · simp only [List.filterMap_cons, first, second, List.filterMap_nil] at kind
    revert kind
    decide
  · simp only [List.forall_mem_cons, first, second, Option.isSome_some, List.not_mem_nil,
      false_imp_iff, implies_true, and_self]

end Debitmetre
