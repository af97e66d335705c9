import Debitmetre.Gateway.Route
import Debitmetre.Wire.Decoding
import Debitmetre.Wire.Header

/-!
# Forwarding headers

Of the headers of a request those that concern one connection only, the chain of
proxies or the gateway are not sent upstream; of those of a response only the
first kind is kept back.  A header concerns one connection if its name is a
standard one, or if a value of `Connection` nominates it.
-/

namespace Debitmetre

open Wire Wire.Ascii

/-- `HeaderValue::to_str`. -/
def toStr (value : HeaderValue) : Option String :=
  if value.octets.all isVisibleAscii then utf8? value.octets else none

theorem ascii_of_visible {octets : Bytes} (visible : octets.all isVisibleAscii = true) :
    ∀ b ∈ octets, b < 0x80 := by
  intro b member
  have seen := List.all_eq_true.mp visible b member
  rw [isVisibleAscii, Bool.or_eq_true, Bool.and_eq_true, decide_eq_true_eq, decide_eq_true_eq,
    beq_iff_eq] at seen
  rcases seen with ⟨-, small⟩ | rfl
  · exact UInt8.lt_trans small (by decide)
  · decide

/-- A value converts if and only if all its octets are visible, and to the text
they are. -/
theorem toStr_eq_some_iff {value : HeaderValue} {text : String} :
    toStr value = some text ↔
      value.octets.all isVisibleAscii = true ∧ utf8 text = value.octets := by
  unfold toStr
  rw [Option.ite_none_right_eq_some]
  apply and_congr_right
  intro visible
  constructor
  · exact fun decodes => utf8_of_utf8? decodes
  · intro same
    rw [← same, utf8?_utf8]

theorem isSome_toStr (value : HeaderValue) :
    (toStr value).isSome = value.octets.all isVisibleAscii := by
  rw [Bool.eq_iff_iff, Option.isSome_iff_exists]
  constructor
  · rintro ⟨text, converts⟩
    exact (toStr_eq_some_iff.mp converts).1
  · intro visible
    exact ⟨_, toStr_eq_some_iff.mpr
      ⟨visible, utf8_asciiText (ascii_of_visible visible)⟩⟩

/-- The names of the headers of a connection. -/
def hopByHopNames : List Bytes :=
  ["connection", "keep-alive", "proxy-connection", "proxy-authenticate", "proxy-authorization",
    "te", "trailer", "transfer-encoding", "upgrade"].map utf8

/-- The names of private headers and those of proxies. -/
def privateNames : List Bytes :=
  ["host", "cookie", "forwarded", "via", "x-real-ip"].map utf8

/-- A header is per-connection when it is nominated by `Connection` or is a standard
hop-by-hop name. -/
def hopByHopIsStripped (name : HeaderName) (connectionNominated : List HeaderName) : Bool :=
  connectionNominated.contains name || hopByHopNames.contains name.text

/-- A header is private to the caller, the chain of proxies or the gateway. -/
def isPrivate (name : HeaderName) : Bool :=
  privateNames.contains name.text || (utf8 "x-meter-").isPrefixOf name.text ||
    (utf8 "x-forwarded-").isPrefixOf name.text

def requestHeaderIsStripped (name : HeaderName) (connectionNominated : List HeaderName) : Bool :=
  hopByHopIsStripped name connectionNominated || isPrivate name

def responseHeaderIsStripped (name : HeaderName) (connectionNominated : List HeaderName) : Bool :=
  hopByHopIsStripped name connectionNominated

/-- The names in the values of `Connection` that convert. -/
def connectionNominatedHeaders (headers : HeaderMap) : List HeaderName :=
  ((((headers.getAll .connection).filterMap toStr).flatMap fun value =>
    (utf8 value).splitOn comma).map trim).filterMap HeaderName.fromBytes

/-- Copy the headers that are not stripped, one by one. -/
def copyHeaders (stripped : HeaderName → List HeaderName → Bool) (headers : HeaderMap) :
    HeaderMap :=
  let connectionNominated := connectionNominatedHeaders headers
  headers.foldl
    (fun copied (name, value) =>
      if stripped name connectionNominated then copied else copied ++ [(name, value)])
    []

/-- The headers a request is sent upstream with. -/
def requestHeaders (headers : HeaderMap) : HeaderMap := copyHeaders requestHeaderIsStripped headers

/-- The headers a response is handed to the caller with. -/
def filteredHeaders (headers : HeaderMap) : HeaderMap :=
  copyHeaders responseHeaderIsStripped headers

theorem foldl_copy (stripped : HeaderName → Bool) (headers copied : HeaderMap) :
    headers.foldl
        (fun copied (name, value) => if stripped name then copied else copied ++ [(name, value)])
        copied =
      copied ++ headers.filter fun header => !stripped header.1 := by
  induction headers generalizing copied with
  | nil => rw [List.foldl_nil, List.filter_nil, List.append_nil]
  | cons header headers ih =>
      obtain ⟨name, value⟩ := header
      rw [List.foldl_cons, ih]
      cases strips : stripped name with
      | true => simp only [↓reduceIte, List.filter_cons, strips, Bool.not_true, Bool.false_eq_true]
      | false =>
          simp only [Bool.false_eq_true, ↓reduceIte, List.filter_cons, strips, Bool.not_false,
            List.append_assoc, List.singleton_append]

/-- The headers copied are those that are not stripped. -/
theorem copyHeaders_eq (stripped : HeaderName → List HeaderName → Bool) (headers : HeaderMap) :
    copyHeaders stripped headers =
      headers.filter fun header => !stripped header.1 (connectionNominatedHeaders headers) :=
  foldl_copy (fun name => stripped name (connectionNominatedHeaders headers)) headers []

/-- A header is nominated if a value of `Connection` that converts has its name. -/
theorem mem_connectionNominatedHeaders {headers : HeaderMap} {name : HeaderName} :
    name ∈ connectionNominatedHeaders headers ↔
      nominatedIn ((headers.getAll .connection).filter fun value => (toStr value).isSome) name =
        true := by
  simp only [connectionNominatedHeaders, nominatedIn, List.mem_filterMap, List.mem_map,
    List.mem_flatMap, HeaderName.fromBytes_eq_some_iff, List.any_eq_true, beq_iff_eq,
    List.mem_filter]
  constructor
  · rintro ⟨_, ⟨token, ⟨text, ⟨value, member, converts⟩, listed⟩, rfl⟩, same⟩
    rw [(toStr_eq_some_iff.mp converts).2] at listed
    exact ⟨value, ⟨member, by rw [converts]; rfl⟩, token, listed, same⟩
  · rintro ⟨value, ⟨member, converts⟩, token, listed, same⟩
    obtain ⟨text, converts⟩ := Option.isSome_iff_exists.mp converts
    rw [← (toStr_eq_some_iff.mp converts).2] at listed
    exact ⟨_, ⟨token, ⟨text, ⟨value, member, converts⟩, listed⟩, rfl⟩, same⟩

/-- A header concerns one connection: its name is a standard one, or a name in any
value of `Connection`. -/
def isPerConnection (headers : HeaderMap) (name : HeaderName) : Bool :=
  nominatedIn (headers.getAll .connection) name || hopByHopNames.contains name.text

/-- Only a value of `Connection` that does not convert nominates a header whose name
is no standard one. -/
structure Missed (headers : HeaderMap) (name : HeaderName) : Prop where
  nominated : nominatedIn
    ((headers.getAll .connection).filter fun value => !(toStr value).isSome) name = true
  only : nominatedIn
    ((headers.getAll .connection).filter fun value => (toStr value).isSome) name = false
  other : hopByHopNames.contains name.text = false

theorem nominatedIn_filter (converts : HeaderValue → Bool) (values : List HeaderValue)
    (name : HeaderName) :
    nominatedIn values name =
      (nominatedIn (values.filter converts) name ||
        nominatedIn (values.filter fun value => !converts value) name) := by
  induction values with
  | nil => rfl
  | cons value values ih =>
      rw [List.filter_cons, List.filter_cons]
      unfold nominatedIn at ih ⊢
      rw [List.any_cons, ih]
      cases converts value
      · exact Bool.or_left_comm _ _ _
      · exact (Bool.or_assoc _ _ _).symm

/-- A header is stripped if a value of `Connection` that converts nominates it, or its
name is a standard one. -/
theorem hopByHopIsStripped_iff (headers : HeaderMap) (name : HeaderName) :
    hopByHopIsStripped name (connectionNominatedHeaders headers) = true ↔
      nominatedIn ((headers.getAll .connection).filter fun value => (toStr value).isSome) name =
        true ∨ hopByHopNames.contains name.text = true := by
  rw [hopByHopIsStripped, Bool.or_eq_true, List.contains_iff_mem, mem_connectionNominatedHeaders]

/-- What is stripped is per-connection, and what is per-connection is stripped or
missed. -/
theorem isPerConnection_iff (headers : HeaderMap) (name : HeaderName) :
    isPerConnection headers name = true ↔
      hopByHopIsStripped name (connectionNominatedHeaders headers) = true ∨
        Missed headers name := by
  rw [hopByHopIsStripped_iff, isPerConnection, Bool.or_eq_true, nominatedIn_filter fun value =>
    (toStr value).isSome, Bool.or_eq_true]
  constructor
  · rintro ((converts | odd) | standard)
    · exact .inl (.inl converts)
    · by_cases also : nominatedIn
          ((headers.getAll .connection).filter fun value => (toStr value).isSome) name = true
      · exact .inl (.inl also)
      · by_cases standard : hopByHopNames.contains name.text = true
        · exact .inl (.inr standard)
        · exact .inr ⟨odd, Bool.of_not_eq_true also, Bool.of_not_eq_true standard⟩
    · exact .inl (.inr standard)
  · rintro ((converts | standard) | missed)
    · exact .inl (.inl converts)
    · exact .inr standard
    · exact .inl (.inr missed.nominated)

theorem Missed.not_stripped {headers : HeaderMap} {name : HeaderName}
    (missed : Missed headers name) :
    ¬ hopByHopIsStripped name (connectionNominatedHeaders headers) = true := by
  rw [hopByHopIsStripped_iff, missed.only, missed.other]
  rintro (nominated | standard)
  · exact Bool.false_ne_true nominated
  · exact Bool.false_ne_true standard

/-- Headers are chosen alike if and only if each of them is. -/
theorem copyHeaders_eq_filter_iff (stripped : HeaderName → List HeaderName → Bool)
    (policy : HeaderName → Bool) (headers : HeaderMap) :
    copyHeaders stripped headers = (headers.filter fun header => !policy header.1) ↔
      ∀ header ∈ headers,
        stripped header.1 (connectionNominatedHeaders headers) = policy header.1 := by
  rw [copyHeaders_eq]
  constructor
  · intro same header member
    have kept := congrArg (header ∈ ·) same
    simp only [List.mem_filter, member, true_and, eq_iff_iff, Bool.not_eq_true',
      ← Bool.not_eq_true] at kept
    exact Bool.eq_iff_iff.mpr (not_iff_not.mp kept)
  · intro same
    apply List.filter_congr
    intro header member
    rw [same header member]

/-- Headers are copied by a policy if and only if it keeps back for another reason
what is missed. -/
theorem copyHeaders_iff (stripped : HeaderName → List HeaderName → Bool)
    (other : HeaderName → Bool)
    (strips : ∀ name nominated,
      stripped name nominated = (hopByHopIsStripped name nominated || other name))
    (headers : HeaderMap) :
    copyHeaders stripped headers =
        (headers.filter fun header => !(isPerConnection headers header.1 || other header.1)) ↔
      ∀ header ∈ headers, Missed headers header.1 → other header.1 = true := by
  apply (copyHeaders_eq_filter_iff stripped
    (fun name => isPerConnection headers name || other name) headers).trans
  refine forall₂_congr fun header member => ?_
  rw [strips, Bool.eq_iff_iff, Bool.or_eq_true, Bool.or_eq_true, isPerConnection_iff]
  constructor
  · intro same missed
    exact (same.mpr (.inl (.inr missed))).resolve_left missed.not_stripped
  · intro kept
    constructor
    · rintro (stripped | reason)
      · exact .inl (.inl stripped)
      · exact .inr reason
    · rintro ((stripped | missed) | reason)
      · exact .inl stripped
      · exact .inr (kept missed)
      · exact .inr reason

/-- **Headers are copied by the policy** if and only if no value of `Connection` that
does not convert is alone in nominating a header that is there.  What is private
in a request is not sent in any case. -/
theorem copied_iff (request response : HeaderMap) :
    (requestHeaders request =
          (request.filter fun header =>
            !(isPerConnection request header.1 || isPrivate header.1)) ↔
        ∀ header ∈ request, Missed request header.1 → isPrivate header.1 = true) ∧
      (filteredHeaders response =
          (response.filter fun header => !isPerConnection response header.1) ↔
        ∀ header ∈ response, ¬ Missed response header.1) := by
  constructor
  · exact copyHeaders_iff requestHeaderIsStripped isPrivate (fun _ _ => rfl) request
  · have copied := copyHeaders_iff responseHeaderIsStripped (fun _ => false)
      (fun _ _ => (Bool.or_false _).symm) response
    simp only [Bool.or_false, Bool.false_eq_true, imp_false] at copied
    exact copied

/-- A header that is nominated beside an octet that is not visible is copied. -/
theorem not_copied_odd : ¬ ∀ request : HeaderMap, requestHeaders request =
    request.filter fun header => !(isPerConnection request header.1 || isPrivate header.1) := by
  intro copied
  have same := copied
    [(.connection, ⟨utf8 "x-secret, " ++ [0x80], rfl⟩),
      (⟨utf8 "x-secret", rfl⟩, ⟨utf8 "1", rfl⟩)]
  exact absurd same (by decide)

end Debitmetre
