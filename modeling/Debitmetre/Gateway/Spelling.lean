import Debitmetre.Gateway.Lifecycle
import Debitmetre.Wire.Percent

/-!
# Spellings of what is sent

A path is sent as it was spelled, and metered by how it was spelled: an equivalent
spelling reaches the same endpoint and is not metered.  A query is written by the
URL library, and nothing compares it with what was asked for.
-/

namespace Debitmetre

open Wire Wire.Ascii

/-- The path of the endpoint of an operation, below the base. -/
def Operation.endpoint : Operation → Bytes
  | .response => utf8 "/responses"
  | .compaction => utf8 "/responses/compact"

/-- The path of an endpoint is metered. -/
theorem operationOf_endpoint (endpoint : Operation) :
    operationOf (utf8 "/v1" ++ endpoint.endpoint) = some endpoint := by
  cases endpoint <;> rfl

/-- A path is metered as what it is equivalent to, if nothing in it is percent-encoded. -/
theorem operationOf_eq (path : Bytes) :
    operationOf path = if percent ∈ path then none else operationOf (Percent.normalize path) := by
  split
  case isTrue escaped =>
    have notResponse : path ≠ utf8 "/v1/responses" := by
      rintro rfl
      exact absurd escaped (by decide)
    have notCompaction : path ≠ utf8 "/v1/responses/compact" := by
      rintro rfl
      exact absurd escaped (by decide)
    rw [operationOf, if_neg notResponse, if_neg notCompaction]
  case isFalse plain => rw [Percent.normalize_of_notMem plain]

theorem exists_of_isV1 {path : Bytes} (v1 : Arrival.isV1 path = true) :
    ∃ rest, path = utf8 "/v1" ++ slash :: rest := by
  rw [Arrival.isV1, Bool.and_eq_true, List.isPrefixOf_iff_prefix] at v1
  obtain ⟨⟨rest, shape⟩, -⟩ := v1
  exact ⟨rest, shape.symm⟩

namespace Gateway

variable (gateway : Gateway) (library : UrlLibrary) (digestHex : Bytes → String)

/-- What a request that is sent was read as. -/
theorem parsed_of_send {meterKeys : List Bytes} {target : Target} {machineId : String}
    {operation : Option Operation} {url : Url}
    (sent : gateway.routeV1 library digestHex meterKeys target = .send machineId operation url) :
    ∃ parsed,
      Url.parse library (gateway.origin library ++ (gateway.basePath ++ suffixOf target.path) ++
        target.query.elim [] (question :: ·)) = some parsed ∧
      parsed.path = gateway.basePath ++ suffixOf target.path ∧
      operation = operationOf target.path ∧
      url = (match target.query with
        | some query => parsed.setQuery library (some query)
        | none => parsed) := by
  have candidate : (if suffixOf target.path = [] then gateway.basePath
      else gateway.basePath ++ suffixOf target.path) =
        gateway.basePath ++ suffixOf target.path := by
    split
    case isTrue empty => rw [empty, List.append_nil]
    case isFalse => rfl
  obtain ⟨machineId', authenticated⟩ := gateway.authenticate_of_send library digestHex sent
  simp only [routeV1, authenticated, candidate] at sent
  split at sent
  · cases sent
  · next parsed read =>
      split at sent
      · cases sent
      · next fixed =>
          obtain ⟨-, path⟩ := not_or.mp fixed
          cases sent
          exact ⟨parsed, read, Decidable.not_not.mp path, rfl, rfl⟩

theorem path_of_send {meterKeys : List Bytes} {target : Target} {machineId : String}
    {operation : Option Operation} {url : Url}
    (sent : gateway.routeV1 library digestHex meterKeys target = .send machineId operation url) :
    url.path = gateway.basePath ++ suffixOf target.path := by
  obtain ⟨parsed, -, path, -, rfl⟩ := gateway.parsed_of_send library digestHex sent
  cases target.query with
  | none => exact path
  | some query => exact path

theorem operation_of_send {meterKeys : List Bytes} {target : Target} {machineId : String}
    {operation : Option Operation} {url : Url}
    (sent : gateway.routeV1 library digestHex meterKeys target = .send machineId operation url) :
    operation = operationOf target.path := by
  obtain ⟨-, -, -, operation, -⟩ := gateway.parsed_of_send library digestHex sent
  exact operation

/-- A text without a question mark and a hash has no query. -/
theorem query_eq_none_of_parse {text : Bytes} (plain : ∀ b ∈ text, endsPath b = false)
    {url : Url} (read : Url.parse library text = some url) : url.query = none := by
  obtain ⟨scheme, -, read⟩ := Option.bind_eq_some_iff.mp read
  obtain ⟨authority, -, rfl⟩ := Option.map_eq_some_iff.mp read
  -- The query is looked for in what follows the path, in a part of the text.
  have none : (((((text.dropWhile (· != colon)).drop 1).dropWhile Path.isSlash).dropWhile
      fun b => !endsAuthority b).dropWhile fun b => !endsPath b) = [] := by
    rw [List.dropWhile_eq_nil_iff]
    intro b member
    have whole : b ∈ text := (List.dropWhile_sublist _).subset <| List.mem_of_mem_drop <|
      (List.dropWhile_sublist _).subset <| (List.dropWhile_sublist _).subset member
    rw [plain b whole]
    rfl
  simp only [none, List.takeWhile_nil, ↓reduceIte]

theorem plain_origin : ∀ b ∈ gateway.origin library, endsPath b = false := by
  intro b member
  rw [origin_eq] at member
  rcases List.mem_append.mp member with scheme | member
  · have plain : ∀ b ∈ gateway.upstreamBase.scheme.text, endsPath b = false := by
      cases gateway.upstreamBase.scheme <;> exact forall_of_not_any rfl
    exact plain b scheme
  · rcases List.mem_append.mp (show b ∈ utf8 "://" ++ gateway.upstreamBase.authority.text
        from member) with marks | authority
    · have plain : ∀ b ∈ utf8 "://", endsPath b = false := forall_of_not_any rfl
      exact plain b marks
    · have plain := gateway.upstreamBase.authority.plain b authority
      exact (Bool.or_eq_false_iff.mp plain).2

theorem plain_candidate (target : Target) :
    ∀ b ∈ gateway.basePath ++ suffixOf target.path, endsPath b = false := by
  intro b member
  rcases List.mem_append.mp member with base | own
  · exact gateway.upstreamBase.plain b ((List.rdropWhile_prefix (· == slash) _).subset base)
  · refine target.plain b ?_
    rw [suffixOf] at own
    split at own
    · exact List.mem_of_mem_drop own
    · exact own

/-- The query that is sent is what the library makes of the one asked for. -/
theorem query_of_send {meterKeys : List Bytes} {target : Target} {machineId : String}
    {operation : Option Operation} {url : Url}
    (sent : gateway.routeV1 library digestHex meterKeys target = .send machineId operation url) :
    url.query = target.query.map library.query := by
  obtain ⟨parsed, read, -, -, rfl⟩ := gateway.parsed_of_send library digestHex sent
  cases asked : target.query with
  | some query => rfl
  | none =>
      rw [asked, Option.elim_none, List.append_nil] at read
      refine query_eq_none_of_parse library (fun b member => ?_) read
      rcases List.mem_append.mp member with origin | candidate
      · exact gateway.plain_origin library b origin
      · exact gateway.plain_candidate target b candidate

/-- **The query of a request that is sent**: it has one if and only if one was asked
for, and that is the one asked for if and only if the URL library keeps all of its
octets.  An apostrophe it writes otherwise. -/
theorem routeV1_query_iff {meterKeys : List Bytes} {target : Target} {machineId : String}
    {operation : Option Operation} {url : Url}
    (serializes : ∀ query : Bytes, (∀ b ∈ query, space < b) →
      library.query query = Query.serialize query)
    (visible : ∀ query ∈ target.query, ∀ b ∈ query, space < b)
    (sent : gateway.routeV1 library digestHex meterKeys target = .send machineId operation url) :
    (url.query = target.query ∧ (url.query = none ↔ target.query = none)) ↔
      ∀ query ∈ target.query, ∀ b ∈ query, Query.isEncoded b = false := by
  rw [gateway.query_of_send library digestHex sent]
  cases asked : target.query with
  | none =>
      rw [Option.map_none]
      exact ⟨nofun, fun _ => ⟨rfl, Iff.rfl⟩⟩
  | some query =>
      have written := serializes query (visible query asked)
      simp only [Option.map_some, written, Option.some.injEq, reduceCtorEq, and_true,
        Option.mem_def, forall_eq']
      exact Path.encode_eq_self_iff Query.isEncoded query

/-- Of what is equivalent to what is sent, the path asked for is equivalent. -/
theorem normalize_of_send {meterKeys : List Bytes} {target : Target} {machineId : String}
    {operation : Option Operation} {url : Url}
    (sent : gateway.routeV1 library digestHex meterKeys target = .send machineId operation url)
    (v1 : Arrival.isV1 target.path = true) {rest : Bytes}
    (equivalent :
      Percent.normalize url.path = Percent.normalize (gateway.basePath ++ slash :: rest)) :
    Percent.normalize target.path = Percent.normalize (utf8 "/v1" ++ slash :: rest) := by
  obtain ⟨own, shape⟩ := exists_of_isV1 v1
  have path := gateway.path_of_send library digestHex sent
  rw [shape, suffixOf_append] at path
  rw [path, Percent.normalize_append_slash, Percent.normalize_append_slash,
    List.append_cancel_left_eq, List.cons_inj_right] at equivalent
  rw [shape, Percent.normalize_append_slash, Percent.normalize_append_slash, equivalent]

/-- **Equivalent paths are metered alike if and only if they are spelled alike**, if they
are those of an endpoint that is metered: such a path is metered if and only if nothing in
it is percent-encoded. -/
theorem routeV1_operation_iff {meterKeys meterKeys' : List Bytes} {target target' : Target}
    {machineId machineId' : String} {operation operation' : Option Operation} {url url' : Url}
    (v1 : Arrival.isV1 target.path = true) (v1' : Arrival.isV1 target'.path = true)
    (sent : gateway.routeV1 library digestHex meterKeys target = .send machineId operation url)
    (sent' : gateway.routeV1 library digestHex meterKeys' target' =
      .send machineId' operation' url')
    (equivalent : Percent.normalize url.path = Percent.normalize url'.path) :
    (operation = operation' ↔
      ((operationOf (Percent.normalize target.path)).isSome = true →
        (percent ∈ target.path ↔ percent ∈ target'.path))) ∧
      ∀ endpoint : Operation,
        Percent.normalize url.path =
            Percent.normalize (gateway.basePath ++ endpoint.endpoint) →
          (operation = some endpoint ↔ percent ∉ target.path) := by
  have metered := gateway.operation_of_send library digestHex sent
  have metered' := gateway.operation_of_send library digestHex sent'
  constructor
  · -- Both are metered by the path they are equivalent to, unless something is encoded.
    have same : Percent.normalize target.path = Percent.normalize target'.path := by
      obtain ⟨rest, shape⟩ := exists_of_isV1 v1'
      have path := gateway.path_of_send library digestHex sent'
      rw [shape, suffixOf_append] at path
      rw [path] at equivalent
      rw [shape]
      exact gateway.normalize_of_send library digestHex sent v1 equivalent
    rw [metered, metered', operationOf_eq target.path, operationOf_eq target'.path, ← same]
    cases known : operationOf (Percent.normalize target.path) with
    | none => simp only [ite_self, Option.isSome_none, Bool.false_eq_true, false_implies]
    | some endpoint =>
        by_cases escaped : percent ∈ target.path <;> by_cases escaped' : percent ∈ target'.path <;>
          simp only [escaped, escaped', ↓reduceIte, Option.isSome_some, reduceCtorEq, iff_true,
            iff_false, not_true_eq_false, true_implies]
  · intro endpoint known
    obtain ⟨rest, rooted⟩ : ∃ rest, endpoint.endpoint = slash :: rest := by
      cases endpoint <;> exact ⟨_, rfl⟩
    have plain : percent ∉ utf8 "/v1" ++ endpoint.endpoint := by
      cases endpoint <;> decide
    have own : Percent.normalize target.path = utf8 "/v1" ++ endpoint.endpoint := by
      rw [rooted] at known
      rw [gateway.normalize_of_send library digestHex sent v1 known, ← rooted,
        Percent.normalize_of_notMem plain]
    rw [metered, operationOf_eq, own, operationOf_endpoint]
    split
    case isTrue escaped => exact ⟨nofun, fun unescaped => absurd escaped unescaped⟩
    case isFalse unescaped => exact ⟨fun _ => unescaped, fun _ => rfl⟩

end Gateway

/-- The library whose queries are written by the URL Standard. -/
def queryLibrary : UrlLibrary := { hostLibrary with query := Query.serialize }

/-- A path that is read as it is spelled is sent. -/
theorem sent_codexGateway (target : Target) {suffix : Bytes}
    (admitted : target.path = utf8 "/v1" ++ slash :: suffix)
    (kept : Path.parse queryLibrary.encodes (slash :: suffix) = slash :: suffix) :
    ∃ url, codexGateway.routeV1 queryLibrary (fun _ => "0") [utf8 "key"] target =
      .send "laptop" (operationOf target.path) url := by
  rcases codexGateway.routeV1_of_authenticate queryLibrary (fun _ => "0")
    authenticate_codexGateway rfl rfl admitted with ⟨changed, -⟩ | ⟨-, url, sent, -⟩
  · exact absurd kept changed
  · exact ⟨url, sent⟩

/-- A query without quotation marks is sent as it is. -/
theorem routeV1_query_iff_plain :
    ∃ url, codexGateway.routeV1 queryLibrary (fun _ => "0") [utf8 "key"]
        ⟨utf8 "/v1/models", some (utf8 "client=\x7b0\x7d"), forall_of_not_any rfl⟩ =
          .send "laptop" none url ∧ url.query = some (utf8 "client=\x7b0\x7d") := by
  obtain ⟨url, sent⟩ := sent_codexGateway
    ⟨utf8 "/v1/models", some (utf8 "client=\x7b0\x7d"), forall_of_not_any rfl⟩ rfl rfl
  have visible : (utf8 "client=\x7b0\x7d").all (fun b => decide (space < b)) = true := rfl
  refine ⟨url, sent, ?_⟩
  refine ((codexGateway.routeV1_query_iff queryLibrary (fun _ => "0") (fun _ _ => rfl) ?_
    sent).mpr ?_).1
  · intro query same
    cases same
    exact fun b member => of_decide_eq_true (forall_of_all visible b member)
  · intro query same
    cases same
    exact forall_of_not_any rfl

/-- An apostrophe is percent-encoded. -/
theorem not_query_apostrophe :
    ¬ ∀ target machineId operation url,
      codexGateway.routeV1 queryLibrary (fun _ => "0") [utf8 "key"] target =
          .send machineId operation url →
        url.query = target.query := by
  intro kept
  let target : Target := ⟨utf8 "/v1/models", some (utf8 "q='a'"), forall_of_not_any rfl⟩
  obtain ⟨url, sent⟩ := sent_codexGateway target rfl rfl
  have written := codexGateway.query_of_send queryLibrary (fun _ => "0") sent
  rw [kept target "laptop" _ url sent] at written
  exact absurd written (by decide)

theorem plain_responses : ∀ b ∈ utf8 "/v1/responses", endsPath b = false :=
  forall_of_not_any rfl

/-- The same endpoint, spelled in two ways. -/
def plainResponses : Target := ⟨utf8 "/v1/responses", none, plain_responses⟩

def escapedResponses : Target := ⟨utf8 "/v1/%72esponses", none, forall_of_not_any rfl⟩

/-- Two requests for one endpoint, of which one is not metered. -/
theorem sent_responses :
    ∃ url url', codexGateway.routeV1 queryLibrary (fun _ => "0") [utf8 "key"] plainResponses =
        .send "laptop" (some .response) url ∧
      codexGateway.routeV1 queryLibrary (fun _ => "0") [utf8 "key"] escapedResponses =
        .send "laptop" none url' ∧
      Percent.normalize url.path = Percent.normalize url'.path := by
  obtain ⟨url, sent⟩ := sent_codexGateway plainResponses rfl rfl
  obtain ⟨url', sent'⟩ := sent_codexGateway escapedResponses rfl rfl
  refine ⟨url, url', sent, sent', ?_⟩
  rw [codexGateway.path_of_send queryLibrary (fun _ => "0") sent,
    codexGateway.path_of_send queryLibrary (fun _ => "0") sent']
  rfl

/-- The spelling of an endpoint decides whether it is metered. -/
theorem routeV1_operation_iff_escaped :
    ∃ url url', codexGateway.routeV1 queryLibrary (fun _ => "0") [utf8 "key"] plainResponses =
        .send "laptop" (some .response) url ∧
      codexGateway.routeV1 queryLibrary (fun _ => "0") [utf8 "key"] escapedResponses =
        .send "laptop" none url' ∧
      ((some Operation.response = none) ↔ (percent ∈ utf8 "/v1/responses" ↔
        percent ∈ utf8 "/v1/%72esponses")) := by
  obtain ⟨url, url', sent, sent', equivalent⟩ := sent_responses
  have alike := codexGateway.routeV1_operation_iff queryLibrary (fun _ => "0") rfl rfl sent sent'
    equivalent
  exact ⟨url, url', sent, sent', alike.1.trans (forall_prop_of_true rfl)⟩

/-- Equivalent paths can be metered differently. -/
theorem not_operation_escaped :
    ¬ ∀ target target' machineId machineId' operation operation' url url',
      Arrival.isV1 target.path = true → Arrival.isV1 target'.path = true →
      codexGateway.routeV1 queryLibrary (fun _ => "0") [utf8 "key"] target =
          .send machineId operation url →
        codexGateway.routeV1 queryLibrary (fun _ => "0") [utf8 "key"] target' =
          .send machineId' operation' url' →
        Percent.normalize url.path = Percent.normalize url'.path →
        operation = operation' := by
  intro alike
  obtain ⟨url, url', sent, sent', equivalent⟩ := sent_responses
  cases alike plainResponses escapedResponses "laptop" "laptop" _ _ url url' rfl rfl sent sent'
    equivalent

end Debitmetre
