import Debitmetre.Usage.Record
import Debitmetre.Wire.Url
import Std.Data.ExtTreeMap

/-!
# Routing a request

A request of a known machine is sent to the fixed upstream base, with what
follows `/v1` in its path put after the base's own.  The whole is read as a URL,
and unless it is read with the path it was written with, nothing is sent.
-/

namespace Debitmetre

open Wire Wire.Ascii

/-- The path and the query of a request, as they were split. -/
structure Target where
  path : Bytes
  query : Option Bytes
  plain : ∀ b ∈ path, endsPath b = false

/-- What a gateway is configured with. -/
structure Gateway where
  upstreamBase : Url
  /-- The machines by the digests of their keys. -/
  machineKeys : Std.ExtTreeMap String String

/-- What becomes of a request. -/
inductive Routed
  | unauthorized
  | badRequest
  | send (machineId : String) (operation : Option Operation) (url : Url)
  deriving DecidableEq

/-- The octets of a header value that has a text. -/
def isVisibleAscii (b : UInt8) : Bool := (0x20 ≤ b && b < 0x7F) || b == tab

/-- The operation that a path is metered as. -/
def operationOf (path : Bytes) : Option Operation :=
  if path = utf8 "/v1/responses" then some .response
  else if path = utf8 "/v1/responses/compact" then some .compaction
  else none

/-- What follows `/v1` in a path. -/
def suffixOf (path : Bytes) : Bytes :=
  if (utf8 "/v1").isPrefixOf path then path.drop (utf8 "/v1").length else path

namespace Gateway

/-- The machine whose key the only `x-meter-key` header has. -/
def authenticate (gateway : Gateway) (digestHex : Bytes → String) : List Bytes → Option String
  | [key] => if key.all isVisibleAscii then gateway.machineKeys[digestHex key]? else none
  | _ => none

/-- The base's path without its trailing slashes. -/
def basePath (gateway : Gateway) : Bytes := gateway.upstreamBase.path.rdropWhile (· == slash)

/-- The base's text up to its path. -/
def origin (gateway : Gateway) (library : UrlLibrary) : Bytes :=
  let base := gateway.upstreamBase.setPath library [] nofun
  let base := { base with query := none, fragment := none }
  base.text.rdropWhile (· == slash)

/-- `route_v1`, up to the request it sends. -/
def routeV1 (gateway : Gateway) (library : UrlLibrary) (digestHex : Bytes → String)
    (meterKeys : List Bytes) (target : Target) : Routed :=
  match gateway.authenticate digestHex meterKeys with
  | none => .unauthorized
  | some machineId =>
      let suffix := suffixOf target.path
      let operation := operationOf target.path
      let candidatePath :=
        if suffix = [] then gateway.basePath else gateway.basePath ++ suffix
      let queryPart := target.query.elim [] (question :: ·)
      match Url.parse library (gateway.origin library ++ candidatePath ++ queryPart) with
      | none => .badRequest
      | some parsed =>
          let originFixed := parsed.scheme = gateway.upstreamBase.scheme ∧
            parsed.authority.host = gateway.upstreamBase.authority.host
          if ¬ originFixed ∨ parsed.path ≠ candidatePath then .badRequest
          else
            .send machineId operation
              (match target.query with
              | some query => parsed.setQuery library (some query)
              | none => parsed)

variable (gateway : Gateway) (library : UrlLibrary) (digestHex : Bytes → String)

/-- The origin is the base's scheme and authority. -/
theorem origin_eq : gateway.origin library =
    gateway.upstreamBase.scheme.text ++
      colon :: slash :: slash :: gateway.upstreamBase.authority.text := by
  have ending : ∀ b ∈ gateway.upstreamBase.authority.text, b ≠ slash := by
    intro b member same
    have plain := gateway.upstreamBase.authority.plain b member
    rw [same] at plain
    cases plain
  obtain ⟨rest, last, shape⟩ : ∃ rest last,
      gateway.upstreamBase.authority.text = rest ++ [last] := by
    obtain none | ⟨rest, last, shape⟩ :=
      List.eq_nil_or_concat gateway.upstreamBase.authority.text
    · refine absurd ?_ gateway.upstreamBase.authority.nonempty
      exact (List.append_eq_nil_iff.mp (List.append_eq_nil_iff.mp none).1).2
    · exact ⟨rest, last, shape.trans List.concat_eq_append⟩
  have last_ne : ¬ (last == slash) = true := by
    rw [beq_iff_eq]
    exact ending last (shape ▸ List.mem_append_right _ (List.mem_singleton_self last))
  change (gateway.upstreamBase.scheme.text ++ colon :: slash :: slash ::
    gateway.upstreamBase.authority.text ++ [slash] ++ [] ++ []).rdropWhile (· == slash) = _
  rw [List.append_nil, List.append_nil, List.rdropWhile_concat_pos (· == slash) _ _ rfl, shape,
    ← List.cons_append, ← List.cons_append, ← List.cons_append, ← List.append_assoc,
    List.rdropWhile_concat_neg (· == slash) _ _ last_ne]

theorem suffixOf_append (suffix : Bytes) : suffixOf (utf8 "/v1" ++ suffix) = suffix := by
  have starts : (utf8 "/v1").isPrefixOf (utf8 "/v1" ++ suffix) = true :=
    List.isPrefixOf_iff_prefix.mpr (List.prefix_append _ _)
  rw [suffixOf, if_pos starts, List.drop_left]

theorem basePath_cases :
    gateway.basePath = [] ∨ gateway.basePath.head? = some slash := by
  obtain ⟨rest, joined⟩ := List.rdropWhile_prefix (· == slash) gateway.upstreamBase.path
  rw [basePath]
  cases trimmed : gateway.upstreamBase.path.rdropWhile (· == slash) with
  | nil => exact .inl rfl
  | cons first others =>
      have rooted := gateway.upstreamBase.rooted
      rw [← joined, trimmed, List.cons_append, List.head?_cons] at rooted
      exact .inr rooted

/-- A request of a known machine is rejected, or sent below the base: it depends on
whether what follows `/v1` is read as it is written. -/
theorem routeV1_of_authenticate {meterKeys : List Bytes} {target : Target} {machineId : String}
    (authenticated : gateway.authenticate digestHex meterKeys = some machineId)
    (normalized : Path.parse library.encodes gateway.upstreamBase.path = gateway.upstreamBase.path)
    (known : library.authority gateway.upstreamBase.scheme gateway.upstreamBase.authority.text =
      some gateway.upstreamBase.authority)
    {suffix : Bytes} (admitted : target.path = utf8 "/v1" ++ slash :: suffix) :
    (Path.parse library.encodes (slash :: suffix) ≠ slash :: suffix ∧
        gateway.routeV1 library digestHex meterKeys target = .badRequest) ∨
      Path.parse library.encodes (slash :: suffix) = slash :: suffix ∧
        ∃ url : Url, gateway.routeV1 library digestHex meterKeys target =
            .send machineId (operationOf target.path) url ∧
          url.scheme = gateway.upstreamBase.scheme ∧
          url.authority = gateway.upstreamBase.authority ∧
          url.path = gateway.basePath ++ slash :: suffix := by
  have rooted : (gateway.basePath ++ slash :: suffix).head? = some slash := by
    rcases gateway.basePath_cases with empty | rooted
    · rw [empty]
      rfl
    · rw [List.head?_append, rooted]
      rfl
  have plain : ∀ b ∈ gateway.basePath ++ slash :: suffix, endsPath b = false := by
    intro b member
    rcases List.mem_append.mp member with base | own
    · exact gateway.upstreamBase.plain b ((List.rdropWhile_prefix (· == slash) _).subset base)
    · exact target.plain b (admitted ▸ List.mem_append_right _ own)
  obtain ⟨url, parsed, scheme, authority, path⟩ :=
    Url.parse_append library known rooted plain target.query
  have routed : gateway.routeV1 library digestHex meterKeys target =
      if url.path = gateway.basePath ++ slash :: suffix then
        .send machineId (operationOf target.path)
          (match target.query with
          | some query => url.setQuery library (some query)
          | none => url)
      else .badRequest := by
    rw [routeV1, authenticated]
    simp only [admitted, suffixOf_append, origin_eq, List.cons_ne_nil, ↓reduceIte, parsed, scheme,
      authority, not_true_eq_false, and_self, false_or, ite_not]
  have below : url.path = gateway.basePath ++ slash :: suffix ↔
      Path.parse library.encodes (slash :: suffix) = slash :: suffix := by
    rw [path]
    exact Path.parse_below_iff library.encodes normalized suffix
  by_cases kept : Path.parse library.encodes (slash :: suffix) = slash :: suffix
  · rw [if_pos (below.mpr kept)] at routed
    refine .inr ⟨kept, ?_⟩
    cases query : target.query with
    | none =>
        rw [query] at routed
        exact ⟨url, routed, scheme, authority, below.mpr kept⟩
    | some query' =>
        rw [query] at routed
        exact ⟨url.setQuery library (some query'), routed, scheme, authority, below.mpr kept⟩
  · rw [if_neg (mt below.mp kept)] at routed
    exact .inl ⟨kept, routed⟩

/-- Nothing is sent for a request that is not authenticated. -/
theorem authenticate_of_send {meterKeys : List Bytes} {target : Target} {machineId : String}
    {operation : Option Operation} {url : Url}
    (sent : gateway.routeV1 library digestHex meterKeys target = .send machineId operation url) :
    ∃ machineId', gateway.authenticate digestHex meterKeys = some machineId' := by
  cases authenticated : gateway.authenticate digestHex meterKeys with
  | some machineId' => exact ⟨machineId', rfl⟩
  | none =>
      rw [routeV1, authenticated] at sent
      cases sent

/-- **A request is sent below the fixed base or not at all**: the URL has the
base's scheme, host and port, its path is the base's and what followed `/v1`, and
no segment of that is a dot.  A path of path characters is rejected only for such
a segment. -/
theorem routeV1_target (target : Target) (suffix : Bytes)
    (admitted : target.path = utf8 "/v1" ++ suffix) (rooted : suffix.head? = some slash)
    (normalized : Path.parse library.encodes gateway.upstreamBase.path = gateway.upstreamBase.path)
    (known : library.authority gateway.upstreamBase.scheme gateway.upstreamBase.authority.text =
      some gateway.upstreamBase.authority)
    (meterKeys : List Bytes) :
    (∀ machineId operation url,
        gateway.routeV1 library digestHex meterKeys target = .send machineId operation url →
        url.scheme = gateway.upstreamBase.scheme ∧
          url.authority.host = gateway.upstreamBase.authority.host ∧
          url.authority.port = gateway.upstreamBase.authority.port ∧
          url.path = gateway.basePath ++ suffix ∧
          ∀ segment ∈ suffix.splitOn slash, Path.isDot segment = false) ∧
      ∀ machineId, gateway.authenticate digestHex meterKeys = some machineId →
        (gateway.routeV1 library digestHex meterKeys target = .badRequest ∨
          ∃ url, gateway.routeV1 library digestHex meterKeys target =
            .send machineId (operationOf target.path) url) ∧
        (Path.isText suffix = true →
          (∀ b, b = percent ∨ Path.isPchar b = true → library.encodes b = false) →
          (gateway.routeV1 library digestHex meterKeys target = .badRequest ↔
            ∃ segment ∈ suffix.splitOn slash, Path.isDot segment = true)) := by
  obtain ⟨rest, rfl⟩ : ∃ rest, suffix = slash :: rest := by
    obtain ⟨first, rest, rfl⟩ := List.exists_cons_of_ne_nil
      (show suffix ≠ [] from fun empty => by rw [empty] at rooted; cases rooted)
    exact ⟨rest, by rw [Option.some.inj rooted]⟩
  have segments : (slash :: rest).splitOn slash = [] :: rest.splitOn slash :=
    List.splitOn_append_cons_self [] rest
  rw [segments]
  constructor
  · intro machineId operation url sent
    obtain ⟨machineId', authenticated⟩ := gateway.authenticate_of_send library digestHex sent
    rcases gateway.routeV1_of_authenticate library digestHex authenticated normalized known
      admitted with ⟨-, rejected⟩ | ⟨kept, url', sent', scheme, authority, path⟩
    · cases sent.symm.trans rejected
    · cases sent.symm.trans sent'
      rw [scheme, authority, path, List.forall_mem_cons]
      exact ⟨rfl, rfl, rfl, rfl, rfl, fun segment member =>
        (((Path.parse_eq_iff library.encodes rest).mp kept).2 segment member).2⟩
  · intro machineId authenticated
    rcases gateway.routeV1_of_authenticate library digestHex authenticated normalized known
      admitted with ⟨dotted, rejected⟩ | ⟨kept, url, sent, -⟩
    · refine ⟨.inl rejected, fun text unencoded => ⟨fun _ => ?_, fun _ => rejected⟩⟩
      rw [ne_eq, Path.parse_eq_iff_of_isText library.encodes (Path.isText_of_cons text) unencoded]
        at dotted
      obtain ⟨segment, dotted⟩ := not_forall.mp dotted
      obtain ⟨member, dot⟩ := Classical.not_imp.mp dotted
      exact ⟨segment, List.mem_cons_of_mem _ member, Bool.of_not_eq_false dot⟩
    · refine ⟨.inr ⟨url, sent⟩, fun _ _ => ⟨fun rejected => (nomatch sent.symm.trans rejected), ?_⟩⟩
      rintro ⟨segment, member, dot⟩
      rcases List.mem_cons.mp member with rfl | member
      · cases dot
      · rw [(((Path.parse_eq_iff library.encodes rest).mp kept).2 segment member).2] at dot
        cases dot

end Gateway

/-- A library for URLs whose authority is a host. -/
def hostLibrary : UrlLibrary where
  encodes := fun b => !(Path.isPchar b || (utf8 "%/[\\]^|").contains b)
  authority := fun _ text =>
    if plain : text ≠ [] ∧ text.any endsAuthority = false then
      some ⟨[], text, [], plain.1, by
        rw [List.nil_append, List.append_nil]
        exact forall_of_not_any plain.2⟩
    else none
  query := id

/-- A gateway below a path of a host, with one machine. -/
def codexGateway : Gateway where
  upstreamBase :=
    { scheme := .https
      authority := ⟨[], utf8 "chatgpt.com", [], List.cons_ne_nil _ _, forall_of_not_any rfl⟩
      path := utf8 "/backend-api/codex"
      query := none
      fragment := none
      rooted := rfl
      plain := forall_of_not_any rfl }
  machineKeys := (∅ : Std.ExtTreeMap String String).insert "0" "laptop"

theorem authenticate_codexGateway :
    codexGateway.authenticate (fun _ => "0") [utf8 "key"] = some "laptop" := by
  have visible : (utf8 "key").all isVisibleAscii = true := rfl
  rw [Gateway.authenticate, if_pos visible]
  exact Std.ExtTreeMap.getElem?_insert_self

theorem unencoded_hostLibrary (b : UInt8) (path : b = percent ∨ Path.isPchar b = true) :
    hostLibrary.encodes b = false := by
  rcases path with rfl | pchar
  · rfl
  · simp only [hostLibrary, pchar, Bool.true_or, Bool.not_true]

/-- A parent segment in any spelling is rejected. -/
theorem routeV1_target_parent :
    codexGateway.routeV1 hostLibrary (fun _ => "0") [utf8 "key"]
      ⟨utf8 "/v1/models/.%2E/outside", none, forall_of_not_any rfl⟩ = .badRequest := by
  have routed := codexGateway.routeV1_target hostLibrary (fun _ => "0")
    ⟨utf8 "/v1/models/.%2E/outside", none, forall_of_not_any rfl⟩ (utf8 "/models/.%2E/outside")
    rfl rfl rfl rfl [utf8 "key"]
  refine ((routed.2 "laptop" authenticate_codexGateway).2 rfl unencoded_hostLibrary).mpr ?_
  exact ⟨utf8 ".%2E", List.mem_of_elem_eq_true rfl, rfl⟩

end Debitmetre
