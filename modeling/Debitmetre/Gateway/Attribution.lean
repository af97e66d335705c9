import Debitmetre.Gateway.Config
import Debitmetre.Gateway.Headers
import Debitmetre.Gateway.Lifecycle
import Debitmetre.Usage.Facts

/-!
# Attribution

A request is attributed to the machine whose key its only `X-Meter-Key` header has,
and a response to the model that its `openai-model` header has or its body names.
A request that is attributed to no machine is answered at once, and nothing else
comes of it.
-/

namespace Debitmetre

open Wire Wire.Json Wire.Ascii Transition

variable {F : Type}

/-- The thirty-two octets of a hash. -/
structure Digest where
  octets : Bytes
  length : octets.length = 32
  deriving DecidableEq

/-- `digest_hex`, of whatever hash. -/
def digestHex (sha256 : Bytes → Digest) (key : Bytes) : String := Hex.encode (sha256 key).octets

/-- The name of the header that has the key of a machine. -/
def xMeterKey : HeaderName := ⟨utf8 "x-meter-key", rfl⟩

/-- A response of the gateway's own. -/
structure LocalResponse where
  status : UInt16
  body : String
  deriving DecidableEq, Repr

def unauthorized : LocalResponse := ⟨401, "unauthorized"⟩

def badRequest : LocalResponse := ⟨400, "bad request"⟩

/-- The response to a request that is not sent. -/
def Routed.response : Routed → Option LocalResponse
  | .unauthorized => some Debitmetre.unauthorized
  | .badRequest => some Debitmetre.badRequest
  | .send _ _ _ => none

/-- A request of the route `/v1/*path`. -/
structure Request where
  headers : HeaderMap
  target : Target
  v1 : Arrival.isV1 target.path = true

/-- What a gateway runs with. -/
structure Deployment (F : Type) where
  upstreamBase : Url
  library : UrlLibrary
  sha256 : Bytes → Digest
  readers : Readers F

/-- A request that arrives at a gateway of a configuration. -/
def Request.arrival (request : Request) (deployment : Deployment F) (config : Config)
    (stamp : Stamp) (reasoningEffort : Option String) (reply : Option Reply) : Arrival F where
  gateway := ⟨deployment.upstreamBase, config.machineKeys⟩
  library := deployment.library
  digestHex := digestHex deployment.sha256
  readers := deployment.readers
  meterKeys := (request.headers.getAll xMeterKey).map HeaderValue.octets
  target := request.target
  stamp
  reasoningEffort
  reply

/-- A request as it is dealt with, and all that it has brought about outside. -/
structure Handling (F : Type) where
  lifecycle : Lifecycle F
  /-- The response that is made without the upstream. -/
  response : Option LocalResponse
  /-- The request that is sent upstream. -/
  sent : Option (Url × HeaderMap)
  /-- The chunks of the request's body that were polled. -/
  polled : List Bytes

/-- What happens to a request and its body. -/
inductive Happening
  | event (event : Event)
  /-- The client polls a chunk of the body that it sends. -/
  | poll (chunk : Bytes)
  deriving DecidableEq

/-- The body belongs to a client that may poll it. -/
def Lifecycle.sending : Lifecycle F → Bool
  | .awaiting _ _ _ | .relaying _ _ => true
  | .rejected | .failed _ _ | .abandoned _ => false

namespace Handling

def start (request : Request) (arrival : Arrival F) (audit : AuditQueue) : Handling F where
  lifecycle := .start arrival audit
  response := arrival.routed.bind Routed.response
  sent :=
    match arrival.routed with
    | some (.send _ _ url) => some (url, requestHeaders request.headers)
    | some .unauthorized | some .badRequest | none => none
  polled := []

def step (arrival : Arrival F) (handling : Handling F) : Happening → Option (Handling F)
  | .event event =>
      (handling.lifecycle.step arrival event).map fun lifecycle => { handling with lifecycle }
  | .poll chunk =>
      if handling.lifecycle.sending then
        some { handling with polled := handling.polled ++ [chunk] }
      else none

/-- Nothing happens to a request that is rejected. -/
theorem run_of_rejected {arrival : Arrival F} {handling final : Handling F}
    (rejected : handling.lifecycle = .rejected) {happenings : List Happening}
    (ran : run (step arrival) handling happenings = some final) : final = handling := by
  cases happenings with
  | nil => exact (Option.some.inj ran).symm
  | cons happening rest =>
      obtain ⟨next, taken, -⟩ := run_cons_eq_some.mp ran
      cases happening with
      | event event =>
          obtain ⟨lifecycle, taken, -⟩ := Option.map_eq_some_iff.mp taken
          rw [rejected] at taken
          cases taken
      | poll chunk =>
          rw [step, rejected] at taken
          cases taken

/-- What was answered without the upstream is not answered again. -/
theorem response_of_run {arrival : Arrival F} {handling final : Handling F}
    {happenings : List Happening}
    (ran : run (step arrival) handling happenings = some final) :
    final.response = handling.response := by
  apply invariant (fun later : Handling F => later.response = handling.response) ?_ ran rfl
  intro handling happening next taken same
  cases happening with
  | event event =>
      obtain ⟨lifecycle, -, rfl⟩ := Option.map_eq_some_iff.mp taken
      exact same
  | poll chunk =>
      obtain ⟨-, polled⟩ := Option.ite_none_right_eq_some.mp taken
      cases polled
      exact same

/-- What happens to the body leaves the lifecycle to its own events. -/
theorem comes_of_run {request : Request} {arrival : Arrival F} {audit : AuditQueue}
    {happenings : List Happening} {final : Handling F}
    (ran : run (step arrival) (start request arrival audit) happenings = some final) :
    Lifecycle.Comes arrival final.lifecycle := by
  apply invariant (fun handling => Lifecycle.Comes arrival handling.lifecycle) ?_ ran
    (Lifecycle.comes_start arrival audit)
  intro handling happening next taken comes
  cases happening with
  | event event =>
      obtain ⟨lifecycle, stepped, rfl⟩ := Option.map_eq_some_iff.mp taken
      exact Lifecycle.comes_step stepped comes
  | poll chunk =>
      obtain ⟨-, same⟩ := Option.ite_none_right_eq_some.mp taken
      cases same
      exact comes

end Handling

/-- A record is of the machine it was started for. -/
theorem Upstream.record_machineId (readers : Readers F) (stamp : Stamp) (machineId : String)
    (operation : Operation) (reasoningEffort : Option String) (upstream : Upstream) :
    (upstream.record readers stamp machineId operation reasoningEffort).machineId = machineId := by
  cases upstream with
  | transportError => rfl
  | response status openaiModel chunks pumped =>
      rw [Upstream.record, recordAudit]
      cases isSuccess status <;> rfl

/-- Every record is of the machine of a request that was sent. -/
theorem Lifecycle.offered_machineId {arrival : Arrival F} {lifecycle : Lifecycle F}
    (comes : Lifecycle.Comes arrival lifecycle) :
    ∀ record ∈ lifecycle.offered,
      ∃ operation, arrival.accepted = some (record.machineId, operation) := by
  intro record member
  cases comes with
  | rejected | awaiting | abandoned => cases member
  | @failed machineId operation audit accepted =>
      obtain ⟨operation', -, rfl⟩ := Option.map_eq_some_iff.mp (Option.mem_toList.mp member)
      exact ⟨operation, accepted⟩
  | @relaying machineId operation reply audit relay accepted reached =>
      rw [Lifecycle.offered, (Relay.observed reached).offered] at member
      cases phase : relay.phase with
      | polling | sending | left | closed | panicked =>
          rw [phase] at member
          cases member
      | recorded pumped =>
          rw [phase, Relay.offers, Relay.auditOf, Option.mem_toList] at member
          obtain ⟨operation', -, rfl⟩ := Option.map_eq_some_iff.mp member
          rw [Upstream.record_machineId]
          exact ⟨operation, accepted⟩

/-- A table has the machine whose key is the text of the only header for it. -/
def Identifies (machineKeys : MachineKeys) (sha256 : Bytes → Digest) (headers : HeaderMap)
    (machineId : String) : Prop :=
  ∃ value text, headers.getAll xMeterKey = [value] ∧ toStr value = some text ∧
    machineKeys[digestHex sha256 (utf8 text)]? = some machineId

/-- The gateway finds the machine that its table has. -/
theorem authenticate_eq_some_iff (gateway : Gateway) (sha256 : Bytes → Digest)
    (headers : HeaderMap) (machineId : String) :
    gateway.authenticate (digestHex sha256)
        ((headers.getAll xMeterKey).map HeaderValue.octets) = some machineId ↔
      Identifies gateway.machineKeys sha256 headers machineId := by
  unfold Identifies
  generalize headers.getAll xMeterKey = values
  cases values with
  | nil =>
      constructor
      · intro found
        cases found
      · rintro ⟨_, _, same, _⟩
        cases same
  | cons value rest =>
      cases rest with
      | nil =>
          rw [List.map_cons, List.map_nil, Gateway.authenticate, Option.ite_none_right_eq_some]
          constructor
          · rintro ⟨visible, found⟩
            obtain ⟨text, converts⟩ :=
              Option.isSome_iff_exists.mp ((isSome_toStr value).trans visible)
            rw [← (toStr_eq_some_iff.mp converts).2] at found
            exact ⟨value, text, rfl, converts, found⟩
          · rintro ⟨_, text, same, converts, found⟩
            cases same
            obtain ⟨visible, same⟩ := toStr_eq_some_iff.mp converts
            rw [same] at found
            exact ⟨visible, found⟩
      | cons second rest =>
          constructor
          · intro found
            cases found
          · rintro ⟨_, _, same, _⟩
            cases same

/-- A request of no machine is rejected as unauthorized. -/
theorem routeV1_of_unknown {gateway : Gateway} (library : UrlLibrary)
    {digestHex : Bytes → String} {meterKeys : List Bytes}
    (unknown : gateway.authenticate digestHex meterKeys = none) (target : Target) :
    gateway.routeV1 library digestHex meterKeys target = .unauthorized := by
  rw [Gateway.routeV1, unknown]

/-- A request of a machine is rejected for its target, or sent for that machine. -/
theorem routeV1_of_found {gateway : Gateway} (library : UrlLibrary) {digestHex : Bytes → String}
    {meterKeys : List Bytes} {machineId : String}
    (found : gateway.authenticate digestHex meterKeys = some machineId) (target : Target) :
    gateway.routeV1 library digestHex meterKeys target = .badRequest ∨
      ∃ operation url,
        gateway.routeV1 library digestHex meterKeys target = .send machineId operation url := by
  simp only [Gateway.routeV1, found]
  split
  · exact .inl rfl
  · split_ifs
    · exact .inl rfl
    · exact .inr ⟨_, _, rfl⟩
    · exact .inl rfl
    · exact .inr ⟨_, _, rfl⟩

/-- What a request of no machine comes to. -/
structure Rejected (handling : Handling F) : Prop where
  response : handling.response = some unauthorized
  sent : handling.sent = none
  polled : handling.polled = []
  offered : handling.lifecycle.offered = []

/-- What a request of a machine comes to. -/
structure Attributed (handling : Handling F) (machineId : String) : Prop where
  response : handling.response ≠ some unauthorized
  offered : ∀ record ∈ handling.lifecycle.offered, record.machineId = machineId

/-- A request of a machine comes to its own records. -/
theorem Handling.attributed {request : Request} {arrival : Arrival F} {audit : AuditQueue}
    {happenings : List Happening} {final : Handling F}
    (ran : run (step arrival) (start request arrival audit) happenings = some final)
    (v1 : Arrival.isV1 arrival.target.path = true) {machineId : String}
    (found : arrival.gateway.authenticate arrival.digestHex arrival.meterKeys = some machineId) :
    Attributed final machineId := by
  have routed : arrival.routed = some (arrival.gateway.routeV1 arrival.library arrival.digestHex
      arrival.meterKeys arrival.target) := if_pos v1
  constructor
  · rw [response_of_run ran, start, routed]
    rcases routeV1_of_found arrival.library found arrival.target with
      rejected | ⟨operation, url, sent⟩
    · rw [rejected]
      exact nofun
    · rw [sent]
      exact nofun
  · intro record member
    obtain ⟨operation, accepted⟩ := Lifecycle.offered_machineId (comes_of_run ran) record member
    rw [Arrival.accepted, routed] at accepted
    rcases routeV1_of_found arrival.library found arrival.target with
      rejected | ⟨operation', url, sent⟩
    · rw [rejected] at accepted
      cases accepted
    · rw [sent] at accepted
      cases accepted
      rfl

/-- A request of no machine comes to nothing. -/
theorem Handling.rejected {request : Request} {arrival : Arrival F} {audit : AuditQueue}
    {happenings : List Happening} {final : Handling F}
    (ran : run (step arrival) (start request arrival audit) happenings = some final)
    (v1 : Arrival.isV1 arrival.target.path = true)
    (unknown : arrival.gateway.authenticate arrival.digestHex arrival.meterKeys = none) :
    Rejected final := by
  have routed : arrival.routed = some .unauthorized := by
    rw [← routeV1_of_unknown arrival.library unknown arrival.target]
    exact if_pos v1
  have lifecycle : (start request arrival audit).lifecycle = .rejected := by
    rw [start, Lifecycle.start, Arrival.accepted, routed]
  rw [run_of_rejected lifecycle ran]
  exact {
    response := by rw [start, routed]; rfl
    sent := by rw [start, routed]
    polled := rfl
    offered := by rw [lifecycle]; rfl }

/-- The texts that have the shape of a digest are those that are written for one. -/
theorem isDigestHex_iff_exists (digest : String) : isDigestHex digest = true ↔
    ∃ octets : Digest, Hex.encode octets.octets = digest := by
  rw [Config.isDigestHex_iff]
  constructor
  · rintro ⟨octets, length, same⟩
    exact ⟨⟨octets, length⟩, same⟩
  · rintro ⟨⟨octets, length⟩, same⟩
    exact ⟨octets, length, same⟩

/-- **Identity, end to end.**  A gateway of an accepted configuration attributes a
request to the machine whose key its only `X-Meter-Key` header has, and rejects
every other request in the same way, whatever happens.  The digests it can be
configured with are those it can compute. -/
theorem attribution {raw : RawConfig} {path : String} {config : Config}
    (accepted : Config.tryFrom raw path = .ok config) (deployment : Deployment F)
    (request : Request) (stamp : Stamp) (reasoningEffort : Option String) (reply : Option Reply)
    (audit : AuditQueue) :
    let arrival := request.arrival deployment config stamp reasoningEffort reply
    let identifies := Identifies raw.machineKeys deployment.sha256 request.headers
    (∀ machineId, arrival.gateway.authenticate arrival.digestHex arrival.meterKeys =
        some machineId ↔ identifies machineId) ∧
      (∀ happenings final,
        run (Handling.step arrival) (.start request arrival audit) happenings = some final →
        (∀ machineId, identifies machineId → Attributed final machineId) ∧
        ((∀ machineId, ¬ identifies machineId) → Rejected final)) ∧
      (∀ digest machineId, config.machineKeys[digest]? = some machineId →
        ∃ octets : Digest, Hex.encode octets.octets = digest) ∧
      ∀ digest, isDigestHex digest = true ↔
        ∃ octets : Digest, Hex.encode octets.octets = digest := by
  intro arrival identifies
  obtain ⟨-, -, -, keys, -, entries⟩ := Config.tryFrom_eq_ok_iff.mp accepted
  have found (machineId : String) : arrival.gateway.authenticate arrival.digestHex
      arrival.meterKeys = some machineId ↔ identifies machineId := by
    change _ ↔ Identifies raw.machineKeys _ _ _
    rw [← keys]
    exact authenticate_eq_some_iff _ _ _ _
  refine ⟨found, fun happenings final ran => ⟨fun machineId own => ?_, fun unknown => ?_⟩,
    fun digest machineId held => ?_, isDigestHex_iff_exists⟩
  · exact Handling.attributed ran request.v1 ((found machineId).mpr own)
  · apply Handling.rejected ran request.v1
    apply Option.eq_none_iff_forall_ne_some.mpr
    intro machineId known
    exact unknown machineId ((found machineId).mp known)
  · rw [keys] at held
    exact (isDigestHex_iff_exists digest).mp (entries digest machineId held).1

/-- A deployment whose hashes are all zeros. -/
def zeroDeployment : Deployment Empty where
  upstreamBase := codexGateway.upstreamBase
  library := hostLibrary
  sha256 := fun _ => ⟨List.replicate 32 0, rfl⟩
  readers := standardReaders

/-- A configuration with one machine. -/
def laptopConfig : RawConfig where
  listen := "127.0.0.1:8787"
  usageFile := "usage.jsonl"
  machineKeys := (∅ : MachineKeys).insert (digestHex zeroDeployment.sha256 (utf8 "key")) "laptop"

theorem getElem?_laptopConfig (digest : String) : laptopConfig.machineKeys[digest]? =
    if compare (digestHex zeroDeployment.sha256 (utf8 "key")) digest = .eq then some "laptop"
    else none := by
  rw [laptopConfig, Std.ExtTreeMap.getElem?_insert, Std.ExtTreeMap.getElem?_empty]

/-- A request with the key of the machine of a configuration is that machine's. -/
theorem attribution_laptop : ∃ config, Config.tryFrom laptopConfig "debitmetre.toml" = .ok config ∧
    (⟨zeroDeployment.upstreamBase, config.machineKeys⟩ : Gateway).authenticate
      (digestHex zeroDeployment.sha256) [utf8 "key"] = some "laptop" := by
  have valid (digest machineId : String)
      (held : laptopConfig.machineKeys[digest]? = some machineId) :
      Config.Accepted (digest, machineId) := by
    rw [getElem?_laptopConfig, Option.ite_none_right_eq_some] at held
    obtain ⟨same, machine⟩ := held
    rw [← Std.LawfulEqCmp.eq_of_compare same, ← Option.some.inj machine]
    exact ⟨Config.isDigestHex_iff.mpr ⟨List.replicate 32 0, rfl, rfl⟩, rfl⟩
  have some : laptopConfig.machineKeys ≠ ∅ := by
    intro none
    have found := getElem?_laptopConfig (digestHex zeroDeployment.sha256 (utf8 "key"))
    rw [none, Std.ExtTreeMap.getElem?_empty, if_pos Std.ReflCmp.compare_self] at found
    cases found
  have accepted : Config.tryFrom laptopConfig "debitmetre.toml" =
      .ok ⟨.v4 ⟨127, 0, 0, 1⟩ 8787, laptopConfig.machineKeys, "usage.jsonl"⟩ :=
    Config.tryFrom_eq_ok_iff.mpr ⟨rfl, rfl, by decide, rfl, some, valid⟩
  refine ⟨_, accepted, ?_⟩
  have attributed := attribution accepted zeroDeployment
    ⟨[(xMeterKey, ⟨utf8 "key", rfl⟩)], ⟨utf8 "/v1/responses", none, forall_of_not_any rfl⟩, rfl⟩
    ⟨"0", "2026-01-01T00:00:00Z"⟩ none none ⟨.empty, true⟩
  apply (attributed.1 "laptop").mpr
  refine ⟨⟨utf8 "key", rfl⟩, "key", rfl, toStr_eq_some_iff.mpr ⟨rfl, rfl⟩, ?_⟩
  exact (getElem?_laptopConfig _).trans (if_pos Std.ReflCmp.compare_self)

/-- The name of the header that has the model of a response. -/
def openaiModelName : HeaderName := ⟨utf8 "openai-model", rfl⟩

/-- The model in the header of a response. -/
def headerModel (headers : HeaderMap) : Option String :=
  (headers.get openaiModelName).bind toStr

/-- The model of a record is what was parsed, if the response was a success. -/
theorem record_model (readers : Readers F) (stamp : Stamp) (machineId : String)
    (operation : Operation) (reasoningEffort : Option String) {status : UInt16}
    (success : isSuccess status = true) (openaiModel : Option String) (chunks : List Bytes)
    (pumped : Pumped) :
    (Upstream.record readers stamp machineId operation reasoningEffort
        (.response status openaiModel chunks pumped)).model =
      (parseMirror readers chunks.flatten openaiModel).audit.model := by
  rw [Upstream.record, StreamUsageParser.finalize_foldl_push, recordAudit, success]
  rfl

/-- **The model of a metered success is the one in its header, or else in its body**,
if and only if it has no such header, or its body is an event stream or an
object. -/
theorem record_model_iff (readers : Readers F) (stamp : Stamp) (machineId : String)
    (operation : Operation) (reasoningEffort : Option String) {status : UInt16}
    (success : isSuccess status = true) (headers : HeaderMap) (chunks : List Bytes)
    (pumped : Pumped) :
    (Upstream.record readers stamp machineId operation reasoningEffort
        (.response status (headerModel headers) chunks pumped)).model =
        (headerModel headers <|> bodyModel readers chunks.flatten) ↔
      ((headerModel headers).isSome → readers.eventsource chunks.flatten ≠ [] ∨
        ∃ root, fromSlice readers.f64 chunks.flatten = some (.object root)) := by
  rw [record_model readers stamp machineId operation reasoningEffort success]
  exact model_parseMirror_iff readers chunks.flatten (headerModel headers)

/-- The headers of a response with a model. -/
def gptHeaders : HeaderMap := [(openaiModelName, ⟨utf8 "gpt-5", rfl⟩)]

theorem headerModel_gptHeaders : headerModel gptHeaders = some "gpt-5" := by
  have first : gptHeaders.get openaiModelName = some ⟨utf8 "gpt-5", rfl⟩ := rfl
  rw [headerModel, first]
  exact toStr_eq_some_iff.mpr ⟨rfl, rfl⟩

/-- The model of the header is recorded, and not that of an object. -/
theorem record_model_iff_object :
    (Upstream.record standardReaders ⟨"0", "2026-01-01T00:00:00Z"⟩ "laptop" .response none
      (.response 200 (headerModel gptHeaders) [utf8 "\x7b\"model\":\"gpt-4\"\x7d"] .ended)).model =
      some "gpt-5" := by
  have object : ∃ root, fromSlice standardReaders.f64
      [utf8 "\x7b\"model\":\"gpt-4\"\x7d"].flatten = some (.object root) := ⟨_, rfl⟩
  have recorded := (record_model_iff standardReaders ⟨"0", "2026-01-01T00:00:00Z"⟩ "laptop"
    .response none (show isSuccess 200 from rfl) gptHeaders
    [utf8 "\x7b\"model\":\"gpt-4\"\x7d"] .ended).mpr fun _ => .inr object
  rw [recorded, headerModel_gptHeaders]
  rfl

/-- The model of the header is lost beside an empty body. -/
theorem not_record_model_empty : ¬ ∀ (headers : HeaderMap) (chunks : List Bytes),
    (Upstream.record standardReaders ⟨"0", "2026-01-01T00:00:00Z"⟩ "laptop" .response none
        (.response 200 (headerModel headers) chunks .ended)).model =
      (headerModel headers <|> bodyModel standardReaders chunks.flatten) := by
  intro recorded
  have unframed : standardReaders.eventsource (utf8 "") = [] := by
    rw [standardFraming_standardReaders]
    rfl
  have lost := recorded gptHeaders [utf8 ""]
  rw [record_model standardReaders _ _ _ _ (show isSuccess 200 from rfl)] at lost
  have present : (headerModel gptHeaders).isSome := by rw [headerModel_gptHeaders]; rfl
  rcases (model_parseMirror_iff _ _ _).mp lost present with framed | ⟨root, read⟩
  · exact framed unframed
  · cases read

end Debitmetre
