import TsServiceLib.Library.Framing
import TsServiceLib.Library.OrderedMap
import TsServiceLib.Config.ConfigParser

/-!
The index of a parsed configuration. Making it is what accepts the document:
names and ids are unique, references lead somewhere and numbers are in range.
-/
namespace RuntimeConfigs
open Numbers ConfigValues ConfigParsers OrderedMaps

/-- What is indexed by an id and by a name. -/
class NamedIdentity (T : Type) where
  id : T → Int
  name : T → String

instance : NamedIdentity ServiceConfig := ⟨ServiceConfig.id, ServiceConfig.name⟩
instance : NamedIdentity StreamConfig := ⟨StreamConfig.id, StreamConfig.name⟩
instance : NamedIdentity DataConnectorConfig := ⟨DataConnectorConfig.id, DataConnectorConfig.name⟩
instance : NamedIdentity EndpointConfig := ⟨EndpointConfig.id, EndpointConfig.name⟩

structure Identities (T : Type) where
  byId : OrderedMap Int T := OrderedMap.empty
  byName : OrderedMap String T := OrderedMap.empty

section Indexes
variable {K T : Type} [DecidableEq K] [NamedIdentity T]

def addIdentity (category : String) (index : Identities T) (value : T) : Checked (Identities T) :=
  if index.byName.has (NamedIdentity.name value) then
    fails ("duplicate " ++ category ++ " name: " ++ NamedIdentity.name value)
  else if index.byId.has (NamedIdentity.id value) then
    fails ("duplicate " ++ category ++ " id: " ++ toString (NamedIdentity.id value))
  else
    .ok { byId := index.byId.set (NamedIdentity.id value) value
          byName := index.byName.set (NamedIdentity.name value) value }

def indexIdentities (category : String) (values : List T) : Checked (Identities T) :=
  values.foldlM (addIdentity category) {}

/-- One turn of the loops that fill a map and refuse a key that is there. -/
def addKey (key : T → K) (duplicate : T → String) (target : OrderedMap K T) (value : T) : Checked (OrderedMap K T) :=
  if target.has (key value) then fails (duplicate value) else .ok (target.set (key value) value)

def indexBy (key : T → K) (duplicate : T → String) (values : List T) : Checked (OrderedMap K T) :=
  values.foldlM (addKey key duplicate) OrderedMap.empty

def indexNamed (nameOf : T → String) (category : String) : List T → Checked (OrderedMap String T) :=
  indexBy nameOf fun value => "duplicate " ++ category ++ " name: " ++ nameOf value

end Indexes

def linkKey (source target : Int) : String := toString source ++ ":" ++ toString target

def indexLinks : List LinkConfig → Checked (OrderedMap String LinkConfig) :=
  indexBy (fun link => linkKey link.source link.target)
    fun link => "duplicate link from=" ++ toString link.source ++ " to=" ++ toString link.target

structure RuntimeConfig where
  config : CanonicalConfig
  services : Identities ServiceConfig
  streams : Identities StreamConfig
  connectors : Identities DataConnectorConfig
  endpoints : Identities EndpointConfig
  pools : OrderedMap String PoolConfig
  modules : OrderedMap String ModuleConfig
  types : OrderedMap String TypeConfig
  links : OrderedMap String LinkConfig

def isSafe (value : Int) : Bool := (Number.finite value).isSafeInteger

def validatePort (value : Int) (path : String) : Checked Unit :=
  if !isSafe value || value < 0 || 65535 < value then
    .error (.range (path ++ " must be an integer between 0 and 65535"))
  else .ok ()

def validateNonNegative (value : Int) (path : String) : Checked Unit :=
  if !isSafe value || value < 0 then .error (.range (path ++ " must be a non-negative integer")) else .ok ()

def validateGiven (value : Option Int) (path : String) : Checked Unit :=
  match value with
  | some given => validateNonNegative given path
  | none => .ok ()

def validatePositive (value : Int) (path : String) : Checked Unit :=
  if !isSafe value || value < 1 then .error (.range (path ++ " must be a positive integer")) else .ok ()

def refuseIf (refused : Bool) (message : String) : Checked Unit := if refused then fails message else .ok ()

/-- The pool that a call is sent through, if it is sent through one. -/
def poolNameOf : CallSemanticsGroup → Option String
  | .functionCall _ => none
  | .parallelCall => none
  | .taskPool poolName => some poolName
  | .priorityTaskPool poolName _ => some poolName

variable (r : RuntimeConfig)

def validateCallSemantics (semantics : Option CallSemanticsGroup) (owner : String) : Checked Unit :=
  match semantics.bind poolNameOf with
  | none => .ok ()
  | some poolName => refuseIf (poolName != "" && !r.pools.has poolName) (owner ++ " references missing pool " ++ poolName)

/-- The id of an error stream is the negated id of its owner. -/
def hasStreamReference (id : Int) : Bool :=
  r.streams.byId.has id ||
    (decide (id < 0) && match (r.streams.byId.get (-id)).map StreamConfig.type with
      | some .Input | some .Process | some .Sink => true
      | _ => false)

def validateService (service : ServiceConfig) : Checked Unit := do
  let owner := "service " ++ service.name
  validatePort service.grpcPort (owner ++ " grpcPort")
  validatePort service.httpPort (owner ++ " httpPort")
  validateNonNegative service.shutdownTimeout (owner ++ " shutdownTimeout")
  validateGiven service.defaultGrpcTimeout (owner ++ " defaultGrpcTimeout")
  validateCallSemantics r service.defaultCallSemantics owner

def validatePool (pool : PoolConfig) : Checked Unit := do
  let owner := "pool " ++ pool.name
  validateNonNegative pool.executorsCount (owner ++ " executorsCount")
  validateNonNegative pool.queueCapacity (owner ++ " queueCapacity")

def validateConnector (connector : DataConnectorConfig) : Checked Unit :=
  match connector.kind with
  | .grpc connectionsCount =>
    validatePositive connectionsCount ("gRPC data connector " ++ connector.name ++ " connectionsCount")
  | .temporal settings => do
    let owner := "Temporal data connector " ++ connector.name
    refuseIf (settings.address == "") (owner ++ " requires address")
    refuseIf (settings.namespaceName == "") (owner ++ " requires namespace")
    refuseIf ((settings.tlsCertFile == "") != (settings.tlsKeyFile == "")) (owner ++ " requires both TLS cert and key")
    refuseIf (!settings.tlsEnabled &&
        (settings.tlsCertFile != "" || settings.tlsKeyFile != "" || settings.tlsCaFile != "" || settings.tlsServerName != ""))
      (owner ++ " cannot configure TLS files while TLS is disabled")
  | _ => .ok ()

def typeText (type : TransformationType) : String :=
  match transformations.find? fun entry => entry.2 == type with
  | some entry => entry.1
  | none => ""

def validateStream (stream : StreamConfig) : Checked Unit := do
  let owner := "stream " ++ stream.name
  refuseIf (!r.services.byId.has stream.idService)
    (owner ++ " references missing service id " ++ toString stream.idService)
  (stream.idSource :: stream.idSources).forM fun sourceId =>
    refuseIf (sourceId != 0 && !hasStreamReference r sourceId)
      (owner ++ " references missing source stream id " ++ toString sourceId)
  match stream.idEndpoint with
  | some endpointId =>
    refuseIf ((stream.type == .Input || stream.type == .Sink) && !r.endpoints.byId.has endpointId)
      (typeText stream.type ++ " " ++ owner ++ " references missing endpoint id " ++ toString endpointId)
  | none => .ok ()

/-- Whether an endpoint may belong to a connector. -/
def sameTransport : EndpointKind → ConnectorKind → Bool
  | .http, .http => true
  | .grpc, .grpc _ => true
  | .kafka, .kafka => true
  | .temporal _, .temporal _ => true
  | .cron _, .cron => true
  | .custom, .custom => true
  | _, _ => false

def validateTemporalEndpoint (name : String) (settings : TemporalEndpoint) : Checked Unit := do
  let owner := "Temporal endpoint " ++ name
  refuseIf (settings.taskQueue == "") (owner ++ " requires taskQueue")
  refuseIf (settings.temporalExecutionType == "Activity" && decide (settings.activityStartToCloseTimeout < 1))
    (owner ++ " requires activityStartToCloseTimeout")
  refuseIf (decide (settings.maximumAttempts < 1)) (owner ++ " requires maximumAttempts")
  refuseIf (settings.schedule != "" && (settings.scheduleId == "" || settings.timezone == ""))
    ("scheduled " ++ owner ++ " requires scheduleId, timezone and policies")
  refuseIf (settings.schedule == "" && (settings.scheduleId != "" || settings.timezone != "UTC"))
    ("on-demand " ++ owner ++ " cannot configure scheduleId or timezone")

def validateEndpoint (endpoint : EndpointConfig) : Checked Unit :=
  match r.connectors.byId.get endpoint.idDataConnector with
  | none => fails ("endpoint " ++ endpoint.name ++ " references missing data connector id " ++ toString endpoint.idDataConnector)
  | some connector => do
    refuseIf (!sameTransport endpoint.kind connector.kind)
      ("endpoint " ++ endpoint.name ++ " type does not match data connector " ++ connector.name)
    match endpoint.kind with
    | .temporal settings => do
      validateTemporalEndpoint endpoint.name settings
      refuseIf (settings.timezone != "UTC") ("scheduled endpoint " ++ endpoint.name ++ " requires timezone UTC")
    | .cron timezone => refuseIf (timezone != "UTC") ("scheduled endpoint " ++ endpoint.name ++ " requires timezone UTC")
    | _ => .ok ()

def validateLink (link : LinkConfig) : Checked Unit := do
  let owner := "link from=" ++ toString link.source ++ " to=" ++ toString link.target
  refuseIf (!hasStreamReference r link.source || !hasStreamReference r link.target) (owner ++ " references missing stream")
  validateCallSemantics r link.callSemantics owner

def validateReferences : Checked Unit := do
  r.config.services.forM (validateService r)
  r.config.pools.forM validatePool
  r.config.dataConnectors.forM validateConnector
  r.config.streams.forM (validateStream r)
  r.config.endpoints.forM (validateEndpoint r)
  r.config.links.forM (validateLink r)

/-- The constructor `new RuntimeConfig(config)`. -/
def make (config : CanonicalConfig) : Checked RuntimeConfig := do
  let services ← indexIdentities "service" config.services
  let streams ← indexIdentities "stream" config.streams
  let connectors ← indexIdentities "data connector" config.dataConnectors
  let endpoints ← indexIdentities "endpoint" config.endpoints
  let pools ← indexNamed PoolConfig.name "pool" config.pools
  let modules ← indexNamed ModuleConfig.name "module" config.modules
  let types ← indexNamed TypeConfig.name "type" config.types
  let links ← indexLinks config.links
  let r : RuntimeConfig := { config, services, streams, connectors, endpoints, pools, modules, types, links }
  validateReferences r
  return r

def serviceById (id : Int) : Option ServiceConfig := r.services.byId.get id

def poolByName (name : String) : Option PoolConfig := r.pools.get name

def link (source target : Int) : Option LinkConfig := r.links.get (linkKey source target)

/-- The call semantics of the links and then those of the services. -/
def selections (config : CanonicalConfig) : List (Option CallSemanticsGroup) :=
  config.links.map LinkConfig.callSemantics ++ config.services.map ServiceConfig.defaultCallSemantics

/-- What the constructor has established when it returns. -/
structure Accepted (config : CanonicalConfig) (r : RuntimeConfig) : Prop where
  kept : r.config = config
  services : ∀ service ∈ config.services, serviceById r service.id = some service
  pools : ∀ name pool, poolByName r name = some pool ↔ pool ∈ config.pools ∧ pool.name = name
  links : ∀ source target found, link r source target = some found → found ∈ config.links
  counts : ∀ pool ∈ config.pools, isSafe pool.executorsCount = true ∧ 0 ≤ pool.executorsCount
  semantics : ∀ selected ∈ selections config, ∀ name, selected.bind poolNameOf = some name →
    name = "" ∨ ∃ pool, poolByName r name = some pool

section Laws
variable {r : RuntimeConfig} {K T : Type} [DecidableEq K]

theorem indexed_get {key : T → K} {duplicate : T → String} {values : List T} {target m : OrderedMap K T}
    (filled : values.foldlM (addKey key duplicate) target = .ok m) (k : K) (v : T) :
    m.get k = some v ↔ target.get k = some v ∨ (v ∈ values ∧ key v = k) := by
  induction values generalizing target with
  | nil =>
    cases filled
    simp
  | cons value rest ih =>
    rw [List.foldlM_cons] at filled
    obtain ⟨next, added, later⟩ := Framing.bind_ok.mp filled
    unfold addKey at added
    split at added
    · cases added
    · rename_i absent
      cases added
      have missing : target.get (key value) = none := by simpa [OrderedMap.has] using absent
      rw [ih later, OrderedMap.get_set, List.mem_cons]
      by_cases same : k = key value
      · rw [if_pos same, same, missing]
        constructor
        · rintro (found | ⟨mem, here⟩)
          · cases found
            exact .inr ⟨.inl rfl, rfl⟩
          · exact .inr ⟨.inr mem, here⟩
        · rintro (found | ⟨rfl | mem, here⟩)
          · cases found
          · exact .inl rfl
          · exact .inr ⟨mem, here⟩
      · rw [if_neg same]
        constructor
        · rintro (found | ⟨mem, here⟩)
          · exact .inl found
          · exact .inr ⟨.inr mem, here⟩
        · rintro (found | ⟨rfl | mem, here⟩)
          · exact .inl found
          · exact absurd here.symm same
          · exact .inr ⟨mem, here⟩

theorem indexBy_get {key : T → K} {duplicate : T → String} {values : List T} {m : OrderedMap K T}
    (filled : indexBy key duplicate values = .ok m) (k : K) (v : T) : m.get k = some v ↔ v ∈ values ∧ key v = k := by
  rw [indexed_get filled k v, or_iff_right]
  simp [OrderedMap.get, OrderedMap.empty]

theorem identities_byId [NamedIdentity T] {category : String} {values : List T} {index result : Identities T}
    (filled : values.foldlM (addIdentity category) index = .ok result) :
    values.foldlM (addKey NamedIdentity.id fun value => "duplicate " ++ category ++ " id: " ++ toString (NamedIdentity.id value))
      index.byId = .ok result.byId := by
  induction values generalizing index with
  | nil =>
    cases filled
    rfl
  | cons value rest ih =>
    rw [List.foldlM_cons] at filled ⊢
    obtain ⟨next, added, later⟩ := Framing.bind_ok.mp filled
    unfold addIdentity at added
    split at added
    · cases added
    · split at added
      · cases added
      · rename_i absent
        cases added
        exact Framing.bind_ok.mpr ⟨_, if_neg absent, ih later⟩

theorem forM_ok {check : T → Checked Unit} {values : List T} {u : Unit} :
    values.forM check = .ok u ↔ ∀ value ∈ values, check value = .ok () := by
  induction values with
  | nil => simp [pure, Except.pure]
  | cons value rest ih =>
    rw [List.forM_eq_forM, List.forM_cons, Framing.bind_ok, List.forall_mem_cons, ← ih]
    constructor
    · rintro ⟨_, here, later⟩
      exact ⟨here, later⟩
    · rintro ⟨here, later⟩
      exact ⟨(), here, later⟩

theorem refuseIf_ok {refused : Bool} {message : String} : refuseIf refused message = .ok () ↔ refused = false := by
  cases refused <;> simp [refuseIf, fails]

theorem validateNonNegative_ok {value : Int} {path : String} (passed : validateNonNegative value path = .ok ()) :
    isSafe value = true ∧ 0 ≤ value := by
  unfold validateNonNegative at passed
  split at passed
  · cases passed
  · rename_i inside
    simp only [Bool.or_eq_true, Bool.not_eq_true', decide_eq_true_eq, not_or, Bool.not_eq_false, not_lt] at inside
    exact inside

theorem validateCallSemantics_ok {semantics : Option CallSemanticsGroup} {owner name : String}
    (passed : validateCallSemantics r semantics owner = .ok ()) (selects : semantics.bind poolNameOf = some name) :
    name = "" ∨ ∃ pool, poolByName r name = some pool := by
  simp only [validateCallSemantics, selects, refuseIf_ok, Bool.and_eq_false_iff, bne_eq_false_iff_eq,
    Bool.not_eq_false', OrderedMap.has_iff] at passed
  exact passed

theorem make_accepted {config : CanonicalConfig} (made : make config = .ok r) : Accepted config r := by
  simp only [make, Framing.bind_ok] at made
  obtain ⟨services, indexed, streams, _, connectors, _, endpoints, _, pools, named, modules, _, types, _, links, keyed, _,
    valid, returned⟩ := made
  cases returned
  simp only [validateReferences, Framing.bind_ok, forM_ok] at valid
  obtain ⟨_, validServices, _, validPools, _, _, _, _, _, _, validLinks⟩ := valid
  constructor
  · rfl
  · intro service mem
    exact (indexBy_get (identities_byId indexed) service.id service).mpr ⟨mem, rfl⟩
  · intro name pool
    exact indexBy_get named name pool
  · intro source target found here
    exact ((indexBy_get keyed (linkKey source target) found).mp here).1
  · intro pool mem
    have checked := validPools pool mem
    simp only [validatePool, Framing.bind_ok] at checked
    obtain ⟨_, count, _⟩ := checked
    exact validateNonNegative_ok count
  · intro selected mem name selects
    rcases List.mem_append.mp mem with linked | default
    · obtain ⟨found, here, rfl⟩ := List.mem_map.mp linked
      have checked := validLinks found here
      simp only [validateLink, Framing.bind_ok] at checked
      obtain ⟨_, _, passed⟩ := checked
      exact validateCallSemantics_ok passed selects
    · obtain ⟨service, here, rfl⟩ := List.mem_map.mp default
      have checked := validServices service here
      simp only [validateService, Framing.bind_ok] at checked
      obtain ⟨_, _, _, _, _, _, _, _, passed⟩ := checked
      exact validateCallSemantics_ok passed selects

end Laws

end RuntimeConfigs
