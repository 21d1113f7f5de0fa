import TsServiceLib.Config.ConfigValue

/-!
The parser of configuration documents, section by section. A field that nothing
reads once it has been parsed is checked and not kept.
-/
namespace ConfigParsers
open Numbers ConfigValues

inductive CallSemanticsGroup where
  | functionCall (async : Bool)
  | taskPool (poolName : String)
  | priorityTaskPool (poolName : String) (priority : Int)
  | parallelCall
  deriving DecidableEq

structure ServiceConfig where
  id : Int
  name : String
  defaultCallSemantics : Option CallSemanticsGroup
  defaultGrpcTimeout : Option Int
  grpcPort : Int
  httpPort : Int
  shutdownTimeout : Int
  deriving DecidableEq

inductive TransformationType where
  | Input | Map | Filter | Join | MultiJoin | Process | FlatMap | FlatMapIterable | KeyBy | Merge | Split | Case
  | Sink | CycleLink | Error | Delay | When | SubStream
  deriving DecidableEq

structure StreamConfig where
  id : Int
  name : String
  type : TransformationType
  idService : Int
  idSource : Int
  idSources : List Int
  idEndpoint : Option Int
  deriving DecidableEq

structure TemporalConnector where
  address : String
  namespaceName : String
  tlsEnabled : Bool
  tlsServerName : String
  tlsCaFile : String
  tlsCertFile : String
  tlsKeyFile : String
  deriving DecidableEq

inductive ConnectorKind where
  | http
  | grpc (connectionsCount : Int)
  | kafka
  | custom
  | cron
  | temporal (settings : TemporalConnector)
  deriving DecidableEq

structure DataConnectorConfig where
  id : Int
  name : String
  kind : ConnectorKind
  deriving DecidableEq

structure TemporalEndpoint where
  enabled : Bool
  taskQueue : String
  temporalExecutionType : String
  maxConcurrentActivities : Int
  maxConcurrentWorkflowTasks : Int
  schedule : String
  scheduleId : String
  timezone : String
  activityStartToCloseTimeout : Int
  maximumAttempts : Int
  deriving DecidableEq

inductive EndpointKind where
  | http
  | grpc
  | kafka
  | temporal (settings : TemporalEndpoint)
  | cron (timezone : String)
  | custom
  deriving DecidableEq

structure EndpointConfig where
  id : Int
  name : String
  idDataConnector : Int
  kind : EndpointKind
  deriving DecidableEq

structure PoolConfig where
  name : String
  executorsCount : Int
  queueCapacity : Int
  deriving DecidableEq

structure LinkConfig where
  source : Int
  target : Int
  callSemantics : Option CallSemanticsGroup
  deriving DecidableEq

structure ModuleConfig where
  name : String
  deriving DecidableEq

structure TypeConfig where
  name : String
  deriving DecidableEq

structure CanonicalConfig where
  services : List ServiceConfig
  streams : List StreamConfig
  dataConnectors : List DataConnectorConfig
  endpoints : List EndpointConfig
  pools : List PoolConfig
  links : List LinkConfig
  modules : List ModuleConfig
  types : List TypeConfig
  deriving DecidableEq

/-- The codes of the call semantics; 0 and 1 select none. -/
def semanticsOfCode (code : Number) (path : String) : Checked (Option CallSemanticsGroup) :=
  if code = .finite 0 ∨ code = .finite 1 then .ok none
  else if code = .finite 2 then .ok (some (.functionCall false))
  else if code = .finite 3 then .ok (some (.taskPool ""))
  else if code = .finite 4 then .ok (some (.priorityTaskPool "" 0))
  else if code = .finite 5 then .ok (some .parallelCall)
  else fails (path ++ " has an unknown call semantics value")

def callSemantics (value : Value) (path : String) : Checked (Option CallSemanticsGroup) :=
  match value with
  | .undefined => .ok none
  | .number code => semanticsOfCode code path
  | value => do
    let source ← record value path
    if hasKey source "functionCall" then
      let config ← readField record source path "functionCall"
      let async ← readField optionalBoolean config (path ++ ".functionCall") "async"
      return some (.functionCall (async.getD false))
    if hasKey source "taskPool" then
      let config ← readField record source path "taskPool"
      let poolName ← readField stringValue config (path ++ ".taskPool") "poolName"
      return some (.taskPool poolName)
    if hasKey source "priorityTaskPool" then
      let config ← readField record source path "priorityTaskPool"
      let poolName ← readField stringValue config (path ++ ".priorityTaskPool") "poolName"
      let priority ← readField integer config (path ++ ".priorityTaskPool") "priority"
      return some (.priorityTaskPool poolName priority)
    if hasKey source "parallelCall" then
      let _ ← readField record source path "parallelCall"
      return some .parallelCall
    fails (path ++ " must select exactly one call semantics")

def parseService (source : RecordValue) (path : String) : Checked ServiceConfig := do
  let kubernetesWorkloadType ← readField stringValue source path "kubernetesWorkloadType"
  if kubernetesWorkloadType ≠ "Deployment" ∧ kubernetesWorkloadType ≠ "StatefulSet" then
    fails (path ++ ".kubernetesWorkloadType must be Deployment or StatefulSet")
  let named ← identity source path
  let _ ← readField stringValue source path "color"
  let defaultCallSemantics ← readField callSemantics source path "defaultCallSemantics"
  let defaultGrpcTimeout ← readField optionalInteger source path "defaultGrpcTimeout"
  let _ ← readField stringValue source path "environment"
  let _ ← readField optionalString source path "golangVersion"
  let _ ← readField stringValue source path "grpcHost"
  let grpcPort ← readField integer source path "grpcPort"
  let _ ← readField stringValue source path "httpHost"
  let httpPort ← readField integer source path "httpPort"
  let _ ← readField optionalString source path "logLevel"
  let _ ← readField stringValue source path "metricsHandler"
  let _ ← readField stringValue source path "startupHandler"
  let _ ← readField stringValue source path "readinessHandler"
  let _ ← readField stringValue source path "livenessHandler"
  let _ ← readField optionalString source path "modulePath"
  let shutdownTimeout ← readField integer source path "shutdownTimeout"
  let _ ← readField stringValue source path "statusHandler"
  return { named with defaultCallSemantics, defaultGrpcTimeout, grpcPort, httpPort, shutdownTimeout }

/-- The transformations in the order of their codes, which start at 1. -/
def transformations : List (String × TransformationType) :=
  [("Input", .Input), ("Map", .Map), ("Filter", .Filter), ("Join", .Join), ("MultiJoin", .MultiJoin),
    ("Process", .Process), ("FlatMap", .FlatMap), ("FlatMapIterable", .FlatMapIterable), ("KeyBy", .KeyBy),
    ("Merge", .Merge), ("Split", .Split), ("Case", .Case), ("Sink", .Sink), ("CycleLink", .CycleLink),
    ("Error", .Error), ("Delay", .Delay), ("When", .When), ("SubStream", .SubStream)]

def transformation (value : Value) (path : String) : Checked TransformationType :=
  let found := match value with
    | .number (.finite code) =>
      if code.den = 1 ∧ 1 ≤ code.num then (transformations[code.num.toNat - 1]?).map Prod.snd else none
    | .string name => (transformations.find? fun entry => entry.1 == name).map Prod.snd
    | _ => none
  match found with
  | some type => .ok type
  | none => fails (path ++ " has an unknown transformation type")

/-- One of the codes from 0 to `last`. -/
def codeUpTo (last : Int) (what : String) (value : Value) (path : String) : Checked Int := do
  let result ← integer value path
  if 0 ≤ result ∧ result ≤ last then .ok result else fails (path ++ " has an unknown " ++ what)

def joinType : Value → String → Checked Int := codeUpTo 4 "join type"

def joinStorage : Value → String → Checked Int := codeUpTo 3 "join storage type"

def functionFields (source : RecordValue) (path : String) : Checked Unit := do
  let _ ← readField optionalString source path "functionPackage"
  let _ ← readField optionalString source path "functionName"
  let _ ← readField optionalBoolean source path "publicFunction"
  let _ ← readField optionalString source path "functionDescription"
  let _ ← readField optionalString source path "functionInitializerGroup"
  let _ ← readField optionalString source path "functionModule"

/-- What the fields of one transformation come to; only `idEndpoint` is kept. -/
def transformationFields (type : TransformationType) (source : RecordValue) (path : String) : Checked (Option Int) := do
  match type with
  | .Input =>
    let _ ← readField stringValue source path "valueType"
    return some (← readField integer source path "idEndpoint")
  | .Map | .FlatMap | .SubStream | .FlatMapIterable | .When =>
    let _ ← readField stringValue source path "valueType"
    return none
  | .Filter | .Case | .CycleLink | .Merge | .Split => return none
  | .Delay =>
    let _ ← readField integer source path "duration"
    return none
  | .KeyBy =>
    let _ ← readField stringValue source path "keyType"
    let _ ← readField stringValue source path "valueType"
    return none
  | .Join =>
    let _ ← readField stringValue source path "valueType"
    let _ ← readField joinType source path "joinType"
    let _ ← readField joinStorage source path "joinStorage"
    let _ ← readField integer source path "ttl"
    let _ ← readField booleanValue source path "renewTTL"
    return none
  | .MultiJoin =>
    let _ ← readField stringValue source path "valueType"
    let _ ← readField joinStorage source path "joinStorage"
    let _ ← readField integer source path "ttl"
    let _ ← readField booleanValue source path "renewTTL"
    return none
  | .Process =>
    let _ ← readField optionalString source path "pattern"
    return none
  | .Sink =>
    let _ ← readField optionalString source path "valueType"
    return some (← readField integer source path "idEndpoint")
  | .Error => fails (path ++ ".type Error is a virtual runtime stream, not a config stream")

def parseStream (source : RecordValue) (path : String) : Checked StreamConfig := do
  let type ← readField transformation source path "type"
  let named ← identity source path
  let _ ← readField stringValue source path "pipeline"
  let _ ← readField optionalString source path "component"
  let idService ← readField integer source path "idService"
  let idSource ← readField optionalInteger source path "idSource"
  let idSources ← readField integerArray source path "idSources"
  let _ ← readField numberValue source path "xPos"
  let _ ← readField numberValue source path "yPos"
  functionFields source path
  let idEndpoint ← transformationFields type source path
  return { named with type, idService, idSource := idSource.getD 0, idSources, idEndpoint }

def connectorKind (type : Int) (source : RecordValue) (path : String) : Checked ConnectorKind := do
  match type with
  | 1 =>
    let _ ← readField optionalString source path "module"
    let _ ← readField optionalString source path "host"
    let _ ← readField optionalInteger source path "port"
    let _ ← readField optionalBoolean source path "useDedicatedListener"
    return .http
  | 2 =>
    let _ ← readField optionalInteger source path "programmingLanguage"
    let _ ← readField optionalString source path "module"
    let _ ← readField optionalString source path "address"
    let connectionsCount ← readField optionalInteger source path "connectionsCount"
    return .grpc (connectionsCount.getD 1)
  | 3 =>
    let _ ← readField optionalInteger source path "programmingLanguage"
    let _ ← readField optionalString source path "brokers"
    let _ ← readField optionalString source path "version"
    let _ ← readField (optionally numberValue) source path "dialTimeout"
    let _ ← readField optionalBoolean source path "usePartitioner"
    let _ ← readField optionalBoolean source path "async"
    let _ ← readField (optionalEnum ["PLAINTEXT", "SASL_PLAINTEXT", "SASL_SSL"]) source path "securityProtocol"
    let _ ← readField (optionalEnum ["PLAIN", "SCRAM-SHA-256", "SCRAM-SHA-512"]) source path "saslMechanism"
    let _ ← readField optionalString source path "username"
    let _ ← readField optionalString source path "password"
    return .kafka
  | 4 => return .custom
  | 5 => return .cron
  | 6 =>
    let address ← readField optionalString source path "address"
    let namespaceName ← readField optionalString source path "namespace"
    let _ ← readField optionalString source path "identity"
    let _ ← readField optionalString source path "apiKey"
    let tlsEnabled ← readField optionalBoolean source path "tlsEnabled"
    let tlsServerName ← readField optionalString source path "tlsServerName"
    let tlsCaFile ← readField optionalString source path "tlsCaFile"
    let tlsCertFile ← readField optionalString source path "tlsCertFile"
    let tlsKeyFile ← readField optionalString source path "tlsKeyFile"
    let _ ← readField optionalInteger source path "workerStopTimeout"
    return .temporal
      { address := address.getD ""
        namespaceName := namespaceName.getD "default"
        tlsEnabled := tlsEnabled.getD false
        tlsServerName := tlsServerName.getD ""
        tlsCaFile := tlsCaFile.getD ""
        tlsCertFile := tlsCertFile.getD ""
        tlsKeyFile := tlsKeyFile.getD "" }
  | _ => fails (path ++ ".type has an unknown data connector type")

def parseConnector (source : RecordValue) (path : String) : Checked DataConnectorConfig := do
  let type ← readField integer source path "type"
  let named ← identity source path
  let _ ← readField stringValue source path "implementation"
  let kind ← connectorKind type source path
  return { named with kind }

def grpcMethod (value : Value) (path : String) : Checked Unit :=
  let known : Bool := match value with
    | .number code => decide (code = .finite 1 ∨ code = .finite 2 ∨ code = .finite 4 ∨ code = .finite 5)
    | .string name =>
      ["NoStreaming", "ClientStreaming", "ServerStreaming", "BidirectionalStreaming"].contains name
    | _ => false
  if known then .ok () else fails (path ++ " has an unknown gRPC method type")

def overlapPolicy : Value → String → Checked (Option String) := optionalEnum ["Allow", "Skip"]

def missedRunPolicy : Value → String → Checked (Option String) := optionalEnum ["FireOnce", "Skip"]

/-- The first of the fields that is there decides what kind of endpoint it is. -/
def endpointKind (source : RecordValue) (path : String) : Checked EndpointKind := do
  let given key := !(field source key).isUndefined
  if given "httpMethodType" then
    let _ ← readField stringValue source path "httpMethodType"
    let _ ← readField stringValue source path "path"
    return .http
  if given "grpcMethodType" then
    readField grpcMethod source path "grpcMethodType"
    let _ ← readField stringValue source path "methodName"
    return .grpc
  if given "topic" || given "createTopic" || given "consumerGroup" then
    let _ ← readField optionalBoolean source path "enabled"
    let _ ← readField optionalBoolean source path "createTopic"
    let _ ← readField optionalString source path "topic"
    let _ ← readField optionalInteger source path "partitions"
    let _ ← readField optionalString source path "consumerGroup"
    let _ ← readField optionalInteger source path "replicationFactor"
    return .kafka
  if given "taskQueue" || given "scheduleId" then
    let enabled ← readField optionalBoolean source path "enabled"
    let taskQueue ← readField optionalString source path "taskQueue"
    let temporalExecutionType ← readField (requiredEnum ["Activity", "Workflow"]) source path "temporalExecutionType"
    let maxConcurrentActivities ← readField optionalInteger source path "maxConcurrentActivities"
    let maxConcurrentWorkflowTasks ← readField optionalInteger source path "maxConcurrentWorkflowTasks"
    let schedule ← readField optionalString source path "schedule"
    let scheduleId ← readField optionalString source path "scheduleId"
    let timezone ← readField optionalString source path "timezone"
    let _ ← readField overlapPolicy source path "overlapPolicy"
    let _ ← readField missedRunPolicy source path "missedRunPolicy"
    let _ ← readField optionalInteger source path "workflowExecutionTimeout"
    let activityStartToCloseTimeout ← readField optionalInteger source path "activityStartToCloseTimeout"
    let _ ← readField optionalInteger source path "activityHeartbeatTimeout"
    let maximumAttempts ← readField optionalInteger source path "maximumAttempts"
    return .temporal
      { enabled := enabled.getD false
        taskQueue := taskQueue.getD ""
        temporalExecutionType
        maxConcurrentActivities := maxConcurrentActivities.getD 0
        maxConcurrentWorkflowTasks := maxConcurrentWorkflowTasks.getD 0
        schedule := schedule.getD ""
        scheduleId := scheduleId.getD ""
        timezone := timezone.getD "UTC"
        activityStartToCloseTimeout := activityStartToCloseTimeout.getD 0
        maximumAttempts := maximumAttempts.getD 0 }
  if given "schedule" then
    let _ ← readField optionalBoolean source path "enabled"
    let _ ← readField stringValue source path "schedule"
    let timezone ← readField optionalString source path "timezone"
    let _ ← readField overlapPolicy source path "overlapPolicy"
    let _ ← readField missedRunPolicy source path "missedRunPolicy"
    return .cron (timezone.getD "UTC")
  let _ ← readField optionalBoolean source path "enabled"
  return .custom

def parseEndpoint (source : RecordValue) (path : String) : Checked EndpointConfig := do
  let named ← identity source path
  let idDataConnector ← readField integer source path "idDataConnector"
  let _ ← readField optionalBoolean source path "tracingEnabled"
  functionFields source path
  let kind ← endpointKind source path
  return { named with idDataConnector, kind }

/-- What the fields beside the semantics of a link make of them. -/
def effectiveSemantics (source : RecordValue) (path : String) :
    Option CallSemanticsGroup → Checked (Option CallSemanticsGroup)
  | some (.functionCall async) => do
    if (field source "async").isUndefined then return some (.functionCall async)
    return some (.functionCall (← readField booleanValue source path "async"))
  | some (.taskPool poolName) => do
    if (field source "poolName").isUndefined then return some (.taskPool poolName)
    return some (.taskPool (← readField stringValue source path "poolName"))
  | some (.priorityTaskPool _ _) => do
    let poolName ← readField stringValue source path "poolName"
    let priority ← readField integer source path "priority"
    return some (.priorityTaskPool poolName priority)
  | other => return other

def parseLink (source : RecordValue) (path : String) : Checked LinkConfig := do
  let semantics ← readField callSemantics source path "callSemantics"
  let effective ← effectiveSemantics source path semantics
  let origin ← readField integer source path "from"
  let target ← readField integer source path "to"
  return { source := origin, target, callSemantics := effective }

def parsePool (source : RecordValue) (path : String) : Checked PoolConfig := do
  let name ← readField stringValue source path "name"
  let executorsCount ← readField integer source path "executorsCount"
  let queueCapacity ← readField optionalInteger source path "queueCapacity"
  return { name, executorsCount, queueCapacity := queueCapacity.getD 0 }

def parseModule (source : RecordValue) (path : String) : Checked ModuleConfig := do
  let name ← readField stringValue source path "name"
  let _ ← readField optionalString source path "path"
  return { name }

def parseType (source : RecordValue) (path : String) : Checked TypeConfig := do
  let name ← readField stringValue source path "name"
  let _ ← readField stringValue source path "type"
  let _ ← readField optionalString source path "typeDefinition"
  let _ ← readField optionalString source path "typeImport"
  let _ ← readField optionalString source path "valueType"
  let _ ← readField optionalString source path "keyType"
  let _ ← readField optionalString source path "package"
  let _ ← readField optionalString source path "module"
  let _ ← readField optionalInteger source path "definitionFormat"
  let _ ← readField optionalBoolean source path "publicType"
  let _ ← readField optionalBoolean source path "transferByValue"
  let _ ← readField optionalBoolean source path "useAlias"
  return { name }

def parseCanonicalConfig (value : Value) : Checked CanonicalConfig := do
  let root ← record value "config"
  let services ← namedSection root "services" parseService
  let streams ← namedSection root "streams" parseStream
  let dataConnectors ← namedSection root "dataConnectors" parseConnector
  let endpoints ← namedSection root "endpoints" parseEndpoint
  let pools ← namedSection root "pools" parsePool
  let links ← namedSection root "links" parseLink
  let modules ← namedSection root "modules" parseModule
  let types ← namedSection root "types" parseType
  return { services, streams, dataConnectors, endpoints, pools, links, modules, types }

end ConfigParsers
