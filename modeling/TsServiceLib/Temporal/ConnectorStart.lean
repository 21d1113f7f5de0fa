import TsServiceLib.Temporal.EndpointRegistry
import Mathlib.Logic.Function.Basic

/-!
The start and the stop of a Temporal connector, step by step. A start loads the
TLS files, awaits a connection under its own signal, takes the connection and
then has the schedule of every scheduled endpoint ensured; an error in that last
part closes the connection again. A connection attempt goes on by itself: its
promise settles whenever it does, also when no start waits for it any more.
A promise that has settled is noticed by a `resume`.
-/
namespace TemporalConnectors.Lifecycle
open Transitions Function ConfigValues ConfigParsers RuntimeConfigs OrderedMaps TemporalIdentities

inductive AttemptStatus where
  | connecting | established | failed
  deriving DecidableEq

/-- A connection that a start has begun to make, and how often it was closed. -/
structure Attempt where
  call : Nat
  status : AttemptStatus := .connecting
  closes : Nat := 0
  deriving DecidableEq

/-- What the schedule of an endpoint is to look like on the server. -/
structure Schedule where
  scheduleId : String
  owner : String
  workflowType : String
  taskQueue : String
  deriving DecidableEq

structure Memo where
  managedBy : Option String
  owner : Option String
  callId : Option String

structure Description where
  memo : Option Memo
  workflowType : String
  taskQueue : String

/-- What a start waits for at the endpoint it has come to. -/
inductive Ensuring where
  | unhandled
  | creating (schedule : Schedule)
  | describing (schedule : Schedule)
  deriving DecidableEq

inductive CreateAnswer where
  | created | alreadyRunning | fails
  deriving DecidableEq

/-- Where a start has failed, with the connection attempt it had made by then. -/
inductive Stage where
  | preparing
  | loadingTls
  | connecting (attempt : Nat)
  | cancelled (attempt : Option Nat)
  | ensuring (attempt : Nat)
  deriving DecidableEq

/-- An error that the code itself makes; `none` for one that it is handed. -/
abbrev Thrown := Option ConfigError

inductive Phase where
  | returned
  | loadingTls (files : List String)
  | connecting (attempt : Nat)
  | ensuring (attempt position : Nat) (awaited : Ensuring)
  | rollingBack (attempt : Nat) (error : Thrown)
  | closing (attempt : Nat) (error : Thrown)
  | fulfilled (attempt : Nat)
  | rejected (stage : Stage) (error : Thrown)
  | stopping
  | disconnecting
  | stopped
  deriving DecidableEq

structure Call where
  aborted : Bool := false
  phase : Phase := .returned
  deriving DecidableEq

/-- What a start finds around it: the state of its signal, two settings, the
    address for metrics without blanks, and whether the SDK can be installed. -/
structure StartInput where
  aborted : Bool
  workerStopTimeout : Int
  shutdownTimeout : Int
  address : Option String
  installs : Bool

structure State (H : Type) where
  config : RuntimeConfig
  connector : TemporalConnector H
  connection : Option Nat := none
  client : Option Nat := none
  sdkRuntime : Option (Option String) := none
  count : Nat := 0
  calls : Nat → Call := fun _ => {}
  attempted : Nat := 0
  attempts : Nat → Attempt := fun _ => { call := 0 }

def endpointWorkflowType : String := "servicelib.temporal-endpoint.v1"

def notStarted (name : String) : String := "Temporal connector " ++ name ++ " is not started"

def addressText : Option String → String
  | some address => address
  | none => "undefined"

def resolveWorkerStopTimeout (configuredMillis serviceShutdownMillis : Int) : Checked Int :=
  if !isSafe configuredMillis || configuredMillis < 0 then fails "workerStopTimeout must be a non-negative integer"
  else if !isSafe serviceShutdownMillis || serviceShutdownMillis < 0 then
    fails "service shutdownTimeout must be a non-negative integer"
  else
    let timeout := if configuredMillis = 0 then serviceShutdownMillis else configuredMillis
    if serviceShutdownMillis < timeout then
      fails ("workerStopTimeout " ++ toString timeout ++ "ms exceeds service shutdownTimeout " ++
        toString serviceShutdownMillis ++ "ms")
    else .ok timeout

/-- The address that the SDK runtime has from now on, or what is thrown. -/
def installSdkRuntime (installed : Option (Option String)) (address : Option String) (installs : Bool) :
    Except Thrown (Option String) :=
  match installed with
  | some listening =>
    if listening ≠ address then
      .error (some (.error ("Temporal SDK metrics already listen on " ++ addressText listening ++ ", cannot also use " ++
        addressText address)))
    else .ok listening
  | none => if installs then .ok address else .error none

/-- The files that `tlsOptions` reads, in its order. -/
def tlsFiles (name : String) (settings : ConfigParsers.TemporalConnector) : Checked (List String) :=
  if !settings.tlsEnabled then .ok []
  else if (settings.tlsCertFile == "") != (settings.tlsKeyFile == "") then
    fails ("Temporal connector " ++ name ++ " requires both TLS cert and key")
  else
    .ok ((if settings.tlsCaFile = "" then [] else [settings.tlsCaFile]) ++
      if settings.tlsCertFile = "" then [] else [settings.tlsCertFile, settings.tlsKeyFile])

def endpointOwner (t : CaseTables) (connectorName endpointName : String) : String :=
  temporalIdentityName t connectorName ++ "/endpoint/" ++ temporalIdentityName t endpointName ++ "/v1"

def validateMemo (memo : Option Memo) (owner messageId : String) : Checked Unit :=
  match memo with
  | none => fails ("Temporal ownership collision for " ++ owner)
  | some memo =>
    if memo.managedBy ≠ some "servicelib" ∨ memo.owner ≠ some owner ∨ memo.callId ≠ some messageId then
      fails ("Temporal ownership collision for " ++ owner)
    else .ok ()

/-- The schedule that is there already is the one of this endpoint. -/
def validateSchedule (schedule : Schedule) (description : Description) : Checked Unit := do
  validateMemo description.memo schedule.owner schedule.scheduleId
  if description.workflowType ≠ schedule.workflowType ∨ description.taskQueue ≠ schedule.taskQueue then
    fails ("Temporal schedule " ++ schedule.scheduleId ++ " ownership collision")
  else .ok ()

section Operations
variable {H : Type} (t : CaseTables) (s : State H)

def connectorConfig : Checked (String × ConfigParsers.TemporalConnector) :=
  match s.config.connectors.byId.get s.connector.id with
  | some { name, kind := .temporal settings, .. } => .ok (name, settings)
  | _ => fails ("Temporal connector " ++ s.connector.name ++ " configuration not found")

def State.setPhase (i : Nat) (phase : Phase) : State H :=
  { s with calls := update s.calls i { s.calls i with phase } }

def State.addCall (aborted : Bool) (phase : Phase) : State H :=
  { s with count := s.count + 1, calls := update s.calls s.count { aborted, phase } }

def State.closeAttempt (c : Nat) : State H :=
  { s with attempts := update s.attempts c { s.attempts c with closes := (s.attempts c).closes + 1 } }

/-- What a start checks before it waits for the first time. -/
def prepare (o : StartInput) : Except Thrown ((String × ConfigParsers.TemporalConnector) × Option String) := do
  let config ← (connectorConfig s).mapError some
  let _ ← (resolveWorkerStopTimeout o.workerStopTimeout o.shutdownTimeout).mapError some
  let listening ← installSdkRuntime s.sdkRuntime o.address o.installs
  return (config, listening)

def start (o : StartInput) : State H :=
  if s.connector.started then s.addCall o.aborted .returned
  else if o.aborted then s.addCall true (.rejected (.cancelled none) none)
  else
    match prepare s o with
    | .error error => s.addCall false (.rejected .preparing error)
    | .ok ((name, settings), listening) =>
      let installed := { s with sdkRuntime := some listening }
      match tlsFiles name settings with
      | .error error => installed.addCall false (.rejected .loadingTls (some error))
      | .ok files => installed.addCall false (.loadingTls files)

/-- `abortable(NativeConnection.connect(..))`: the attempt is made even under a
    signal that is aborted already. -/
def connect (i : Nat) : State H :=
  let connecting := { s with attempted := s.attempted + 1, attempts := update s.attempts s.attempted { call := i } }
  if (s.calls i).aborted then connecting.setPhase i (.rejected (.cancelled (some s.attempted)) none)
  else connecting.setPhase i (.connecting s.attempted)

/-- The first part of `ensureSchedule`, up to where it waits. -/
def ensureSchedule (endpoint : EndpointConfig) (settings : TemporalEndpoint) : Checked Ensuring :=
  match s.connector.endpoints.get endpoint.id with
  | some { workflowType, handler := some _, .. } =>
    match s.client with
    | none => fails (notStarted s.connector.name)
    | some _ =>
      .ok (.creating
        { scheduleId := settings.scheduleId
          owner := endpointOwner t s.connector.name endpoint.name
          workflowType := if settings.temporalExecutionType = "Workflow" then workflowType else endpointWorkflowType
          taskQueue := settings.taskQueue })
  | _ => .ok .unhandled

/-- The loop of `start` from one endpoint on, up to where it waits: `none` where
    it has come to its end. -/
def ensureFrom (position : Nat) : List (Int × EndpointRegistration H) → Checked (Option (Nat × Ensuring))
  | [] => .ok none
  | (endpointId, _) :: rest => do
    let (endpoint, settings) ← endpointConfig s.config endpointId
    if settings.enabled && settings.schedule != "" then
      let awaited ← ensureSchedule t s endpoint settings
      return some (position, awaited)
    else ensureFrom (position + 1) rest

/-- An endpoint that is registered meanwhile comes at the end of the loop. -/
def loop (i c position : Nat) : State H :=
  match ensureFrom t s position (s.connector.endpoints.entries.drop position) with
  | .error error => s.setPhase i (.rollingBack c (some error))
  | .ok none => s.setPhase i (.fulfilled c)
  | .ok (some (next, awaited)) => s.setPhase i (.ensuring c next awaited)

/-- The connection has come, and the start takes it. -/
def take (i c : Nat) : State H :=
  loop t { s with connection := some c, client := some c, connector := { s.connector with started := true } } i c 0

def resume (i : Nat) : Option (State H) :=
  match (s.calls i).phase with
  | .loadingTls [] => some (connect s i)
  | .connecting c =>
    match (s.attempts c).status with
    | .connecting => none
    | .failed => some (s.setPhase i (.rejected (.connecting c) none))
    | .established => some (take t s i c)
  | .ensuring c position .unhandled => some (loop t s i c (position + 1))
  | _ => none

def fileRead (i : Nat) (reads : Bool) : Option (State H) :=
  match (s.calls i).phase with
  | .loadingTls (_ :: rest) =>
    some (s.setPhase i (if reads then .loadingTls rest else .rejected .loadingTls none))
  | _ => none

/-- The listener of `abortable` rejects a start that still waits for its connection. -/
def abort (i : Nat) : Option (State H) :=
  if (s.calls i).aborted then none
  else
    let aborted : State H := { s with calls := update s.calls i { s.calls i with aborted := true } }
    match (s.calls i).phase with
    | .connecting c => some (aborted.setPhase i (.rejected (.cancelled (some c)) none))
    | _ => some aborted

def settleAttempt (c : Nat) (establishes : Bool) : Option (State H) :=
  if c < s.attempted ∧ (s.attempts c).status = .connecting then
    let status : AttemptStatus := if establishes then .established else .failed
    some { s with attempts := update s.attempts c { s.attempts c with status } }
  else none

/-- The server answers to the creation of a schedule. -/
def answerCreate (i : Nat) (answer : CreateAnswer) : Option (State H) :=
  match (s.calls i).phase with
  | .ensuring c position (.creating schedule) =>
    match answer with
    | .created => some (loop t s i c (position + 1))
    | .fails => some (s.setPhase i (.rollingBack c none))
    | .alreadyRunning =>
      match s.client with
      | none => some (s.setPhase i (.rollingBack c (some (.error (notStarted s.connector.name)))))
      | some _ => some (s.setPhase i (.ensuring c position (.describing schedule)))
  | _ => none

def answerDescribe (i : Nat) (answer : Option Description) : Option (State H) :=
  match (s.calls i).phase with
  | .ensuring c position (.describing schedule) =>
    match answer with
    | none => some (s.setPhase i (.rollingBack c none))
    | some description =>
      match validateSchedule schedule description with
      | .error error => some (s.setPhase i (.rollingBack c (some error)))
      | .ok _ => some (loop t s i c (position + 1))
  | _ => none

/-- `stop` after the workers have been shut down. -/
def disconnect (i : Nat) : State H :=
  let released := { s with connection := none, client := none, connector := { s.connector with started := false } }
  match s.connection with
  | none => released.setPhase i .stopped
  | some c => (released.closeAttempt c).setPhase i .disconnecting

/-- `shutdownWorkers` settles; that it fails is logged, or remembered for the end. -/
def workersSettle (i : Nat) : Option (State H) :=
  match (s.calls i).phase with
  | .rollingBack c error => some ((s.closeAttempt c).setPhase i (.closing c error))
  | .stopping => some (disconnect s i)
  | _ => none

/-- `connection.close()` settles, one way or the other. -/
def closeSettles (i : Nat) : Option (State H) :=
  match (s.calls i).phase with
  | .closing c error =>
    some ({ s with connection := none, client := none }.setPhase i (.rejected (.ensuring c) error))
  | .disconnecting => some (s.setPhase i .stopped)
  | _ => none

structure Submission where
  workflowType : String
  workflowId : String
  taskQueue : String
  owner : String

/-- `submitEndpoint` up to the start of the workflow. -/
def submitEndpoint (endpointId : Int) (messageId : String) : Checked Submission :=
  if !s.connector.started then fails (notStarted s.connector.name)
  else
    match s.connector.endpoints.get endpointId with
    | none => fails ("Temporal endpoint " ++ toString endpointId ++ " is not registered")
    | some registration => do
      let (endpoint, settings) ← endpointConfig s.config endpointId
      if !settings.enabled then fails ("Temporal endpoint " ++ endpoint.name ++ " is disabled")
      else if messageId = "" then fails "Temporal endpoint message ID is empty"
      else
        match s.client with
        | none => fails (notStarted s.connector.name)
        | some _ =>
          return { workflowType := if settings.temporalExecutionType = "Workflow" then registration.workflowType
                                   else endpointWorkflowType
                   workflowId := temporalEndpointWorkflowId t s.connector.name endpoint.name messageId
                   taskQueue := settings.taskQueue
                   owner := endpointOwner t s.connector.name endpoint.name }

end Operations

inductive Action (H : Type) where
  | registerEndpoint (endpointId : Int) (handler : H)
  | registerEndpointSubmission (endpointId : Int)
  | replaceConfig (config : RuntimeConfig)
  | installElsewhere (address : Option String)
  | start (input : StartInput)
  | stop (aborted : Bool)
  | abort (i : Nat)
  | fileRead (i : Nat) (reads : Bool)
  | settleAttempt (c : Nat) (establishes : Bool)
  | resume (i : Nat)
  | answerCreate (i : Nat) (answer : CreateAnswer)
  | answerDescribe (i : Nat) (answer : Option Description)
  | workersSettle (i : Nat)
  | closeSettles (i : Nat)

/-- A registration that throws leaves the connector as it was. -/
def step {H : Type} (t : CaseTables) (s : State H) : Action H → Option (State H)
  | .registerEndpoint endpointId handler =>
    some { s with connector := (registerEndpoint t s.config s.connector endpointId handler).toOption.getD s.connector }
  | .registerEndpointSubmission endpointId =>
    some { s with connector := (registerEndpointSubmission t s.config s.connector endpointId).toOption.getD s.connector }
  | .replaceConfig config => some { s with config }
  | .installElsewhere address => if s.sdkRuntime.isSome then none else some { s with sdkRuntime := some address }
  | .start input => some (start s input)
  | .stop aborted => some (s.addCall aborted .stopping)
  | .abort i => abort s i
  | .fileRead i reads => fileRead s i reads
  | .settleAttempt c establishes => settleAttempt s c establishes
  | .resume i => resume t s i
  | .answerCreate i answer => answerCreate t s i answer
  | .answerDescribe i answer => answerDescribe t s i answer
  | .workersSettle i => workersSettle s i
  | .closeSettles i => closeSettles s i

def Phase.settled : Phase → Bool
  | .returned => true
  | .fulfilled _ => true
  | .rejected _ _ => true
  | .stopped => true
  | _ => false

def State.Idle {H : Type} (s : State H) : Prop := ∀ i, (s.calls i).phase.settled = true

/-- The service runtime waits for one `start` or `stop` before it calls another. -/
def OneAtATime {H : Type} (s : State H) : Action H → Prop
  | .start _ => s.Idle
  | .stop _ => s.Idle
  | _ => True

def Reachable {H : Type} (t : CaseTables) (s : State H) : Prop :=
  ∃ (r : RuntimeConfig) (connectorId : Int) (made : TemporalConnector H) (sdkRuntime : Option (Option String)),
    makeConnector r connectorId = .ok made ∧
      Steps (step t) OneAtATime { config := r, connector := made, sdkRuntime } s

end TemporalConnectors.Lifecycle
