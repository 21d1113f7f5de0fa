import TsServiceLib.Library.Effects
import TsServiceLib.Config.RuntimeConfig

/-!
The graph of streams that an environment holds. Streams register themselves and
bind themselves to the outputs of others while they are constructed, in the
order of each constructor, and a constructor that throws leaves what it has done
so far. An output takes one consumer, for which a caller is made whose calls are
counted. The environment of a service and the one of a workflow count them each
in its own way; both counts are kept here side by side.
-/
namespace StreamGraphs
open ConfigValues ConfigParsers RuntimeConfigs OrderedMaps

/-- Something that one consumer can be bound to: a stream, or one link of a
    split stream. `config` is the id under which the owner has its configuration,
    `body` marks the output of a `SubStream`, `caller` is the recorder of the
    caller's calls. Consumers are told by the id of their stream. -/
structure Output where
  owner : Int
  config : Int
  name : String
  body : Bool := false
  consumer : Option Int := none
  caller : Option Nat := none

/-- What `consumers()` goes through; a plain `SinkStream` does not have it. -/
inductive Listing where
  | untyped
  | own
  | links (outputs : List Nat)
  | whens (streams : List Nat)

/-- `ownerCalls` is the recorder that an `ErrorStream` has of its own. -/
structure StreamObject where
  id : Int
  name : String
  type : TransformationType
  output : Nat
  listing : Listing
  source : Option Nat := none
  ownerCalls : Option Nat := none

/-- The calls that one recorder has counted. -/
structure Recorder where
  source : Int
  target : Int
  count : Nat := 0

/-- Streams, outputs and recorders are numbered in the order they are made.
    `linkCallCounts` has the recorder whose count the service environment tells,
    `workflowCallCounts` the counts of the workflow environment. -/
structure Graph where
  outputs : List Output := []
  objects : List StreamObject := []
  streams : OrderedMap Int Nat := OrderedMap.empty
  recorders : List Recorder := []
  linkCallCounts : OrderedMap String Nat := OrderedMap.empty
  workflowCallCounts : OrderedMap String Nat := OrderedMap.empty

abbrev Building := EStateM ConfigError Graph

def raise {A : Type} (message : String) : Building A := throw (.error message)

/-- The result of a check that leaves the graph alone. -/
def checked {A : Type} (check : Checked A) : Building A :=
  match check with
  | .ok a => pure a
  | .error e => throw e

section Environment
variable {C : Type} (r : RuntimeConfig) (serviceId : Int) (create : Int → Int → Checked C)

def registerStream (o : Nat) : Building Unit := do
  let g ← get
  match g.objects[o]? with
  | none => pure ()
  | some object =>
    if g.streams.has object.id then raise ("duplicate runtime stream id " ++ toString object.id)
    else set { g with streams := g.streams.set object.id o }

def makeLinkRecorder (source target : Int) : Building Nat :=
  modifyGet fun g => (g.recorders.length,
    { g with
      recorders := g.recorders ++ [{ source, target }]
      linkCallCounts := g.linkCallCounts.set (linkKey source target) g.recorders.length })

/-- The caller factory may throw. -/
def makeCaller (source target : Int) : Building Nat := do
  let _ ← checked (create source target)
  makeLinkRecorder source target

/-- The service that the configuration of a stream has. -/
def idServiceOf (id : Int) : Checked Int :=
  match r.streams.byId.get id with
  | some config => .ok config.idService
  | none => fails ("stream config " ++ toString id ++ " not found")

def updateOutput (k : Nat) (change : Output → Output) : Building Unit :=
  modifyGet fun g => ((), { g with outputs := g.outputs.modify k change })

/-- The override of `SubStream` looks at the services first. -/
def checkBody (output : Output) (consumer : Int) : Building Unit :=
  if output.body then do
    let consumers ← checked (idServiceOf r consumer)
    let own ← checked (idServiceOf r output.config)
    if consumers ≠ own then raise "SubStream body must belong to the same service" else pure ()
  else pure ()

/-- The consumer stays bound if its caller cannot be made. -/
def setConsumer (k : Nat) (consumer : Int) : Building Unit := do
  let g ← get
  match g.outputs[k]? with
  | none => pure ()
  | some output =>
    checkBody r output consumer
    if output.consumer.isSome then raise ("consumer already assigned to stream " ++ output.name)
    else do
      updateOutput k fun o => { o with consumer := some consumer }
      let caller ← makeCaller create output.owner consumer
      updateOutput k fun o => { o with caller := some caller }

def newOutput (output : Output) : Building Nat :=
  modifyGet fun g => (g.outputs.length, { g with outputs := g.outputs ++ [output] })

def newObject (object : StreamObject) : Building Nat :=
  modifyGet fun g => (g.objects.length, { g with objects := g.objects ++ [object] })

def updateObject (o : Nat) (change : StreamObject → StreamObject) : Building Unit :=
  modifyGet fun g => ((), { g with objects := g.objects.modify o change })

/-- What the base classes construct. -/
def newStream (id config : Int) (name : String) (type : TransformationType) (listing : Listing) : Building Nat := do
  let output ← newOutput { owner := id, config, name, body := type = .SubStream }
  newObject { id, name, type, output, listing }

/-- An error stream has the negated id of its owner, and the owner's configuration. -/
def errorStream (config : StreamConfig) : Building Unit := do
  let o ← newStream (-config.id) config.id config.name .Error .own
  registerStream o
  let recorder ← makeLinkRecorder config.id (-config.id)
  updateObject o fun object => { object with ownerCalls := some recorder }

/-- The constructors of the streams with one source, which differ only in what
    they do to values. -/
def consumingStream (config : StreamConfig) (source : Nat) : Building Unit := do
  let o ← newStream config.id config.id config.name config.type .own
  setConsumer r create source config.id
  registerStream o

def processStream (config : StreamConfig) (source : Nat) : Building Unit := do
  let o ← newStream config.id config.id config.name config.type .own
  errorStream config
  setConsumer r create source config.id
  registerStream o

/-- `SinkStream`, and `SinkStreamWithResult`, which has consumers. -/
def sinkStream (config : StreamConfig) (withResult : Bool) (source : Nat) : Building Unit := do
  let o ← newStream config.id config.id config.name config.type (if withResult then .own else .untyped)
  errorStream config
  setConsumer r create source config.id
  registerStream o

def inputStream (config : StreamConfig) : Building Unit := do
  let o ← newStream config.id config.id config.name config.type .own
  errorStream config
  registerStream o

def linkStream (config : StreamConfig) : Building Unit := do
  let o ← newStream config.id config.id config.name config.type .own
  registerStream o

def subStream (config : StreamConfig) : Building Unit := do
  let o ← newStream config.id config.id config.name config.type .own
  if config.idService ≠ serviceId then raise "SubStream must belong to its execution service"
  else registerStream o

def mergeStream (config : StreamConfig) (sources : List Nat) : Building Unit := do
  let o ← newStream config.id config.id config.name config.type .own
  registerStream o
  sources.forM fun source => setConsumer r create source config.id

def splitStream (config : StreamConfig) (source : Nat) : Building Unit := do
  let o ← newStream config.id config.id config.name config.type (.links [])
  setConsumer r create source config.id
  registerStream o

def caseStream (config : StreamConfig) (source : Nat) : Building Unit := do
  let o ← newStream config.id config.id config.name config.type (.whens [])
  registerStream o
  setConsumer r create source config.id

def joinStream (config : StreamConfig) (left right : Nat) : Building Unit := do
  let o ← newStream config.id config.id config.name config.type .own
  setConsumer r create left config.id
  registerStream o
  setConsumer r create right config.id

/-- The constructor for a configured stream with the outputs that it is given;
    there is none for other numbers of sources. -/
def construct (config : StreamConfig) (withResult : Bool) : List Nat → Option (Building Unit)
  | [] =>
    match config.type with
    | .Input => some (inputStream config)
    | .CycleLink => some (linkStream config)
    | .SubStream => some (subStream serviceId config)
    | _ => none
  | [source] =>
    match config.type with
    | .Map | .Filter | .FlatMap | .FlatMapIterable | .KeyBy | .Delay | .MultiJoin =>
      some (consumingStream r create config source)
    | .Process => some (processStream r create config source)
    | .Sink => some (sinkStream r create config withResult source)
    | .Merge => some (mergeStream r create config [source])
    | .Split => some (splitStream r create config source)
    | .Case => some (caseStream r create config source)
    | _ => none
  | sources@(left :: right :: rest) =>
    match config.type, rest with
    | .Merge, _ => some (mergeStream r create config sources)
    | .Join, [] => some (joinStream r create config left right)
    | _, _ => none

def pushLink (k : Nat) (object : StreamObject) : StreamObject :=
  match object.listing with
  | .links outputs => { object with listing := .links (outputs ++ [k]) }
  | _ => object

def pushWhen (w : Nat) (object : StreamObject) : StreamObject :=
  match object.listing with
  | .whens streams => { object with listing := .whens (streams ++ [w]) }
  | _ => object

/-- `SplitStream.addStream` -/
def addSplitLink (o : Nat) : Building Unit := do
  let g ← get
  match g.objects[o]? with
  | none => pure ()
  | some object =>
    match object.listing with
    | .links outputs => do
      let name := object.name ++ "SplitLink" ++ toString outputs.length
      let k ← newOutput { owner := object.id, config := object.id, name }
      updateObject o (pushLink k)
    | _ => pure ()

/-- `CaseStream.addStream` -/
def addWhen (o : Nat) (config : StreamConfig) : Building Unit := do
  let g ← get
  match g.objects[o]? with
  | none => pure ()
  | some object =>
    match object.listing with
    | .whens streams => do
      let name :=
        if config.name.length > 0 then config.name else object.name ++ "CaseLink" ++ toString streams.length
      let w ← newStream config.id config.id name .When .own
      registerStream w
      updateObject o (pushWhen w)
    | _ => pure ()

/-- `setSource` of a link, of an input and of a substream. -/
def setSource (o k : Nat) : Building Unit := do
  let g ← get
  match g.objects[o]?, g.outputs[k]? with
  | some object, some source =>
    match object.type with
    | .CycleLink =>
      if object.source.isSome then raise ("cycle link stream " ++ object.name ++ " source is already set")
      else do
        setConsumer r create k object.id
        updateObject o fun object => { object with source := some k }
    | .Input =>
      if object.source.isSome then raise ("input stream " ++ object.name ++ " result source is already set")
      else do
        setConsumer r create k object.id
        updateObject o fun object => { object with source := some k }
    | .SubStream => do
      if source.owner = object.id then raise "SubStream source must be a different stream in the same service"
      else do
        let sources ← checked (idServiceOf r source.config)
        let own ← checked (idServiceOf r object.id)
        if sources ≠ own then raise "SubStream source must be a different stream in the same service"
        else if object.source = some k then pure ()
        else if object.source.isSome then raise "SubStream source is already configured"
        else do
          setConsumer r create k object.id
          updateObject o fun object => { object with source := some k }
    | _ => pure ()
  | _, _ => pure ()

/-- `makeMultiJoinLink` -/
def bindMultiJoinRight (o k : Nat) : Building Unit := do
  let g ← get
  match g.objects[o]? with
  | some object => if object.type = .MultiJoin then setConsumer r create k object.id else pure ()
  | none => pure ()

end Environment

/-- One call that a recorder counts, in either environment. -/
def recordCall (g : Graph) (recorder : Nat) : Graph :=
  match g.recorders[recorder]? with
  | none => g
  | some at_ =>
    let key := linkKey at_.source at_.target
    { g with
      recorders := g.recorders.modify recorder fun found => { found with count := found.count + 1 }
      workflowCallCounts := g.workflowCallCounts.set key ((g.workflowCallCounts.get key).getD 0 + 1) }

/-- What generated code and the streams themselves do to the graph. -/
inductive Action where
  | construct (config : StreamConfig) (withResult : Bool) (sources : List Nat)
  | addSplitLink (o : Nat)
  | addWhen (o : Nat) (config : StreamConfig)
  | setSource (o k : Nat)
  | bindMultiJoinRight (o k : Nat)
  | call (k : Nat)
  | errorCall (o : Nat)

section Steps
variable {C : Type} (r : RuntimeConfig) (serviceId : Int) (create : Int → Int → Checked C)

def step (g : Graph) : Action → Option Graph
  | .construct config withResult sources =>
    (construct r serviceId create config withResult sources).map fun m => Effects.final (m g)
  | .addSplitLink o => some (Effects.final (addSplitLink o g))
  | .addWhen o config => some (Effects.final (addWhen o config g))
  | .setSource o k => some (Effects.final (setSource r create o k g))
  | .bindMultiJoinRight o k => some (Effects.final (bindMultiJoinRight r create o k g))
  | .call k => ((g.outputs[k]?).bind Output.caller).map (recordCall g)
  | .errorCall o => ((g.objects[o]?).bind StreamObject.ownerCalls).map (recordCall g)

end Steps

section Reading
variable (r : RuntimeConfig) (serviceId : Int) (g : Graph)

def linkConsumer (name : String) (index : Nat) (k : Nat) : Checked Int :=
  match (g.outputs[k]?).bind Output.consumer with
  | some consumer => .ok consumer
  | none => fails ("link with index " ++ toString index ++ " for SplitStream " ++ name ++ " does not have consumer")

def consumers (object : StreamObject) : Checked (List Int) :=
  match object.listing with
  | .untyped => .ok []
  | .own => .ok ((g.outputs[object.output]?).bind Output.consumer).toList
  | .links outputs => outputs.zipIdx.mapM fun (k, index) => linkConsumer g object.name index k
  | .whens streams => .ok (streams.filterMap fun w => (g.objects[w]?).map StreamObject.id)

/-- The order by source, then by target. -/
def linkLe (a b : Int × Int) : Bool := a.1 < b.1 || (a.1 == b.1 && a.2 ≤ b.2)

def graphLinks : Checked (List (Int × Int)) := do
  let lists ← (g.streams.entries.filterMap fun entry => g.objects[entry.2]?).mapM fun object => do
    let targets ← consumers g object
    pure (targets.map fun target => (object.id, target))
  pure (lists.flatten.mergeSort linkLe)

/-- The streams that the service does not have to hold are passed by. -/
def validateStream (links : List String) (config : StreamConfig) : Checked Unit :=
  if config.type = .Error ∨ (config.idService ≠ 0 ∧ config.idService ≠ serviceId) then .ok ()
  else do
    refuseIf (!g.streams.has config.id)
      ("runtime stream " ++ config.name ++ " (" ++ toString config.id ++ ") is not registered")
    (config.idSource :: config.idSources).forM fun source =>
      refuseIf (source != 0 && !links.contains (linkKey source config.id))
        ("runtime graph link from=" ++ toString source ++ " to=" ++ toString config.id ++ " is missing")

def validateRuntimeTopology : Checked Unit := do
  let links ← graphLinks g
  r.config.streams.forM (validateStream serviceId g (links.map fun link => linkKey link.1 link.2))

/-- `linkCallCount` of the environment of a service. -/
def linkCallCount (source target : Int) : Nat :=
  (((g.linkCallCounts.get (linkKey source target)).bind (g.recorders[·]?)).map Recorder.count).getD 0

/-- `linkCallCount` of the environment of a workflow. -/
def workflowLinkCallCount (source target : Int) : Nat := (g.workflowCallCounts.get (linkKey source target)).getD 0

end Reading

end StreamGraphs
