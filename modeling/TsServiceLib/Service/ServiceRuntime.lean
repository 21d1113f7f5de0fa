import TsServiceLib.Library.Transitions
import TsServiceLib.Service.ComponentStops

/-!
The service runtime: one start, which rolls back when it fails, and any number
of stops. Every asynchronous function is a small machine that rests at its
`await`s; what it does between two of them is one step. A wait that is bounded
by a context ends when everything waited for has settled or, with what has
settled so far, when the context is cancelled. User code may call in at any
rest, and also from the synchronous part of a task that is being admitted.
-/
namespace Services
open Transitions

inductive RuntimeState where
  | created | starting | running | stopping | stopped
  deriving DecidableEq

def startOrder : List Category :=
  [.telemetry, .managedDataConnector, .storage, .delayPool, .taskPool, .priorityTaskPool, .component,
    .dataSink, .dataSource, .httpServer]

def admissionCategory : Category → Bool
  | .dataSource | .component | .httpServer => true
  | _ => false

def resourceCategory : Category → Bool
  | .storage | .delayPool | .taskPool | .priorityTaskPool => true
  | _ => false

/-- The groups a graceful stop goes through; `managed` stops the admission of
    the connectors, `connectors` the connectors themselves. -/
inductive StopPhase where
  | admission | producers | managed | resources | sinks | connectors
  deriving DecidableEq

/-- The components a group takes from the started ones. -/
def StopPhase.takes : StopPhase → RuntimeComponent → Bool
  | admission, c => admissionCategory c.category
  | producers, c => admissionCategory c.category && c.stopAdmission
  | managed, c => decide (c.category = .managedDataConnector)
  | resources, c => resourceCategory c.category
  | sinks, c => decide (c.category = .dataSink)
  | connectors, c => decide (c.category = .managedDataConnector)

def StopPhase.admissionOnly : StopPhase → Bool
  | admission | managed => true
  | _ => false

/-- One await of the start: `startAdmission` of a connector, or `start` of a component. -/
inductive StartItem where
  | admission (c : Nat)
  | component (c : Nat)

/-- `stopSequential`: the stop waited for, and the components still to come. -/
structure Sequence where
  current : Option (Nat × Ref)
  rest : List Nat

inductive Startup where
  | idle
  | building (categories : List Category)
  | awaiting (item : StartItem) (items : List StartItem) (categories : List Category)
  | rolling (sequence : Sequence)
  | fulfilled
  | rejected

/-- A drain of the task registry: it waits for the tasks of a snapshot. -/
inductive Drain where
  | waiting (snapshot : List Nat)
  | empty
  | timedOut

inductive AttemptState where
  | awaitingStartup
  | rolling (sequence : Sequence)
  | group (phase : StopPhase) (members : List (Nat × Ref))
  | draining (graceful : Bool) (drain : Drain)
  | telemetry (sequence : Sequence)
  | fulfilled
  | rejected

/-- A run of `stopOnce`. -/
structure Attempt where
  context : Nat
  state : AttemptState

inductive CallStatus where
  | waiting | fulfilled | rejected
  deriving DecidableEq

/-- A call of `stop` and the attempt it waits for. -/
structure Call where
  context : Nat
  attempt : Nat
  ownsAttempt : Bool
  status : CallStatus

/-- The task registry. A task runs its synchronous part, `entering`, before it
    is entered in the map of active ones; `settled` is history. -/
structure Registry where
  accepting : Bool := true
  active : List Nat := []
  entering : List Nat := []
  settled : List Nat := []
  nextId : Nat := 1

/-- `startFailed`, `drained` and `sinksBegun` are history. -/
structure Runtime where
  ledger : Ledger := {}
  contexts : Contexts := {}
  tasks : Registry := {}
  state : RuntimeState := .created
  rollbackPending : Bool := false
  startupPending : Bool := false
  startup : Startup := .idle
  attempt : Nat → Attempt := fun _ => ⟨0, .awaitingStartup⟩
  attempts : Nat := 0
  stopPromise : Option Nat := none
  call : Nat → Call := fun _ => ⟨0, 0, false, .waiting⟩
  calls : Nat := 0
  startFailed : Bool := false
  drained : Bool := false
  sinksBegun : Bool := false

namespace Runtime

def componentsOf (r : Runtime) (takes : RuntimeComponent → Bool) : List Nat :=
  (List.range r.ledger.components.length).filter fun c => (r.ledger.components[c]?).any takes

def startedOf (r : Runtime) (takes : RuntimeComponent → Bool) : List Nat :=
  r.ledger.started.filter fun c => (r.ledger.components[c]?).any takes

/-- Stop admission of tasks; `cancel` aborts the running ones as well. -/
def sealed (r : Runtime) : Runtime := { r with tasks := { r.tasks with accepting := false } }

section Sequences

/-- Ask for the stop of the next component of a sequence. -/
def beginSequence (l : Ledger) (context : ContextRef) : List Nat → Sequence × Ledger
  | [] => (⟨none, []⟩, l)
  | c :: rest =>
    let stop := l.stopComponent c context false
    (⟨some (c, stop.1), rest⟩, stop.2)

inductive SequenceResult where
  | blocked
  | failed
  | done
  | next (sequence : Sequence) (ledger : Ledger)

/-- A sequence after a wait; `seen` says that the wait has recorded the outcome. -/
def resumeSequence (l : Ledger) (x : Contexts) (context : ContextRef) (s : Sequence) (seen : Bool) :
    SequenceResult :=
  match s.current with
  | none => .done
  | some (_, ref) =>
    if seen then
      match l.outcome ref with
      | none => .blocked
      | some (some _) => .failed
      | some none =>
        match s.rest with
        | [] => .done
        | c :: rest =>
          let begun := beginSequence l context (c :: rest)
          .next begun.1 begun.2
    else if x.cancelled context then .failed
    else .blocked

end Sequences

section Start

def itemsOf (r : Runtime) (category : Category) : List StartItem :=
  (if category = .dataSource then
    (r.startedOf fun c => decide (c.category = .managedDataConnector)).map .admission
  else []) ++ (r.componentsOf fun c => decide (c.category = category)).map .component

/-- The start has thrown: tasks are cancelled and what has started is stopped
    in reverse, under the context of the start. -/
def failStart (r : Runtime) : Runtime :=
  let begun := beginSequence r.ledger .startup r.ledger.started.reverse
  { r.sealed with
    rollbackPending := true
    startFailed := true
    ledger := begun.2
    startup := .rolling begun.1 }

/-- Go on with the start up to its next await. -/
def proceed (r : Runtime) : List Category → List StartItem → Runtime
  | categories, .component c :: items =>
    if r.contexts.signalAborted .startup then r.failStart
    else { r with startup := .awaiting (.component c) items categories }
  | categories, .admission c :: items => { r with startup := .awaiting (.admission c) items categories }
  | [], [] => { r with state := .running, startupPending := false, startup := .fulfilled }
  | category :: categories, [] => proceed r categories (r.itemsOf category)

def start (r : Runtime) (context : Nat) (admission : Bool) : Runtime :=
  if r.state = .created then
    { r with
      state := .starting
      startupPending := true
      contexts := { r.contexts with startContext := context }
      startup := .building (startOrder.filter fun category =>
        admission || !(decide (category = .dataSource) || decide (category = .httpServer))) }
  else r

/-- The streams are built, and the topology is valid or not. -/
def built (r : Runtime) (succeeds : Bool) (valid : Bool) : Option Runtime :=
  match r.startup with
  | .building categories =>
    if succeeds = false ∨ r.contexts.signalAborted .startup = true ∨ valid = false then some r.failStart
    else some (r.proceed categories [])
  | _ => none

/-- What is awaited in the start has settled. -/
def itemSettles (r : Runtime) (succeeds : Bool) : Option Runtime :=
  match r.startup with
  | .awaiting item items categories =>
    if succeeds = false then some r.failStart
    else
      let reached := match item with
        | .component c => { r with ledger := r.ledger.complete c }
        | .admission _ => r
      if reached.contexts.signalAborted .startup then some reached.failStart
      else some (reached.proceed categories items)
  | _ => none

/-- The end of a failed start. -/
def finishStart (r : Runtime) (rolledBack : Bool) : Runtime :=
  { r with
    rollbackPending := r.rollbackPending && !rolledBack
    state := if r.ledger.started = [] ∧ r.tasks.active = [] then .stopped else .stopping
    startupPending := false
    startup := .rejected }

def resumeStart (r : Runtime) (seen : Bool) : Option Runtime :=
  match r.startup with
  | .rolling sequence =>
    match resumeSequence r.ledger r.contexts .startup sequence seen with
    | .blocked => none
    | .failed => some (r.finishStart false)
    | .done => some (r.finishStart true)
    | .next sequence ledger => some { r with ledger := ledger, startup := .rolling sequence }
  | _ => none

end Start

section Stop

def setAttempt (r : Runtime) (k : Nat) (state : AttemptState) : Runtime :=
  { r with attempt := Function.update r.attempt k { r.attempt k with state := state } }

def contextOf (r : Runtime) (k : Nat) : ContextRef := .caller (r.attempt k).context

/-- Ask for the stop of every component of a group. -/
def stopAll (context : ContextRef) (admission : Bool) : List Nat → Ledger → List (Nat × Ref) × Ledger
  | [], l => ([], l)
  | c :: rest, l =>
    let stop := l.stopComponent c context admission
    let others := stopAll context admission rest stop.2
    ((c, stop.1) :: others.1, others.2)

def enterGroup (r : Runtime) (k : Nat) (phase : StopPhase) : Runtime :=
  let asked := stopAll (r.contextOf k) phase.admissionOnly (r.startedOf phase.takes).reverse r.ledger
  { r.setAttempt k (.group phase asked.1) with
    ledger := asked.2
    sinksBegun := r.sinksBegun || decide (phase = .sinks) }

/-- The tasks have drained: admission is sealed and the stop goes on. -/
def afterDrain (r : Runtime) (k : Nat) (graceful : Bool) : Runtime :=
  if graceful then { r.sealed with drained := true }.enterGroup k .sinks
  else { r.sealed.setAttempt k .fulfilled with state := .stopped }

def drainTasks (r : Runtime) (k : Nat) (graceful : Bool) : Runtime :=
  if r.tasks.active = [] then r.afterDrain k graceful
  else r.setAttempt k (.draining graceful (.waiting r.tasks.active))

def enterTelemetry (r : Runtime) (k : Nat) : Runtime :=
  let begun := beginSequence r.ledger (r.contextOf k)
    (r.startedOf fun c => decide (c.category = .telemetry)).reverse
  { r.setAttempt k (.telemetry begun.1) with ledger := begun.2 }

/-- What follows a group in which every stop was fulfilled. -/
def afterGroup (r : Runtime) (k : Nat) : StopPhase → Runtime
  | .admission => r.enterGroup k .producers
  | .producers => r.enterGroup k .managed
  | .managed => r.enterGroup k .resources
  | .resources => r.drainTasks k true
  | .sinks => r.enterGroup k .connectors
  | .connectors => r.enterTelemetry k

/-- `stopOnce` once no startup is pending. -/
def afterStartup (r : Runtime) (k : Nat) : Runtime :=
  if r.rollbackPending then
    let begun := beginSequence r.ledger (r.contextOf k) r.ledger.started.reverse
    { r.setAttempt k (.rolling begun.1) with ledger := begun.2 }
  else r.enterGroup k .admission

/-- `stopOnce` up to its first await, as the attempt `k`. -/
def stopOnce (r : Runtime) (k : Nat) : Runtime :=
  if r.startupPending then
    { r.setAttempt k .awaitingStartup with
      state := .stopping
      contexts := { r.contexts with startupAborted := true } }
  else afterStartup { r with state := .stopping } k

def openAttempt (r : Runtime) (context : Nat) : Runtime :=
  stopOnce { r with
    attempt := Function.update r.attempt r.attempts ⟨context, .awaitingStartup⟩
    attempts := r.attempts + 1 } r.attempts

def setCall (r : Runtime) (n : Nat) (call : Call) : Runtime :=
  { r with call := Function.update r.call n call }

/-- The head of the loop in `stop`, for the call `n`. -/
def joinAttempt (r : Runtime) (n context : Nat) : Runtime :=
  match r.stopPromise with
  | none =>
    { (r.openAttempt context).setCall n ⟨context, r.attempts, true, .waiting⟩ with
      stopPromise := some r.attempts }
  | some k => r.setCall n ⟨context, k, false, .waiting⟩

def stop (r : Runtime) (context : Nat) : Runtime :=
  let opened := { r with calls := r.calls + 1 }
  if r.startupPending = false ∧ r.ledger.started = [] ∧ r.tasks.active = [] then
    { opened.sealed.setCall r.calls ⟨context, 0, false, .fulfilled⟩ with state := .stopped }
  else opened.joinAttempt r.calls context

/-- A listener of the startup signal calls `stop` while the attempt that aborts
    it has not been published: the call owns an attempt of its own, or joins
    one such, and the outer call then overwrites the published one. -/
def stopFromListener (r : Runtime) (context : Nat) (joined : Option Nat) : Option Runtime :=
  match r.stopPromise, r.startupPending, joined with
  | some _, true, none =>
    some ((({ r with calls := r.calls + 1 } : Runtime).openAttempt context).setCall r.calls
      ⟨context, r.attempts, true, .waiting⟩)
  | some _, true, some k =>
    if k < r.attempts then
      some (({ r with calls := r.calls + 1 } : Runtime).setCall r.calls ⟨context, k, false, .waiting⟩)
    else none
  | _, _, _ => none

/-- The outcomes a wait for a group has recorded. -/
def recorded (l : Ledger) (members : List (Nat × Ref)) (seen : List Bool) : Bool :=
  (members.zip seen).all fun entry => !entry.2 || (l.outcome entry.1.2).isSome

def allFulfilled (l : Ledger) (members : List (Nat × Ref)) : Bool :=
  members.all fun member => decide (l.outcome member.2 = some none)

/-- A group after its wait. Without a cancelled context every outcome has been
    recorded; a missing or rejected one fails the attempt. -/
def resumeGroup (r : Runtime) (k : Nat) (phase : StopPhase) (members : List (Nat × Ref))
    (seen : List Bool) : Option Runtime :=
  if seen.length = members.length ∧ recorded r.ledger members seen = true ∧
      (seen.all id = true ∨ r.contexts.cancelled (r.contextOf k) = true) then
    if seen.all id = true ∧ allFulfilled r.ledger members = true then some (r.afterGroup k phase)
    else some (r.setAttempt k .rejected)
  else none

/-- A startup, sequence or drain after its wait. -/
def resumeAttempt (r : Runtime) (k : Nat) (seen : List Bool) : Option Runtime :=
  if k < r.attempts then
    match (r.attempt k).state with
    | .awaitingStartup =>
      if seen.all id then
        match r.startup with
        | .fulfilled | .rejected => some (r.afterStartup k)
        | _ => none
      else if r.contexts.cancelled (r.contextOf k) then some (r.sealed.setAttempt k .rejected)
      else none
    | .rolling sequence =>
      match resumeSequence r.ledger r.contexts (r.contextOf k) sequence (seen.all id) with
      | .blocked => none
      | .failed => some (r.setAttempt k .rejected)
      | .done => some ({ r with rollbackPending := false }.drainTasks k false)
      | .next sequence ledger => some { r.setAttempt k (.rolling sequence) with ledger := ledger }
    | .group phase members => r.resumeGroup k phase members seen
    | .draining graceful drain =>
      if seen.all id then
        match drain with
        | .waiting _ => none
        | .empty => some (r.afterDrain k graceful)
        | .timedOut => some (r.sealed.setAttempt k .rejected)
      else if r.contexts.cancelled (r.contextOf k) then some (r.sealed.setAttempt k .rejected)
      else none
    | .telemetry sequence =>
      match resumeSequence r.ledger r.contexts (r.contextOf k) sequence (seen.all id) with
      | .blocked => none
      | .failed => some (r.setAttempt k .rejected)
      | .done => some { r.setAttempt k .fulfilled with state := .stopped }
      | .next sequence ledger => some { r.setAttempt k (.telemetry sequence) with ledger := ledger }
    | .fulfilled | .rejected => none
  else none

/-- The loop of a drain looks again when its snapshot has settled. -/
def poll (r : Runtime) (k : Nat) : Option Runtime :=
  if k < r.attempts then
    match (r.attempt k).state with
    | .draining graceful (.waiting snapshot) =>
      if snapshot.all fun task => decide (task ∉ r.tasks.active) then
        some (r.setAttempt k (.draining graceful
          (if r.tasks.active = [] then .empty else .waiting r.tasks.active)))
      else none
    | _ => none
  else none

/-- The timer a drain has set for the time its context had left. -/
def drainTimeout (r : Runtime) (k : Nat) : Option Runtime :=
  if k < r.attempts then
    match (r.attempt k).state with
    | .draining graceful (.waiting _) => some (r.setAttempt k (.draining graceful .timedOut))
    | _ => none
  else none

def attemptSettled (r : Runtime) (k : Nat) : Option Bool :=
  match (r.attempt k).state with
  | .fulfilled => some true
  | .rejected => some false
  | _ => none

/-- The published attempt has settled and is withdrawn. -/
def release (r : Runtime) : Option Runtime :=
  match r.stopPromise with
  | some k => if (r.attemptSettled k).isSome then some { r with stopPromise := none } else none
  | none => none

/-- A call of `stop` after its wait for the attempt. The attempt is withdrawn
    before any of its callers goes on. -/
def resumeCall (r : Runtime) (n : Nat) (seen : Bool) : Option Runtime :=
  let call := r.call n
  if n < r.calls ∧ call.status = .waiting then
    if seen then
      if r.stopPromise = some call.attempt then none
      else
        match r.attemptSettled call.attempt with
        | none => none
        | some true => some (r.setCall n { call with status := .fulfilled })
        | some false =>
          if r.contexts.cancelled (.caller call.context) ∨ call.ownsAttempt then
            some (r.sealed.setCall n { call with status := .rejected })
          else some (r.joinAttempt n call.context)
    else if r.contexts.cancelled (.caller call.context) then
      some (r.sealed.setCall n { call with status := .rejected })
    else none
  else none

end Stop

/-- `register` refuses a second component of one category and name. -/
def register (r : Runtime) (component : RuntimeComponent) : Runtime :=
  if r.state ≠ .created ∨ (r.ledger.components.any fun other =>
      decide (other.category = component.category) && decide (other.name = component.name)) then r
  else { r with ledger := { r.ledger with components := r.ledger.components ++ [component] } }

/-- `admitTask` calls the task and `enter` puts it into the map; `taskSettles` takes it out. -/
inductive Action where
  | register (component : RuntimeComponent)
  | start (context : Nat) (admission : Bool)
  | built (succeeds valid : Bool)
  | itemSettles (succeeds : Bool)
  | resumeStart (seen : Bool)
  | stop (context : Nat)
  | stopFromListener (context : Nat) (joined : Option Nat)
  | resumeAttempt (k : Nat) (seen : List Bool)
  | poll (k : Nat)
  | drainTimeout (k : Nat)
  | release
  | resumeCall (n : Nat) (seen : Bool)
  | invoke (i : Nat)
  | answer (i : Nat) (failure : Option Failure)
  | settle (i : Nat)
  | rejoin (j : Nat)
  | follow (j : Nat)
  | admitTask
  | enter
  | taskSettles (task : Nat)
  | abort (context : Nat)
  | expire (context : Nat)

/-- What user code can do from the synchronous part of a task. -/
def Action.synchronous : Action → Bool
  | register _ | start _ _ | stop _ | admitTask | enter | abort _ | expire _ => true
  | _ => false

def withLedger (r : Runtime) (l : Option Ledger) : Option Runtime :=
  l.map fun ledger => { r with ledger := ledger }

def admitTask (r : Runtime) : Runtime :=
  if r.tasks.accepting then
    { r with tasks := { r.tasks with
        entering := r.tasks.nextId :: r.tasks.entering
        nextId := r.tasks.nextId + 1 } }
  else r

def enter (r : Runtime) : Option Runtime :=
  match r.tasks.entering with
  | [] => none
  | task :: others =>
    some { r with tasks := { r.tasks with entering := others, active := r.tasks.active ++ [task] } }

def taskSettles (r : Runtime) (task : Nat) : Option Runtime :=
  if task ∈ r.tasks.active then
    some { r with tasks := { r.tasks with
        active := r.tasks.active.erase task
        settled := task :: r.tasks.settled } }
  else none

def perform (r : Runtime) : Action → Option Runtime
  | .register component => some (r.register component)
  | .start context admission => some (r.start context admission)
  | .built succeeds valid => r.built succeeds valid
  | .itemSettles succeeds => r.itemSettles succeeds
  | .resumeStart seen => r.resumeStart seen
  | .stop context => some (r.stop context)
  | .stopFromListener context joined => r.stopFromListener context joined
  | .resumeAttempt k seen => r.resumeAttempt k seen
  | .poll k => r.poll k
  | .drainTimeout k => r.drainTimeout k
  | .release => r.release
  | .resumeCall n seen => r.resumeCall n seen
  | .invoke i => r.withLedger (r.ledger.invoke i)
  | .answer i failure => r.withLedger (r.ledger.answer i failure)
  | .settle i => r.withLedger (r.ledger.settle i)
  | .rejoin j => r.withLedger (r.ledger.rejoin r.contexts j)
  | .follow j => r.withLedger (r.ledger.follow j)
  | .admitTask => some r.admitTask
  | .enter => r.enter
  | .taskSettles task => r.taskSettles task
  | .abort context =>
    some { r with contexts := { r.contexts with aborted := context :: r.contexts.aborted } }
  | .expire context =>
    some { r with contexts := { r.contexts with expired := context :: r.contexts.expired } }

/-- Nothing asynchronous happens while a task is being admitted. -/
def step (r : Runtime) (a : Action) : Option Runtime :=
  if r.tasks.entering = [] ∨ a.synchronous = true then r.perform a else none

def Reached (ok : Runtime → Action → Prop) (r : Runtime) : Prop := Steps step ok {} r

end Runtime

end Services
