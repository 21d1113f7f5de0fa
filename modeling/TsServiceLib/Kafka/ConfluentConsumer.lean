import TsServiceLib.Library.Transitions
import TsServiceLib.Library.Number
import TsServiceLib.Library.OrderedMap

/-!
The Kafka consumer over the native client. A step is one synchronous stretch
of its code: a native callback, the continuation of an `await`, or a call made
by a handler. The handlers are called in the middle of such a stretch, so the
fan-out of a fetched batch is cut at each of them, and only what a handler can
do synchronously may come in between. What the native client answers, and
which of its calls throw, is part of the action.
-/
namespace Kafka
open Transitions Numbers OrderedMaps

structure TopicPartition where
  topic : String
  partition : Nat
  deriving DecidableEq

structure Message where
  topic : String
  partition : Nat
  offset : Int
  deriving DecidableEq

/-- An entry given to `assign`; without an offset the group's own position is used. -/
structure Assignment where
  topic : String
  partition : Nat
  offset : Option Number
  deriving DecidableEq

abbrev CheckpointOffsets := OrderedMap Number Int

inductive RebalanceCode where
  | revoke | assign | other
  deriving DecidableEq

/-- Where the error given to `fail` came from. -/
inductive Failure where
  | nativeError (checkpointLost : Bool)
  | rebalance
  | unassign
  | restoration
  | delivery
  | consume
  | resume
  deriving DecidableEq

/-- An entry of `#assignments`. The partition and the generation it was created
    for are history; `aborted` is its controller's. -/
structure Lease where
  partition : Nat
  generation : Nat
  aborted : Bool

/-- The variables of one pass of the loop in `deliver`. -/
structure Record where
  lease : Nat
  message : Message
  marked : Option String
  committed : Bool

inductive CommitStatus where
  | pending
  | resolved
  | rejected
  /-- Resolved, and the code after its `await` has run. -/
  | continued
  deriving DecidableEq

structure Commit where
  record : Nat
  partition : Nat
  next : Int
  metadata : Option String
  status : CommitStatus

/-- Where a `deliver` call stands: at the head of its loop, inside its handler,
    at its `seek` or its own `commit`, or past its end. -/
inductive TaskPhase where
  | ready
  | handling (record : Nat)
  | seeking
  | committing (commit : Nat)
  | rejected
  | settled
  | done
  deriving DecidableEq

/-- One `deliver` call. `call` is the consume call that brought its messages. -/
structure Task where
  call : Nat
  partition : Nat
  lease : Option Nat
  rest : List Message
  phase : TaskPhase

inductive Ending where
  | assigned
  | overtaken
  | failed
  deriving DecidableEq

/-- Where a `restoreAssignment` call stands. `partitions` are those still to be
    looked up, the first of them being queried; `chosen` is its `assignment`. -/
inductive RestorePhase where
  | awaitingProvider
  | querying (offsets : CheckpointOffsets) (partition : TopicPartition) (next : Int)
      (rest : List TopicPartition) (chosen : List Assignment)
  | settling (chosen : List Assignment) (commits : List Nat)
  | rejected
  | ended (ending : Ending)

/-- One `restoreAssignment` call. `checkpoint` and `answers` are history: what
    the provider returned and the watermarks seen, in order. -/
structure Restoration where
  generation : Nat
  partitions : List TopicPartition
  phase : RestorePhase
  checkpoint : Option CheckpointOffsets
  answers : List (Nat × Number × Number)

inductive RunPhase where
  | idle
  | polling
  | fetching (call : Nat)
  | dispatching (call : Nat) (groups : List (Nat × List Message))
  | draining (tasks : List Nat)
  | ended

/-- What the consumer did, newest first. The events with a lease are calls made
    through it. -/
inductive Event where
  | consumeCalled (call generation : Nat)
  | invalidated
  | revoked (lease : Nat)
  | rebalanced (generation : Nat) (partitions : List TopicPartition)
  | assignCalled (generation : Nat) (assignment : List Assignment) (threw : Bool)
  | leaseCreated (lease partition generation : Nat)
  | handlerStarted (call lease : Nat) (offset : Int)
  | marked (lease : Nat) (offset : Int)
  | commitCalled (lease : Nat) (offset : Int)
  | committed (lease : Nat) (offset : Int)
  | stored (lease : Nat) (offset : Int)
  | sought (lease : Nat) (offset : Int)
  | resumed (lease : Nat)
  deriving DecidableEq

/-- The consumer, the objects it has allocated, and of the native client which
    partitions are paused and where a seek has sent them. -/
structure State where
  topic : String
  restoring : Bool
  assignments : OrderedMap Nat Nat := .empty
  commits : List Nat := []
  tasks : List Nat := []
  generation : Nat := 0
  stopping : Bool := false
  failure : Option Failure := none
  cancelled : Bool := false
  run : RunPhase := .idle
  leases : Nat → Lease := fun _ => ⟨0, 0, false⟩
  nextLease : Nat := 0
  records : Nat → Record := fun _ => ⟨0, ⟨"", 0, 0⟩, none, false⟩
  nextRecord : Nat := 0
  commitTable : Nat → Commit := fun _ => ⟨0, 0, 0, none, .pending⟩
  nextCommit : Nat := 0
  taskTable : Nat → Task := fun _ => ⟨0, 0, none, [], .done⟩
  nextTask : Nat := 0
  restorations : Nat → Restoration := fun _ => ⟨0, [], .ended .overtaken, none, []⟩
  nextRestoration : Nat := 0
  nextCall : Nat := 0
  paused : Nat → Bool := fun _ => false
  restart : Nat → Option Int := fun _ => none
  history : List Event := []

def isSafe (n : Int) : Bool := decide (n.natAbs ≤ Number.maxSafeInteger)

/-- The check `validateCheckpoint` makes of one entry. -/
def representable (entry : Number × Int) : Bool :=
  entry.1.isSafeInteger && !entry.1.lt (.finite 0) && !(Number.finite 2147483647).lt entry.1 &&
    decide (0 ≤ entry.2) && decide (entry.2 ≤ Number.maxSafeInteger)

def validateCheckpoint : Option CheckpointOffsets → Bool
  | none => true
  | some offsets => offsets.entries.all representable

/-- The check of a watermark answer against the checkpoint. -/
def withinBounds (next : Int) (low high : Number) : Bool :=
  low.isSafeInteger && high.isSafeInteger && !low.lt (.finite 0) &&
    decide (low.toBigint ≤ next) && decide (next ≤ high.toBigint)

namespace State

def log (s : State) (e : Event) : State := { s with history := e :: s.history }

def leased (s : State) : List Nat := s.assignments.entries.map Prod.snd

def invalidate (s : State) : State :=
  { s with
    generation := s.generation + 1
    assignments := .empty
    leases := fun l => if l ∈ s.leased then { s.leases l with aborted := true } else s.leases l
    history := s.leased.map .revoked ++ .invalidated :: s.history }

def setCommits (s : State) (ids : List Nat) (status : CommitStatus) : Nat → Commit :=
  fun c => if c ∈ ids then { s.commitTable c with status := status } else s.commitTable c

def rejectCommits (s : State) : State :=
  { s with commitTable := s.setCommits s.commits .rejected, commits := [] }

def fail (s : State) (failure : Failure) : State :=
  rejectCommits (invalidate { s with failure := some (s.failure.getD failure) })

def current (s : State) (partition lease : Nat) : Bool :=
  s.failure.isNone && !(s.leases lease).aborted && !s.cancelled &&
    decide (s.assignments.get partition = some lease)

/-- The check each continuation of `restoreAssignment` makes. -/
def overtaken (s : State) (generation : Nat) : Bool :=
  decide (generation ≠ s.generation) || s.stopping || s.failure.isSome || s.cancelled

def setRestoration (s : State) (r : Nat) (phase : RestorePhase) : State :=
  { s with restorations := Function.update s.restorations r { s.restorations r with phase := phase } }

def setTask (s : State) (t : Nat) (phase : TaskPhase) : State :=
  { s with taskTable := Function.update s.taskTable t { s.taskTable t with phase := phase } }

/-! Rebalances and the restoration of a checkpoint. -/

/-- The loop of `restoreAssignment`, up to its next `await`. -/
def restoreLoop (s : State) (generation : Nat) (offsets : Option CheckpointOffsets)
    (chosen : List Assignment) : List TopicPartition → RestorePhase
  | [] =>
    if s.overtaken generation then .ended .overtaken else .settling chosen s.commits
  | tp :: rest =>
    if s.overtaken generation then .ended .overtaken
    else if tp.topic ≠ s.topic then .rejected
    else
      match offsets with
      | none => restoreLoop s generation none (chosen ++ [⟨tp.topic, tp.partition, none⟩]) rest
      | some offsets =>
        match offsets.get (.finite tp.partition) with
        | none => .rejected
        | some next => .querying offsets tp next rest chosen

/-- The provider has answered; `none` means that it threw or rejected. -/
def provided (s : State) (r : Nat) : Option (Option CheckpointOffsets) → State
  | none => s.setRestoration r .rejected
  | some selected =>
    let restoration := s.restorations r
    let phase :=
      if validateCheckpoint selected = false then .rejected
      else if selected.isSome ≠ s.restoring then .rejected
      else s.restoreLoop restoration.generation selected [] restoration.partitions
    { s with
      restorations := Function.update s.restorations r
        { restoration with checkpoint := selected, phase := phase } }

/-- A watermark query has answered; `none` means that it failed. -/
def watermarks (s : State) (r : Nat) (offsets : CheckpointOffsets) (tp : TopicPartition) (next : Int)
    (rest : List TopicPartition) (chosen : List Assignment) : Option (Number × Number) → State
  | none => s.setRestoration r .rejected
  | some (low, high) =>
    let restoration := s.restorations r
    let phase :=
      if withinBounds next low high = false then .rejected
      else
        s.restoreLoop restoration.generation (some offsets)
          (chosen ++ [⟨tp.topic, tp.partition, some (Number.ofBigint next)⟩]) rest
    { s with
      restorations := Function.update s.restorations r
        { restoration with
          answers := restoration.answers ++ [(tp.partition, low, high)], phase := phase } }

def addLease (generation : Nat) (s : State) (tp : TopicPartition) : State :=
  { s with
    leases := Function.update s.leases s.nextLease ⟨tp.partition, generation, false⟩
    nextLease := s.nextLease + 1
    assignments := s.assignments.set tp.partition s.nextLease
    paused := Function.update s.paused tp.partition false
    restart := Function.update s.restart tp.partition none
    history := .leaseCreated s.nextLease tp.partition generation :: s.history }

/-- The pending commits have settled, and `assign` is called. -/
def assign (s : State) (r : Nat) (chosen : List Assignment) (throws : Bool) : State :=
  let restoration := s.restorations r
  if s.overtaken restoration.generation then s.setRestoration r (.ended .overtaken)
  else
    let called := s.log (.assignCalled restoration.generation chosen throws)
    if throws then called.setRestoration r .rejected
    else
      (restoration.partitions.foldl (addLease restoration.generation) called).setRestoration r
        (.ended .assigned)

/-- The `catch` of `rebalance`. An error of `unassign` is ignored there. -/
def restorationCaught (s : State) (r : Nat) : State :=
  if (s.restorations r).generation ≠ s.generation ∨ s.stopping = true then
    s.setRestoration r (.ended .failed)
  else (s.fail .restoration).setRestoration r (.ended .failed)

/-- Start `restoreAssignment` for the generation that has just begun. -/
def beginRestoration (s : State) (partitions : List TopicPartition) : State :=
  { s with
    restorations := Function.update s.restorations s.nextRestoration
      ⟨s.generation, partitions, .awaitingProvider, none, []⟩
    nextRestoration := s.nextRestoration + 1
    history := .rebalanced s.generation partitions :: s.history }

def rebalance (s : State) (code : RebalanceCode) (partitions : List TopicPartition)
    (unassignThrows : Bool) : State :=
  match code with
  | .revoke => if unassignThrows then s.invalidate.fail .unassign else s.invalidate
  | .assign => s.invalidate.beginRestoration partitions
  | .other => s.invalidate.fail .rebalance

/-! Deliveries. -/

/-- Call the handler with the first of the messages left. -/
def startHandler (s : State) (t lease : Nat) (message : Message) (rest : List Message) : State :=
  { s with
    records := Function.update s.records s.nextRecord ⟨lease, message, none, false⟩
    nextRecord := s.nextRecord + 1
    taskTable := Function.update s.taskTable t
      { s.taskTable t with rest := rest, phase := .handling s.nextRecord }
    history := .handlerStarted (s.taskTable t).call lease message.offset :: s.history }

/-- The loop of `deliver`, up to its next `await`. -/
def deliverNext (s : State) (t : Nat) : State :=
  match (s.taskTable t).rest with
  | [] => s.setTask t .settled
  | message :: rest =>
    match (s.taskTable t).lease with
    -- the lease was gone when the batch was handed out: `current` throws on it
    | none => s.setTask t .rejected
    | some lease =>
      if s.current message.partition lease = false then s.setTask t .settled
      else if isSafe message.offset = false ∨ isSafe (message.offset + 1) = false then
        s.setTask t .rejected
      else s.startHandler t lease message rest

/-- The call of the native `commit`, with its entry in the pending set. -/
def openCommit (s : State) (r : Nat) (metadata : Option String) (throws : Bool) : State :=
  let record := s.records r
  { s with
    commitTable := Function.update s.commitTable s.nextCommit
      ⟨r, record.message.partition, record.message.offset + 1, metadata,
        if throws then .rejected else .pending⟩
    nextCommit := s.nextCommit + 1
    commits := if throws then s.commits else s.commits ++ [s.nextCommit]
    history := .commitCalled record.lease record.message.offset :: s.history }

def mark (s : State) (r candidate : Nat) (metadata : String) : State :=
  let record := s.records r
  if candidate = r ∧ s.current record.message.partition record.lease = true then
    { s with
      records := Function.update s.records r { record with marked := some metadata }
      history := .marked record.lease record.message.offset :: s.history }
  else s

def commit (s : State) (r candidate : Nat) (throws : Bool) : State :=
  let record := s.records r
  if candidate = r ∧ s.current record.message.partition record.lease = true then
    s.openCommit r none throws
  else s

/-- The effect of a seek on the native client. -/
def restartAt (s : State) (partition : Nat) (offset : Int) : State :=
  { s with restart := Function.update s.restart partition (some offset) }

def seekBack (s : State) (t r : Nat) (throws : Bool) : State :=
  let record := s.records r
  let called := s.log (.sought record.lease record.message.offset)
  if throws then called.setTask t .rejected
  else (called.setTask t .seeking).restartAt record.message.partition record.message.offset

def store (s : State) (t r : Nat) (throws : Bool) : State :=
  let record := s.records r
  let called := s.log (.stored record.lease record.message.offset)
  if throws then called.setTask t .rejected else (called.setTask t .ready).deliverNext t

/-- What `deliver` does when the handler of the record has returned. -/
def afterHandler (s : State) (t r : Nat) (throws : Bool) : State :=
  let record := s.records r
  if s.current record.message.partition record.lease = false then s.setTask t .settled
  else if record.committed then (s.setTask t .ready).deliverNext t
  else
    match record.marked with
    | none => s.seekBack t r throws
    | some metadata =>
      if metadata.length > 0 then
        (s.openCommit r (some metadata) throws).setTask t (.committing s.nextCommit)
      else s.store t r throws

/-- The native commit callback; `offsets` are topics, partitions and offsets. -/
def offsetCommit (s : State) (failed : Bool) (offsets : List (String × Nat × Int)) : State :=
  let names (c : Nat) : Bool := failed || offsets.any fun offset =>
    decide (offset = (s.topic, (s.commitTable c).partition, (s.commitTable c).next))
  { s with
    commitTable := s.setCommits (s.commits.filter names) (if failed then .rejected else .resolved)
    commits := s.commits.filter fun c => !names c }

/-- The code of `commit` after its `await`. -/
def commitContinues (s : State) (c : Nat) : State :=
  let record := s.records (s.commitTable c).record
  { s with
    commitTable := s.setCommits [c] .continued
    records := Function.update s.records (s.commitTable c).record { record with committed := true }
    history := .committed record.lease record.message.offset :: s.history }

def taskCaught (s : State) (t : Nat) : State :=
  match (s.taskTable t).lease with
  | none => s.setTask t .settled
  | some lease =>
    if s.current (s.taskTable t).partition lease then (s.fail .delivery).setTask t .settled
    else s.setTask t .settled

def endTask (s : State) (t : Nat) : State :=
  { s with
    taskTable := Function.update s.taskTable t { s.taskTable t with phase := .done }
    tasks := s.tasks.erase t }

def setPaused (s : State) (paused : Nat → Bool) : State := { s with paused := paused }

def taskEnds (s : State) (t : Nat) (throws : Bool) : State :=
  match (s.taskTable t).lease with
  | none => s.endTask t
  | some lease =>
    if s.current (s.taskTable t).partition lease = true ∧ s.stopping = false then
      let called := (s.endTask t).log (.resumed lease)
      if throws then called.fail .resume
      else called.setPaused (Function.update s.paused (s.taskTable t).partition false)
    else s.endTask t

/-! The consume loop. -/

/-- Leave the loop of `consume`. -/
def leaveLoop (s : State) : State :=
  let closed := if s.failure.isSome ∨ s.cancelled = true then s.invalidate else s
  { closed with run := .draining closed.tasks }

def callConsume (s : State) : State :=
  { s with
    run := .fetching s.nextCall
    nextCall := s.nextCall + 1
    history := .consumeCalled s.nextCall s.generation :: s.history }

def poll (s : State) (throws : Bool) : State :=
  if (s.stopping = false ∨ s.tasks ≠ []) ∧ s.failure.isNone = true ∧ s.cancelled = false then
    if throws then (s.fail .consume).leaveLoop else s.callConsume
  else s.leaveLoop

def groupByPartition (messages : List Message) : OrderedMap Nat (List Message) :=
  messages.foldl (fun groups message =>
    groups.set message.partition ((groups.get message.partition).getD [] ++ [message])) .empty

/-- The messages of a batch that belong to an assigned partition. -/
def assigned (s : State) (messages : List Message) : List Message :=
  messages.filter fun message =>
    decide (message.topic = s.topic) && s.assignments.has message.partition

/-- A partition that has handed over a message has made its restart. -/
def restartAfter (s : State) (messages : List Message) (p : Nat) : Option Int :=
  if messages.any (fun m => decide (m.topic = s.topic ∧ m.partition = p)) then none else s.restart p

def fetched (s : State) (call : Nat) : Option (List Message) → State
  | none => (s.fail .consume).leaveLoop
  | some messages =>
    let moved := { s with restart := s.restartAfter messages }
    if s.stopping then { moved with run := .polling }
    else { moved with run := .dispatching call (groupByPartition (s.assigned messages)).entries }

/-- Hand the messages of one partition to a new `deliver` call. -/
def launch (s : State) (call partition : Nat) (messages : List Message)
    (groups : List (Nat × List Message)) : State :=
  { s with
    paused := Function.update s.paused partition true
    taskTable := Function.update s.taskTable s.nextTask
      ⟨call, partition, s.assignments.get partition, messages, .ready⟩
    nextTask := s.nextTask + 1
    tasks := s.tasks ++ [s.nextTask]
    run := .dispatching call groups }

def dispatch (s : State) (call : Nat) (throws : Bool) : List (Nat × List Message) → State
  | [] => { s with run := .polling }
  | (partition, messages) :: groups =>
    if throws then (s.fail .consume).leaveLoop
    else (s.launch call partition messages groups).deliverNext s.nextTask

def stop (s : State) (throws : Bool) : State :=
  { s with
    stopping := true
    paused := fun p => if s.assignments.has p = true ∧ throws = false then true else s.paused p }

/-- The synchronous part of `disconnectOnce`. -/
def disconnect (s : State) : State := rejectCommits (invalidate { s with stopping := true })

end State

/-- `provided`, `watermarks` and `fetched` carry the answer, or `none` for an
    error; a last Boolean says that the native call of the step throws. -/
inductive Action where
  | rebalance (code : RebalanceCode) (partitions : List TopicPartition) (unassignThrows : Bool)
  | nativeError (offsetLost : Bool)
  | provided (restoration : Nat) (answer : Option (Option CheckpointOffsets))
  | watermarks (restoration : Nat) (answer : Option (Number × Number))
  | assign (restoration : Nat) (throws : Bool)
  | restorationCaught (restoration : Nat)
  | run
  | poll (throws : Bool)
  | fetched (answer : Option (List Message))
  | dispatch (throws : Bool)
  | handlerSettles (task : Nat) (threw throws : Bool)
  | mark (record candidate : Nat) (metadata : String)
  | commit (record candidate : Nat) (throws : Bool)
  | offsetCommit (failed : Bool) (offsets : List (String × Nat × Int))
  | commitContinues (commit : Nat)
  | commitAwaited (task : Nat)
  | seekSettles (task : Nat) (failed : Bool)
  | taskCaught (task : Nat)
  | taskEnds (task : Nat) (throws : Bool)
  | drained
  | stop (throws : Bool)
  | disconnect
  | cancel

/-- What can happen while a batch is being handed out: the next hand-over, and
    what a handler does before it first awaits. -/
def Action.synchronous : Action → Bool
  | .dispatch _ | .mark .. | .commit .. | .stop _ | .disconnect | .cancel => true
  | _ => false

def perform (s : State) : Action → Option State
  | .rebalance code partitions unassignThrows => some (s.rebalance code partitions unassignThrows)
  | .nativeError offsetLost => some (s.fail (.nativeError (s.restoring && offsetLost)))
  | .provided r answer =>
    match (s.restorations r).phase with
    | .awaitingProvider => some (s.provided r answer)
    | _ => none
  | .watermarks r answer =>
    match (s.restorations r).phase with
    | .querying offsets tp next rest chosen => some (s.watermarks r offsets tp next rest chosen answer)
    | _ => none
  | .assign r throws =>
    match (s.restorations r).phase with
    | .settling chosen commits =>
      if commits.all (fun c => decide ((s.commitTable c).status ≠ .pending)) then
        some (s.assign r chosen throws)
      else none
    | _ => none
  | .restorationCaught r =>
    match (s.restorations r).phase with
    | .rejected => some (s.restorationCaught r)
    | _ => none
  | .run =>
    match s.run with
    | .idle => some { s with run := .polling }
    | _ => some s
  | .poll throws =>
    match s.run with
    | .polling => some (s.poll throws)
    | _ => none
  | .fetched answer =>
    match s.run with
    | .fetching call => some (s.fetched call answer)
    | _ => none
  | .dispatch throws =>
    match s.run with
    | .dispatching call groups => some (s.dispatch call throws groups)
    | _ => none
  | .handlerSettles t threw throws =>
    match (s.taskTable t).phase with
    | .handling r => some (if threw then s.setTask t .rejected else s.afterHandler t r throws)
    | _ => none
  | .mark r candidate metadata => if r < s.nextRecord then some (s.mark r candidate metadata) else none
  | .commit r candidate throws => if r < s.nextRecord then some (s.commit r candidate throws) else none
  | .offsetCommit failed offsets => some (s.offsetCommit failed offsets)
  | .commitContinues c =>
    if (s.commitTable c).status = .resolved then some (s.commitContinues c) else none
  | .commitAwaited t =>
    match (s.taskTable t).phase with
    | .committing c =>
      match (s.commitTable c).status with
      | .continued => some ((s.setTask t .ready).deliverNext t)
      | .rejected => some (s.setTask t .rejected)
      | _ => none
    | _ => none
  | .seekSettles t failed =>
    if (s.taskTable t).phase = .seeking then
      some (s.setTask t (if failed then .rejected else .settled))
    else none
  | .taskCaught t => if (s.taskTable t).phase = .rejected then some (s.taskCaught t) else none
  | .taskEnds t throws => if (s.taskTable t).phase = .settled then some (s.taskEnds t throws) else none
  | .drained =>
    match s.run with
    | .draining tasks =>
      if tasks.all (fun t => decide ((s.taskTable t).phase = .done)) then some { s with run := .ended }
      else none
    | _ => none
  | .stop throws => some (s.stop throws)
  | .disconnect => some s.disconnect
  | .cancel => some { s with cancelled := true }

/-- A batch is handed out in one synchronous stretch. -/
def step (s : State) (a : Action) : Option State :=
  match s.run with
  | .dispatching .. => if a.synchronous then perform s a else none
  | _ => perform s a

def initial (topic : String) (restoring : Bool) : State := { topic, restoring }

def Reachable (s : State) : Prop :=
  ∃ topic restoring, Steps step Any (initial topic restoring) s

end Kafka
