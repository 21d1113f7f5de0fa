import TsServiceLib.Library.Transitions
import TsServiceLib.Library.Number
import TsServiceLib.Pool.IndexedHeap
import TsServiceLib.Pool.FifoQueue

/-!
The task pool and the priority task pool. They are one program over two
queues: what differs is the extra argument of `addTask`, how a task enters and
leaves the queue, and what cancelling a queued task does to its place. User
code runs between the steps of a task, so the callbacks of a run are separate
actions and every public operation may come in between them.
-/
namespace Pools
open Transitions Numbers

/-- A queue of task references. `create` builds the task object and `push`
    queues it; `promote` is what the abort callback of a task does. -/
structure Discipline (A Q : Type) where
  empty : Q
  length : Q → Nat
  create : Q → Nat → A → Q
  push : Q → Nat → Q
  take : Q → Option Nat × Q
  promote : Q → Nat → Q
  contents : Q → List Nat

inductive Phase where
  | created | running | stopping | stopped
  deriving DecidableEq

inductive Drain where
  | absent | pending | resolved
  deriving DecidableEq

/-- Which of the two error paths of `run` the reporter was called from. -/
inductive ErrorPath where
  | thrown | rejected
  deriving DecidableEq

/-- How far a task has come: `waiting` until the pump takes it, `scheduled`
    until its microtask runs, then through `execute`, the promise it returned,
    a possible error report and the `finally` callback. -/
inductive Stage where
  | waiting
  | scheduled
  | executing
  | awaiting
  | reporting (path : ErrorPath)
  | settled
  | finished
  deriving DecidableEq

def Stage.isActive : Stage → Bool
  | waiting | finished => false
  | _ => true

inductive StopCall where
  | waiting | fulfilled | rejected
  deriving DecidableEq

inductive PoolError where
  | contextCancelled
  | poolStopped (name : String)
  | cannotStart (name : String) (state : Phase)
  | executorsCount
  deriving DecidableEq

def Phase.text : Phase → String
  | created => "created"
  | running => "running"
  | stopping => "stopping"
  | stopped => "stopped"

/-- `contextCancelled` carries this text only when the signal has no reason of its own. -/
def PoolError.message : PoolError → String
  | contextCancelled => "task context is cancelled"
  | poolStopped name => "pool " ++ name ++ " is stopped"
  | cannotStart name state => "pool " ++ name ++ " cannot start from " ++ state.text
  | executorsCount => "executorsCount must be a non-negative integer"

structure Submission (A : Type) where
  signal : Nat
  argument : A

/-- What held when the pump took a task out of the queue. -/
structure Start where
  task : Nat
  active : Nat
  executorsCount : Nat
  queued : List Nat
  aborted : List Nat

/-- A pool with its surroundings. `listeners` are the abort callbacks the pool
    has subscribed at each signal, `aborted` the signals that have fired. A
    task is referred to by its place in `submissions`, the accepted ones;
    `starts` and `executed` are history. -/
structure Pool (A Q : Type) where
  name : String
  availableParallelism : Option Nat
  executorsCount : Nat
  queue : Q
  active : Nat := 0
  state : Phase := .created
  drain : Drain := .absent
  listeners : Nat → List Nat := fun _ => []
  aborted : List Nat := []
  submissions : List (Submission A) := []
  stage : Nat → Stage := fun _ => .waiting
  starts : List Start := []
  executed : List Nat := []
  stopCalls : List StopCall := []

def normalizeExecutorsCount (availableParallelism : Option Nat) : Number → Except PoolError Nat
  | .finite count =>
    if (Number.finite count).isSafeInteger = false ∨ count < 0 then .error .executorsCount
    else .ok (if count = 0 then availableParallelism.getD 1 else count.num.toNat)
  | _ => .error .executorsCount

section Operations
variable {A Q : Type} (D : Discipline A Q)

def make (name : String) (availableParallelism : Option Nat) (executorsCount : Number) :
    Except PoolError (Pool A Q) :=
  match normalizeExecutorsCount availableParallelism executorsCount with
  | .error e => .error e
  | .ok count =>
    .ok { name, availableParallelism, executorsCount := count, queue := D.empty }

def signalOf (p : Pool A Q) (task : Nat) : Option Nat := (p.submissions[task]?).map Submission.signal

def listenersWithout (p : Pool A Q) (task : Nat) : Nat → List Nat :=
  match signalOf p task with
  | none => p.listeners
  | some signal => Function.update p.listeners signal ((p.listeners signal).filter (· ≠ task))

def removeAbortListener (p : Pool A Q) (task : Nat) : Pool A Q :=
  { p with listeners := listenersWithout p task }

def finishDrainIfIdle (p : Pool A Q) : Pool A Q :=
  if p.state = .stopping ∧ p.active = 0 ∧ D.length p.queue = 0 then
    { p with state := .stopped, drain := .resolved }
  else p

/-- The pool after the pump has taken `task` and left `queue`. -/
def dispatch (p : Pool A Q) (task : Nat) (queue : Q) : Pool A Q :=
  { removeAbortListener p task with
    queue := queue
    active := p.active + 1
    stage := Function.update p.stage task .scheduled
    starts := ⟨task, p.active, p.executorsCount, D.contents p.queue, p.aborted⟩ :: p.starts }

/-- One turn of the loop in `pump`, if there is one to make. -/
def startNext (p : Pool A Q) : Option (Pool A Q) :=
  if p.active < p.executorsCount ∧ 0 < D.length p.queue then
    match D.take p.queue with
    | (none, _) => none
    | (some task, queue) => some (dispatch D p task queue)
  else none

def pumpLoop : Nat → Pool A Q → Pool A Q
  | 0, p => p
  | turns + 1, p =>
    match startNext D p with
    | none => p
    | some q => pumpLoop turns q

/-- Every turn of the loop takes one task, so the length of the queue bounds them. -/
def pump (p : Pool A Q) : Pool A Q :=
  if p.state = .running ∨ p.state = .stopping then
    finishDrainIfIdle D (pumpLoop D (D.length p.queue) p)
  else p

def resize (p : Pool A Q) (executorsCount : Number) : Except PoolError (Pool A Q) :=
  if p.state = .stopping ∨ p.state = .stopped then .ok p
  else
    match normalizeExecutorsCount p.availableParallelism executorsCount with
    | .error e => .error e
    | .ok count => .ok (pump D { p with executorsCount := count })

def start (p : Pool A Q) : Except PoolError (Pool A Q) :=
  if p.state = .created then .ok (pump D { p with state := .running })
  else .error (.cannotStart p.name p.state)

/-- The abort callback of a task. -/
def cancel (p : Pool A Q) (task : Nat) : Pool A Q :=
  pump D { p with queue := D.promote p.queue task }

def subscribeAbort (p : Pool A Q) (signal task : Nat) : Pool A Q :=
  if signal ∈ p.aborted then cancel D p task
  else { p with listeners := Function.update p.listeners signal (p.listeners signal ++ [task]) }

/-- `expired` says that the deadline of the context has passed. -/
def addTask (p : Pool A Q) (signal : Nat) (expired : Bool) (argument : A) :
    Except PoolError (Pool A Q) :=
  if signal ∈ p.aborted ∨ expired = true then .error .contextCancelled
  else if p.state = .stopping ∨ p.state = .stopped then .error (.poolStopped p.name)
  else
    let task := p.submissions.length
    let created := { p with
      submissions := p.submissions ++ [⟨signal, argument⟩]
      queue := D.create p.queue task argument }
    let subscribed := subscribeAbort D created signal task
    .ok (pump D { subscribed with queue := D.push subscribed.queue task })

/-- The listener of a signal goes through the callbacks; one that has been
    removed in the meantime is passed over. -/
def notify (signal : Nat) (p : Pool A Q) (task : Nat) : Pool A Q :=
  if task ∈ p.listeners signal then cancel D p task else p

def abort (p : Pool A Q) (signal : Nat) : Pool A Q :=
  let fired := { p with aborted := signal :: p.aborted }
  let notified := (p.listeners signal).foldl (notify D signal) fired
  { notified with listeners := Function.update notified.listeners signal [] }

def taskFinished (p : Pool A Q) (task : Nat) : Pool A Q :=
  pump D { p with active := p.active - 1, stage := Function.update p.stage task .finished }

def toStage (p : Pool A Q) (task : Nat) (stage : Stage) : Pool A Q :=
  { p with stage := Function.update p.stage task stage }

/-- What follows `reportPoolError`, whether its handler threw or not. -/
def reported (p : Pool A Q) (task : Nat) : ErrorPath → Pool A Q
  | .thrown => taskFinished D p task
  | .rejected => toStage p task .settled

/-- `ownReason` says that the error is the reason of the signal or an `AbortError`. -/
def isTaskCancellation (p : Pool A Q) (task : Nat) (ownReason : Bool) : Bool :=
  match signalOf p task with
  | some signal => decide (signal ∈ p.aborted) && ownReason
  | none => false

def reportPoolError (p : Pool A Q) (task : Nat) (ownReason : Bool) (path : ErrorPath) : Pool A Q :=
  if isTaskCancellation p task ownReason then reported D p task path
  else toStage p task (.reporting path)

def beginStop (p : Pool A Q) : Pool A Q :=
  if p.drain = .absent then
    finishDrainIfIdle D (pump D { p with state := .stopping, drain := .pending })
  else p

def stop (p : Pool A Q) : Pool A Q :=
  if p.state = .stopped then { p with stopCalls := p.stopCalls ++ [.fulfilled] }
  else
    let q := beginStop D p
    let outcome := if q.active = 0 ∧ D.length q.queue = 0 then StopCall.fulfilled else .waiting
    { q with stopCalls := q.stopCalls ++ [outcome] }

/-- `settles` is the promise of a task settling: `none` when it is fulfilled,
    otherwise what `isTaskCancellation` asks about the error. `drained` and
    `gaveUp` are the two ends of a wait in `awaitPoolDrain`. -/
inductive Action (A : Type) where
  | start
  | resize (executorsCount : Number)
  | addTask (signal : Nat) (expired : Bool) (argument : A)
  | abort (signal : Nat)
  | run (task : Nat)
  | throws (task : Nat) (ownReason : Bool)
  | returns (task : Nat)
  | settles (task : Nat) (rejection : Option Bool)
  | reporterEnds (task : Nat) (throws : Bool)
  | completes (task : Nat)
  | stop
  | drained (call : Nat)
  | gaveUp (call : Nat)

/-- An operation that throws or rejects has changed nothing. -/
def orUnchanged (p : Pool A Q) : Except PoolError (Pool A Q) → Pool A Q
  | .ok q => q
  | .error _ => p

def step (p : Pool A Q) : Action A → Option (Pool A Q)
  | .start => some (orUnchanged p (start D p))
  | .resize count => some (orUnchanged p (resize D p count))
  | .addTask signal expired argument => some (orUnchanged p (addTask D p signal expired argument))
  | .abort signal => if signal ∈ p.aborted then none else some (abort D p signal)
  | .run task =>
    if p.stage task = .scheduled then
      some { toStage p task .executing with executed := task :: p.executed }
    else none
  | .throws task ownReason =>
    if p.stage task = .executing then some (reportPoolError D p task ownReason .thrown) else none
  | .returns task => if p.stage task = .executing then some (toStage p task .awaiting) else none
  | .settles task rejection =>
    if p.stage task = .awaiting then
      match rejection with
      | none => some (toStage p task .settled)
      | some ownReason => some (reportPoolError D p task ownReason .rejected)
    else none
  | .reporterEnds task _ =>
    match p.stage task with
    | .reporting path => some (reported D p task path)
    | _ => none
  | .completes task => if p.stage task = .settled then some (taskFinished D p task) else none
  | .stop => some (stop D p)
  | .drained call =>
    if p.stopCalls[call]? = some .waiting ∧ p.drain = .resolved then
      some { p with stopCalls := p.stopCalls.set call .fulfilled }
    else none
  | .gaveUp call =>
    if p.stopCalls[call]? = some .waiting then
      some { p with stopCalls := p.stopCalls.set call .rejected }
    else none

/-- The pool `p` is reached from a newly made one, in steps admitted by `ok`. -/
def Reached (ok : Pool A Q → Action A → Prop) (p : Pool A Q) : Prop :=
  ∃ name availableParallelism executorsCount first,
    make D name availableParallelism executorsCount = .ok first ∧ Steps (step D) ok first p

end Operations

/-- The queue of the task pool. -/
def fifo : Discipline Unit (FifoQueue Nat) where
  empty := .empty
  length := FifoQueue.length
  create q _ _ := q
  push := FifoQueue.push
  take := FifoQueue.shift
  promote q task := (q.moveToFront task).2
  contents q := q.nodes.keys

structure PriorityTask where
  priority : Number
  sequence : Nat

/-- The heap of the priority pool with the task objects its comparison reads. -/
structure PriorityQueue where
  heap : IndexedHeap Nat
  tasks : Nat → PriorityTask
  sequence : Nat

def comparePriority (tasks : Nat → PriorityTask) (a b : Nat) : Int :=
  if (tasks a).priority.lt (tasks b).priority then -1
  else if (tasks b).priority.lt (tasks a).priority then 1
  else (tasks a).sequence - (tasks b).sequence

def prioritised : Discipline Number PriorityQueue where
  empty := ⟨.empty, fun _ => ⟨.finite 0, 0⟩, 0⟩
  length q := q.heap.length
  create q task priority :=
    { q with
      tasks := Function.update q.tasks task ⟨priority, q.sequence⟩
      sequence := q.sequence + 1 }
  push q task := { q with heap := q.heap.push (comparePriority q.tasks) task }
  take q :=
    let popped := q.heap.pop (comparePriority q.tasks)
    (popped.1, { q with heap := popped.2 })
  promote q task :=
    if q.heap.has task then
      let tasks := Function.update q.tasks task { q.tasks task with priority := .negInfinity }
      { q with tasks := tasks, heap := q.heap.fix (comparePriority tasks) task }
    else q
  contents q := q.heap.items

end Pools
