import TsServiceLib.Pool.TaskPool

/-!
The pool that replaces the task pools inside a workflow. It is written apart
from them: one class over either queue, a comparison by subtraction, a `run`
that is an async function, and a promise that callers wait on until the pool is
idle. Priorities and sequence numbers are kept in the task objects whichever
queue the pool has.
-/
namespace WorkflowPools
open Pools Transitions Numbers

/-- `FifoQueue<WorkflowTask> | IndexedHeap<WorkflowTask>` -/
inductive Entries where
  | fifo (queue : FifoQueue Nat)
  | heap (queue : IndexedHeap Nat)

/-- The queue of a pool, with the task objects its comparison reads and the
    counter `#sequence`. -/
structure WorkflowQueue where
  entries : Entries
  tasks : Nat → PriorityTask
  sequence : Nat

/-- `a.priority - b.priority || a.sequence - b.sequence`, of which the heap asks
    only where it lies from zero. -/
def compareTasks (tasks : Nat → PriorityTask) (a b : Nat) : Int :=
  let priorities := (tasks a).priority.sub (tasks b).priority
  (priorities.orElse (.finite (((tasks a).sequence : ℚ) - (tasks b).sequence))).sign

namespace WorkflowQueue

def make (priority : Bool) : WorkflowQueue :=
  ⟨if priority then .heap .empty else .fifo .empty, fun _ => ⟨.finite 0, 0⟩, 0⟩

def length (q : WorkflowQueue) : Nat :=
  match q.entries with
  | .fifo queue => queue.length
  | .heap queue => queue.length

def contents (q : WorkflowQueue) : List Nat :=
  match q.entries with
  | .fifo queue => queue.nodes.keys
  | .heap queue => queue.items

def create (q : WorkflowQueue) (task : Nat) (priority : Number) : WorkflowQueue :=
  { q with tasks := Function.update q.tasks task ⟨priority, q.sequence⟩, sequence := q.sequence + 1 }

def push (q : WorkflowQueue) (task : Nat) : WorkflowQueue :=
  match q.entries with
  | .fifo queue => { q with entries := .fifo (queue.push task) }
  | .heap queue => { q with entries := .heap (queue.push (compareTasks q.tasks) task) }

/-- `pop` of a heap, `shift` of a queue. -/
def take (q : WorkflowQueue) : Option Nat × WorkflowQueue :=
  match q.entries with
  | .fifo queue => (queue.shift.1, { q with entries := .fifo queue.shift.2 })
  | .heap queue =>
    ((queue.pop (compareTasks q.tasks)).1,
      { q with entries := .heap (queue.pop (compareTasks q.tasks)).2 })

/-- What the abort callback does to the place of its task. -/
def promote (q : WorkflowQueue) (task : Nat) : WorkflowQueue :=
  match q.entries with
  | .fifo queue => { q with entries := .fifo (queue.moveToFront task).2 }
  | .heap queue =>
    if queue.has task then
      let tasks := Function.update q.tasks task { q.tasks task with priority := .negInfinity }
      { q with tasks := tasks, entries := .heap (queue.fix (compareTasks tasks) task) }
    else q

end WorkflowQueue

/-- How far a task has come: `run` awaits what `execute` returned, and its
    `finally` follows in the same microtask, after the error report if there is one. -/
inductive Stage where
  | waiting
  | scheduled
  | executing
  | awaiting
  | reporting
  | finished
  deriving DecidableEq

def Stage.isActive : Stage → Bool
  | waiting | finished => false
  | _ => true

inductive WorkflowPoolError where
  | contextCancelled
  | poolStopped (name : String)
  | cannotStart (name : String) (state : Phase)
  | executors
  deriving DecidableEq

/-- `contextCancelled` carries this text only when the signal has no reason of its own. -/
def WorkflowPoolError.message : WorkflowPoolError → String
  | contextCancelled => "task context is cancelled"
  | poolStopped name => "pool " ++ name ++ " is stopped"
  | cannotStart name state => "workflow pool " ++ name ++ " cannot start from " ++ state.text
  | executors => "executors must be a non-negative integer"

/-- A pool with its surroundings. The promises made for `#idle` are numbered,
    the first being `Promise.resolve()`; `resolveIdle` is the promise that the
    stored resolver belongs to. The rest is as in the pools it stands for. -/
structure WorkflowPool where
  name : String
  executors : Nat
  queue : WorkflowQueue
  active : Nat := 0
  state : Phase := .created
  drain : Drain := .absent
  idle : Nat := 0
  resolveIdle : Option Nat := none
  promises : Nat := 1
  resolved : Nat → Bool := fun promise => promise == 0
  listeners : Nat → List Nat := fun _ => []
  aborted : List Nat := []
  submissions : List (Submission Number) := []
  stage : Nat → Stage := fun _ => .waiting
  starts : List Start := []

def make (name : String) (executors : Number) (priority : Bool) : Except WorkflowPoolError WorkflowPool :=
  match executors with
  | .finite count =>
    if (Number.finite count).isSafeInteger = false ∨ count < 0 then .error .executors
    else .ok { name, executors := if count = 0 then 1 else count.num.toNat, queue := .make priority }
  | _ => .error .executors

def signalOf (w : WorkflowPool) (task : Nat) : Option Nat :=
  (w.submissions[task]?).map Submission.signal

def listenersWithout (w : WorkflowPool) (task : Nat) : Nat → List Nat :=
  match signalOf w task with
  | none => w.listeners
  | some signal => Function.update w.listeners signal ((w.listeners signal).filter (· ≠ task))

/-- The call `this.#resolveIdle?.()` and the assignment after it. -/
def settleIdle (w : WorkflowPool) : WorkflowPool :=
  match w.resolveIdle with
  | none => w
  | some promise => { w with resolved := Function.update w.resolved promise true, resolveIdle := none }

def finishDrainIfIdle (w : WorkflowPool) : WorkflowPool :=
  if w.active = 0 ∧ w.queue.length = 0 then
    let settled := settleIdle w
    if settled.state = .stopping then { settled with state := .stopped, drain := .resolved } else settled
  else w

/-- The pool after the pump has taken `task` and left `queue`. -/
def dispatch (w : WorkflowPool) (task : Nat) (queue : WorkflowQueue) : WorkflowPool :=
  { w with
    listeners := listenersWithout w task
    queue := queue
    active := w.active + 1
    stage := Function.update w.stage task .scheduled
    starts := ⟨task, w.active, w.executors, w.queue.contents, w.aborted⟩ :: w.starts }

/-- One turn of the loop in `pump`, if there is one to make. -/
def startNext (w : WorkflowPool) : Option WorkflowPool :=
  if w.active < w.executors ∧ 0 < w.queue.length then
    match w.queue.take with
    | (none, _) => none
    | (some task, queue) => some (dispatch w task queue)
  else none

def pumpLoop : Nat → WorkflowPool → WorkflowPool
  | 0, w => w
  | turns + 1, w =>
    match startNext w with
    | none => w
    | some v => pumpLoop turns v

/-- Every turn of the loop takes one task, so the length of the queue bounds them. -/
def pump (w : WorkflowPool) : WorkflowPool :=
  if w.state = .running ∨ w.state = .stopping then finishDrainIfIdle (pumpLoop w.queue.length w) else w

def start (w : WorkflowPool) : Except WorkflowPoolError WorkflowPool :=
  if w.state = .created then .ok (pump { w with state := .running })
  else .error (.cannotStart w.name w.state)

/-- The abort callback of a task. -/
def cancel (w : WorkflowPool) (task : Nat) : WorkflowPool :=
  pump { w with queue := w.queue.promote task }

def subscribeAbort (w : WorkflowPool) (signal task : Nat) : WorkflowPool :=
  if signal ∈ w.aborted then cancel w task
  else { w with listeners := Function.update w.listeners signal (w.listeners signal ++ [task]) }

/-- A new promise for `#idle`, made when a task enters an empty pool. -/
def renewIdle (w : WorkflowPool) : WorkflowPool :=
  if w.active = 0 ∧ w.queue.length = 0 then
    { w with idle := w.promises, resolveIdle := some w.promises, promises := w.promises + 1 }
  else w

/-- `expired` says that the deadline of the context has passed. -/
def addTask (w : WorkflowPool) (signal : Nat) (expired : Bool) (priority : Number) :
    Except WorkflowPoolError WorkflowPool :=
  if signal ∈ w.aborted ∨ expired = true then .error .contextCancelled
  else if w.state = .stopping ∨ w.state = .stopped then .error (.poolStopped w.name)
  else
    let renewed := renewIdle w
    let task := renewed.submissions.length
    let created := { renewed with
      submissions := renewed.submissions ++ [⟨signal, priority⟩]
      queue := renewed.queue.create task priority }
    let subscribed := subscribeAbort created signal task
    .ok (pump { subscribed with queue := subscribed.queue.push task })

/-- The listener of a signal goes through the callbacks; one that has been
    removed in the meantime is passed over. -/
def notify (signal : Nat) (w : WorkflowPool) (task : Nat) : WorkflowPool :=
  if task ∈ w.listeners signal then cancel w task else w

def abort (w : WorkflowPool) (signal : Nat) : WorkflowPool :=
  let fired := { w with aborted := signal :: w.aborted }
  let notified := (w.listeners signal).foldl (notify signal) fired
  { notified with listeners := Function.update notified.listeners signal [] }

def toStage (w : WorkflowPool) (task : Nat) (stage : Stage) : WorkflowPool :=
  { w with stage := Function.update w.stage task stage }

/-- The `finally` of `run`. -/
def taskFinished (w : WorkflowPool) (task : Nat) : WorkflowPool :=
  pump { w with active := w.active - 1, stage := Function.update w.stage task .finished }

/-- The promise that `stop` returns is settled when the drain is resolved. -/
def stop (w : WorkflowPool) : WorkflowPool :=
  if w.state = .stopped then w
  else if w.drain = .absent then finishDrainIfIdle (pump { w with state := .stopping, drain := .pending })
  else w

/-- `settles` is the promise of a task settling, which `rejected` says how. -/
inductive Action where
  | start
  | addTask (signal : Nat) (expired : Bool) (priority : Number)
  | abort (signal : Nat)
  | run (task : Nat)
  | throws (task : Nat)
  | returns (task : Nat)
  | settles (task : Nat) (rejected : Bool)
  | reporterEnds (task : Nat) (throws : Bool)
  | stop

/-- An operation that throws has changed nothing. -/
def orUnchanged (w : WorkflowPool) : Except WorkflowPoolError WorkflowPool → WorkflowPool
  | .ok v => v
  | .error _ => w

def step (w : WorkflowPool) : Action → Option WorkflowPool
  | .start => some (orUnchanged w (start w))
  | .addTask signal expired priority => some (orUnchanged w (addTask w signal expired priority))
  | .abort signal => if signal ∈ w.aborted then none else some (abort w signal)
  | .run task => if w.stage task = .scheduled then some (toStage w task .executing) else none
  | .throws task => if w.stage task = .executing then some (toStage w task .reporting) else none
  | .returns task => if w.stage task = .executing then some (toStage w task .awaiting) else none
  | .settles task rejected =>
    if w.stage task = .awaiting then
      some (if rejected then toStage w task .reporting else taskFinished w task)
    else none
  | .reporterEnds task _ => if w.stage task = .reporting then some (taskFinished w task) else none
  | .stop => some (stop w)

end WorkflowPools
