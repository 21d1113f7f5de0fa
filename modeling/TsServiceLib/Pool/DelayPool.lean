import TsServiceLib.Library.OrNaN
import TsServiceLib.Pool.TaskPool
import Mathlib.Algebra.Order.Floor.Ring
import Mathlib.Data.Rat.Floor

/-!
The delay pool: a heap of tasks by the time they are due, and one timer for
the head of it. The timer is armed anew whenever the head changes, also after
a wake-up that came too early or whose wait had been clamped. A task leaves
the heap when a wake-up finds it due or when its context is aborted, and is
then carried through the same stages as a task of the other pools. Every
reading of the clock is the next entry of an arbitrary sequence `clock`. A
context may have the deadline NaN, and then the task has no time it is due at.
-/
namespace Pools
open Transitions Numbers

/-- A point of the clock in milliseconds, or Infinity. -/
abbrev Time := WithTop ℚ

/-- A time that is computed from the deadline of a context. -/
abbrev DueTime := OrNaN Time

structure DelayTask where
  completed : Bool
  runAt : DueTime
  sequence : Nat
  signal : Nat

/-- An armed timeout: what `setTimeout` was given, and the reading it came from. -/
structure Timer where
  delay : OrNaN Int
  now : ℚ

/-- A task leaving the heap: the reading that found it due, unless an abort
    did it, and the signals that had fired. -/
structure Dispatch where
  task : Nat
  now : Option ℚ
  aborted : List Nat

/-- A delay pool with its surroundings. Task objects are referred to by their
    sequence number; `dispatches` and `executed` are history, latest first. -/
structure DelayPool where
  name : String := "delay"
  objects : Nat → DelayTask := fun _ => ⟨false, .num 0, 0, 0⟩
  tasks : List Nat := []
  queue : IndexedHeap Nat := .empty
  timer : Option Timer := none
  armedAt : Option DueTime := none
  sequence : Nat := 0
  state : Phase := .created
  drain : Drain := .absent
  listeners : Nat → List Nat := fun _ => []
  aborted : List Nat := []
  reads : Nat := 0
  stage : Nat → Stage := fun _ => .waiting
  dispatches : List Dispatch := []
  executed : List Nat := []
  stopCalls : List StopCall := []

inductive DelayError where
  | contextCancelled
  | poolStopped (name : String)
  | notANumber
  | cannotStart (name : String) (state : Phase)
  deriving DecidableEq

/-- `contextCancelled` carries this text only when the signal has no reason of its own. -/
def DelayError.message : DelayError → String
  | contextCancelled => "delay context is cancelled"
  | poolStopped name => "pool " ++ name ++ " is stopped"
  | notANumber => "delay must not be NaN"
  | cannotStart name state => "pool " ++ name ++ " cannot start from " ++ state.text

namespace DelayPool

/-- The difference of two times has the sign of their order; it is zero, or NaN
    for Infinity minus itself, when they are equal, and NaN when one of them is,
    and then `||` goes on to the sequence numbers. -/
def compareRunAt (objects : Nat → DelayTask) (a b : Nat) : Int :=
  if (objects a).runAt < (objects b).runAt then -1
  else if (objects b).runAt < (objects a).runAt then 1
  else (objects a).sequence - (objects b).sequence

/-- `Context.remainingMs` for a context with a deadline. -/
def remainingMs (deadline : DueTime) (now : ℚ) : DueTime :=
  deadline.map fun deadline =>
    match deadline with
    | none => ⊤
    | some due => ((max 0 (due - now) : ℚ) : Time)

/-- `Math.max(0, Math.min(delayMs, remaining ?? Infinity))` for a delay that is not
    NaN; it is NaN if what remains is. -/
def effectiveDelay (delayMs : Number) (remaining : Option DueTime) : DueTime :=
  (remaining.getD (.num ⊤)).map fun remaining =>
    match delayMs with
    | .posInfinity => max 0 remaining
    | .finite delay => max 0 (min (delay : Time) remaining)
    | _ => 0

def maxTimeout : Int := 2147483647

section Operations
variable (clock : Nat → ℚ)

def listenersWithout (p : DelayPool) (task : Nat) : Nat → List Nat :=
  Function.update p.listeners (p.objects task).signal
    ((p.listeners (p.objects task).signal).filter (· ≠ task))

def nextRunAt (p : DelayPool) : Option DueTime := p.queue.peek.map fun task => (p.objects task).runAt

/-- `next === this.#armedAt` is false of NaN. -/
def arm (p : DelayPool) : DelayPool :=
  if p.nextRunAt = p.armedAt ∧ p.nextRunAt ≠ some .nan then p
  else
    match p.nextRunAt with
    | some (.num (some next)) =>
      { p with
        timer := some ⟨.num (min maxTimeout (max 0 ⌈next - clock p.reads⌉)), clock p.reads⟩
        armedAt := some (.num (next : Time))
        reads := p.reads + 1 }
    | some .nan =>
      { p with timer := some ⟨.nan, clock p.reads⟩, armedAt := some .nan, reads := p.reads + 1 }
    | next => { p with timer := none, armedAt := next }

/-- The task object is marked and its run scheduled; user code comes later. -/
def dispatch (p : DelayPool) (task : Nat) (now : Option ℚ) : DelayPool :=
  if (p.objects task).completed then p
  else
    { p with
      objects := Function.update p.objects task { p.objects task with completed := true }
      queue := (p.queue.remove (compareRunAt p.objects) task).1
      listeners := p.listenersWithout task
      stage := Function.update p.stage task .scheduled
      dispatches := ⟨task, now, p.aborted⟩ :: p.dispatches }

/-- The loop of a wake-up; every turn takes one task out of the heap. -/
def wakeLoop (now : ℚ) : Nat → DelayPool → DelayPool
  | 0, p => p
  | turns + 1, p =>
    match p.queue.peek with
    | none => p
    | some task =>
      if .num (now : Time) < (p.objects task).runAt then p
      else wakeLoop now turns (p.dispatch task (some now))

/-- The callback of the timeout. -/
def wake (p : DelayPool) : DelayPool :=
  let now := clock p.reads
  arm clock (wakeLoop now p.queue.length
    { p with timer := none, armedAt := none, reads := p.reads + 1 })

/-- The abort callback of a task. -/
def cancel (p : DelayPool) (task : Nat) : DelayPool := arm clock (p.dispatch task none)

def subscribeAbort (p : DelayPool) (signal task : Nat) : DelayPool :=
  if signal ∈ p.aborted then cancel clock p task
  else { p with listeners := Function.update p.listeners signal (p.listeners signal ++ [task]) }

/-- The task object `delay` makes, in a pool that has added it to its tasks. -/
def create (p : DelayPool) (signal : Nat) (runAt : DueTime) : DelayPool :=
  { p with
    objects := Function.update p.objects p.sequence ⟨false, runAt, p.sequence, signal⟩
    sequence := p.sequence + 1
    tasks := p.tasks ++ [p.sequence]
    reads := p.reads + 3 }

def enqueue (p : DelayPool) (task : Nat) : DelayPool :=
  { p with queue := p.queue.push (compareRunAt p.objects) task }

/-- `delay` reads the clock for the deadline, for what remains of it, and for
    the time the delay is added to. -/
def delay (p : DelayPool) (signal : Nat) (deadline : Option DueTime) (delayMs : Number) :
    Except DelayError DelayPool :=
  if signal ∈ p.aborted ∨ deadline.getD (.num ⊤) ≤ .num (clock p.reads : Time) then .error .contextCancelled
  else if p.state = .stopping ∨ p.state = .stopped then .error (.poolStopped p.name)
  else if delayMs.isNaN then .error .notANumber
  else
    let effective := effectiveDelay delayMs (deadline.map fun due => remainingMs due (clock (p.reads + 1)))
    let now := clock (p.reads + 2)
    let created := p.create signal (effective.map fun wait => now + wait)
    if effective = .num 0 then .ok (created.dispatch p.sequence (some now))
    else .ok (arm clock (subscribeAbort clock (created.enqueue p.sequence) signal p.sequence))

def start (p : DelayPool) : Except DelayError DelayPool :=
  if p.state = .created then .ok { p with state := .running }
  else .error (.cannotStart p.name p.state)

/-- The listener of a signal goes through the callbacks; one that has been
    removed in the meantime is passed over. -/
def notify (signal : Nat) (p : DelayPool) (task : Nat) : DelayPool :=
  if task ∈ p.listeners signal then cancel clock p task else p

def abort (p : DelayPool) (signal : Nat) : DelayPool :=
  let notified := (p.listeners signal).foldl (notify clock signal)
    { p with aborted := signal :: p.aborted }
  { notified with listeners := Function.update notified.listeners signal [] }

def finishDrainIfIdle (p : DelayPool) : DelayPool :=
  if p.state = .stopping ∧ p.tasks = [] then { p with state := .stopped, drain := .resolved } else p

def toStage (p : DelayPool) (task : Nat) (stage : Stage) : DelayPool :=
  { p with stage := Function.update p.stage task stage }

def completeTask (p : DelayPool) (task : Nat) : DelayPool :=
  finishDrainIfIdle { p with
    tasks := p.tasks.filter (· ≠ task)
    stage := Function.update p.stage task .finished }

/-- What follows `reportPoolError`, whether its handler threw or not. -/
def reported (p : DelayPool) (task : Nat) : ErrorPath → DelayPool
  | .thrown => p.completeTask task
  | .rejected => p.toStage task .settled

/-- `ownReason` says that the error is the reason of the signal or an `AbortError`. -/
def reportPoolError (p : DelayPool) (task : Nat) (ownReason : Bool) (path : ErrorPath) : DelayPool :=
  if (p.objects task).signal ∈ p.aborted ∧ ownReason = true then p.reported task path
  else p.toStage task (.reporting path)

def stop (p : DelayPool) : DelayPool :=
  if p.state = .stopped then { p with stopCalls := p.stopCalls ++ [.fulfilled] }
  else if p.drain = .absent then
    if p.tasks = [] then { p with state := .stopped, stopCalls := p.stopCalls ++ [.fulfilled] }
    else { p with state := .stopping, drain := .pending, stopCalls := p.stopCalls ++ [.waiting] }
  else { p with stopCalls := p.stopCalls ++ [.waiting] }

/-- `wake` is the timeout going off, at any time; the rest is as in the other pools. -/
inductive Action where
  | start
  | delay (signal : Nat) (deadline : Option DueTime) (delayMs : Number)
  | abort (signal : Nat)
  | wake
  | run (task : Nat)
  | throws (task : Nat) (ownReason : Bool)
  | returns (task : Nat)
  | settles (task : Nat) (rejection : Option Bool)
  | reporterEnds (task : Nat) (throws : Bool)
  | completes (task : Nat)
  | stop
  | drained (call : Nat)
  | gaveUp (call : Nat)

/-- An operation that throws or rejects has changed nothing. -/
def orUnchanged (p : DelayPool) : Except DelayError DelayPool → DelayPool
  | .ok q => q
  | .error _ => p

def step (p : DelayPool) : Action → Option DelayPool
  | .start => some (p.orUnchanged p.start)
  | .delay signal deadline delayMs => some (p.orUnchanged (delay clock p signal deadline delayMs))
  | .abort signal => if signal ∈ p.aborted then none else some (abort clock p signal)
  | .wake => if p.timer.isSome then some (wake clock p) else none
  | .run task =>
    if p.stage task = .scheduled then
      some { p.toStage task .executing with executed := task :: p.executed }
    else none
  | .throws task ownReason =>
    if p.stage task = .executing then some (p.reportPoolError task ownReason .thrown) else none
  | .returns task => if p.stage task = .executing then some (p.toStage task .awaiting) else none
  | .settles task rejection =>
    if p.stage task = .awaiting then
      match rejection with
      | none => some (p.toStage task .settled)
      | some ownReason => some (p.reportPoolError task ownReason .rejected)
    else none
  | .reporterEnds task _ =>
    match p.stage task with
    | .reporting path => some (p.reported task path)
    | _ => none
  | .completes task => if p.stage task = .settled then some (p.completeTask task) else none
  | .stop => some p.stop
  | .drained call =>
    if p.stopCalls[call]? = some .waiting ∧ p.drain = .resolved then
      some { p with stopCalls := p.stopCalls.set call .fulfilled }
    else none
  | .gaveUp call =>
    if p.stopCalls[call]? = some .waiting then
      some { p with stopCalls := p.stopCalls.set call .rejected }
    else none

/-- The pool `p` is reached from a new one. -/
def Reached (p : DelayPool) : Prop := ∃ name, Steps (step clock) Any { name } p

end Operations

end DelayPool

end Pools
