import TsServiceLib.Library.Transitions
import Mathlib.Data.List.Nodup
import Mathlib.Logic.Function.Basic

/-!
The registry of running tasks. A step is one synchronous stretch: a call of the
registry, the return of the synchronous part of a task, the reaction to a
settled promise, or the return of an error reporter. User code runs while a
task starts and while the reporter is called; these stand on a stack, and may
call the registry again. Reactions and the continuations of `drain` come from
the queue of microtasks, so only when nothing is on the stack.
-/
namespace TaskRegistries
open Transitions

/-- What can be thrown: an `Error`, which may be named `AbortError`, some other
    value, or the error that `errorFromUnknown` makes of one. -/
inductive Thrown where
  | error (object : Nat) (abortError : Bool)
  | value (value : Nat)
  | made (value : Nat)
  deriving DecidableEq

def errorFromUnknown : Thrown → Thrown
  | .value value => .made value
  | error => error

inductive Outcome (T : Type) where
  | fulfilled (value : T)
  | rejected (reason : Thrown)

/-- The methods that admit a task, with the external signal they are given. -/
inductive Entry where
  | admitTask (external : Option Nat)
  | admitDetached (external : Option Nat)
  | admitDetachedWithContext (context signal : Nat)
  deriving DecidableEq

namespace Entry

def external : Entry → Option Nat
  | .admitTask external => external
  | .admitDetached external => external
  | .admitDetachedWithContext _ signal => some signal

def context : Entry → Option Nat
  | .admitDetachedWithContext context _ => some context
  | _ => none

def detached : Entry → Bool
  | .admitTask _ => false
  | _ => true

end Entry

/-- `reason` is why the signal of the task was aborted; `promise` is what the
    task has returned, and what `admit` hands to its caller. -/
structure Task (T : Type) where
  entry : Entry
  reason : Option Thrown := none
  promise : Option (Outcome T) := none

/-- A task that throws has the promise of a rejection. -/
def Task.returned {T : Type} (task : Task T) (threw : Option Thrown) : Task T :=
  match threw with
  | some error => { task with promise := some (.rejected (errorFromUnknown error)) }
  | none => task

/-- User code that is being run: the synchronous part of a task, or the error
    reporter, called for a task or for a task that was refused. -/
inductive Frame where
  | starting (task : Nat)
  | reporting (task : Nat)
  | refusing
  deriving DecidableEq

def Frame.started : Frame → Option Nat
  | .starting task => some task
  | _ => none

def Frame.reported : Frame → Option Nat
  | .reporting task => some task
  | _ => none

inductive DrainPhase where
  | waiting (snapshot : List Nat)
  | resolved
  | timedOut
  deriving DecidableEq

/-- A call of `drain`. `timed` is whether it was given a timeout; `outside` is
    history: no task was in its synchronous part at the call. -/
structure Drain where
  timed : Bool
  outside : Bool
  phase : DrainPhase

/-- `reportUnhandledTaskError` gives the error to the host. -/
inductive Report where
  | refused (context : Option Nat)
  | failed (task : Nat) (error : Thrown) (context : Option Nat)
  | unhandled (task : Nat) (error : Thrown)

/-- `hasReporter` is whether the registry was given an error reporter, and
    `aborted` are the reasons of the external signals. `removed` and `reports`
    are history, newest first. -/
structure State (T : Type) where
  hasReporter : Bool
  accepting : Bool := true
  cancelled : Option Thrown := none
  aborted : Nat → Option Thrown := fun _ => none
  tasks : List Nat := []
  nextId : Nat := 1
  task : Nat → Task T := fun _ => { entry := .admitTask none }
  stack : List Frame := []
  drains : Nat → Drain := fun _ => ⟨false, false, .timedOut⟩
  nextDrain : Nat := 0
  removed : List Nat := []
  reports : List Report := []

section Operations
variable {T : Type} (s : State T)

namespace State

/-- The tasks in their synchronous part. -/
def starting : List Nat := s.stack.filterMap Frame.started

def reporting : List Nat := s.stack.filterMap Frame.reported

def log (report : Report) : State T := { s with reports := report :: s.reports }

def push (frame : Frame) : State T := { s with stack := frame :: s.stack }

end State

/-- `combineAbortSignals` of the own signal and an external one. -/
def signalReason (external : Option Nat) : Option Thrown :=
  match s.cancelled with
  | some reason => some reason
  | none => external.bind s.aborted

/-- The beginning of `startTask`, up to the call of the task. -/
def startTask (entry : Entry) : State T :=
  { s with
    task := Function.update s.task s.nextId { entry, reason := signalReason s entry.external }
    nextId := s.nextId + 1
    stack := .starting s.nextId :: s.stack }

def admitTask (entry : Entry) : State T :=
  if s.accepting then startTask s entry
  -- `admit` returns a rejected promise, the others call the reporter
  else if entry.detached && s.hasReporter then (s.log (.refused entry.context)).push .refusing
  else s

/-- The rest of `startTask`: the synchronous part has returned a promise or has thrown. -/
def taskReturns (threw : Option Thrown) : Option (State T) :=
  match s.stack with
  | .starting id :: below =>
    some { s with
      task := Function.update s.task id ((s.task id).returned threw)
      tasks := s.tasks ++ [id]
      stack := below }
  | _ => none

/-- `tasks.delete(id)` -/
def delete (id : Nat) : State T := { s with tasks := s.tasks.erase id, removed := id :: s.removed }

def isTaskCancellation (value : Thrown) (reason : Option Thrown) : Bool :=
  match reason with
  | none => false
  | some reason => decide (value = reason) || match value with
    | .error _ abortError => abortError
    | _ => false

def settle (id : Nat) (outcome : Outcome T) : Option (State T) :=
  if id ∈ s.tasks ∧ (s.task id).promise.isNone = true then
    some { s with task := Function.update s.task id { s.task id with promise := some outcome } }
  else none

/-- The reaction to the settled promise of a task, up to the call of the reporter. -/
def react (id : Nat) : Option (State T) :=
  if s.stack = [] ∧ id ∈ s.tasks then
    let task := s.task id
    match task.promise with
    | none => none
    | some (.fulfilled _) => some (delete s id)
    | some (.rejected value) =>
      if isTaskCancellation value task.reason then some (delete s id)
      else if s.hasReporter then
        some ((s.log (.failed id (errorFromUnknown value) task.entry.context)).push (.reporting id))
      else if task.entry.detached then some (delete (s.log (.unhandled id (errorFromUnknown value))) id)
      else some (delete s id)
  else none

/-- The reporter has returned or thrown. What it throws for a task is caught
    and dropped; for a refused task it goes to the caller. -/
def reporterReturns (_threw : Bool) : Option (State T) :=
  match s.stack with
  | .reporting id :: below => some (delete { s with stack := below } id)
  | .refusing :: below => some { s with stack := below }
  | _ => none

def stopAdmission : State T := { s with accepting := false }

/-- The tasks whose signal hears of an abort take the reason, if they have none. -/
def abortTasks (hears : Task T → Bool) (reason : Thrown) : Nat → Task T := fun id =>
  if hears (s.task id) then { s.task id with reason := (s.task id).reason.or (some reason) } else s.task id

/-- `controller.abort` does nothing the second time. -/
def cancel (reason : Thrown) : State T :=
  match s.cancelled with
  | some _ => stopAdmission s
  | none =>
    { stopAdmission s with cancelled := some reason, task := abortTasks s (fun _ => true) reason }

def abortExternal (signal : Nat) (reason : Thrown) : State T :=
  match s.aborted signal with
  | some _ => s
  | none =>
    { s with
      aborted := Function.update s.aborted signal (some reason)
      task := abortTasks s (fun task => decide (task.entry.external = some signal)) reason }

/-- The head of the loop of `drain`. -/
def drainLoop : DrainPhase := if s.tasks = [] then .resolved else .waiting s.tasks

def drain (timed : Bool) : State T :=
  { s with
    drains := Function.update s.drains s.nextDrain ⟨timed, decide (s.starting = []), drainLoop s⟩
    nextDrain := s.nextDrain + 1 }

def setDrain (d : Nat) (phase : DrainPhase) : State T :=
  { s with drains := Function.update s.drains d { s.drains d with phase } }

/-- The handlers of a snapshot have all run. -/
def drainResumes (d : Nat) : Option (State T) :=
  match (s.drains d).phase with
  | .waiting snapshot =>
    if s.stack = [] ∧ ∀ id ∈ snapshot, id ∈ s.removed then some (setDrain s d (drainLoop s)) else none
  | _ => none

def drainExpires (d : Nat) : Option (State T) :=
  match (s.drains d).phase with
  | .waiting _ => if s.stack = [] ∧ (s.drains d).timed = true then some (setDrain s d .timedOut) else none
  | _ => none

end Operations

inductive Action (T : Type) where
  | admitTask (entry : Entry)
  | taskReturns (threw : Option Thrown)
  | settle (id : Nat) (outcome : Outcome T)
  | react (id : Nat)
  | reporterReturns (threw : Bool)
  | stopAdmission
  | cancel (reason : Thrown)
  | abortExternal (signal : Nat) (reason : Thrown)
  | drain (timed : Bool)
  | drainResumes (d : Nat)
  | drainExpires (d : Nat)

def step {T : Type} (s : State T) : Action T → Option (State T)
  | .admitTask entry => some (admitTask s entry)
  | .taskReturns threw => taskReturns s threw
  | .settle id outcome => settle s id outcome
  | .react id => react s id
  | .reporterReturns threw => reporterReturns s threw
  | .stopAdmission => some (stopAdmission s)
  | .cancel reason => some (cancel s reason)
  | .abortExternal signal reason => some (abortExternal s signal reason)
  | .drain timed => some (drain s timed)
  | .drainResumes d => drainResumes s d
  | .drainExpires d => drainExpires s d

def Reachable {T : Type} (s : State T) : Prop := ∃ hasReporter, Steps step Any { hasReporter } s

end TaskRegistries
