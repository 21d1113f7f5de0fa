import Mathlib.Data.List.Basic
import Mathlib.Logic.Function.Basic

/-!
The stops of the components of a service. A stop of a component is an
operation that lives on its own: callers that arrive while it is pending join
it, and a caller whose wait expired leaves it behind. Operations and joins are
kept here with the list of started components and the two maps that say which
operation a component has; who waits for them is the matter of the runtime.
-/
namespace Services

inductive Category where
  | dataSource | dataSink | managedDataConnector | storage | delayPool | taskPool
  | priorityTaskPool | component | httpServer | telemetry
  deriving DecidableEq

/-- A registered component. `stopAdmission` says that its lifecycle has the
    method of that name; the lifecycle of a managed connector always does. -/
structure RuntimeComponent where
  category : Category
  name : String
  stopAdmission : Bool
  managed : category = .managedDataConnector → stopAdmission = true

/-- A context object: one handed in by a caller, or the one made for the start. -/
inductive ContextRef where
  | startup
  | caller (id : Nat)
  deriving DecidableEq

/-- Which signals have fired and which deadlines have passed. The context of
    the start is that of its caller, aborted by the startup controller as well. -/
structure Contexts where
  aborted : List Nat := []
  expired : List Nat := []
  startContext : Nat := 0
  startupAborted : Bool := false

def Contexts.signalAborted (x : Contexts) : ContextRef → Bool
  | .startup => x.startupAborted || decide (x.startContext ∈ x.aborted)
  | .caller id => decide (id ∈ x.aborted)

def Contexts.pastDeadline (x : Contexts) : ContextRef → Bool
  | .startup => decide (x.startContext ∈ x.expired)
  | .caller id => decide (id ∈ x.expired)

/-- `cancelled()`; it covers `remainingMs() === 0`, which is a passed deadline. -/
def Contexts.cancelled (x : Contexts) (context : ContextRef) : Bool :=
  x.signalAborted context || x.pastDeadline context

/-- What a stop may be rejected with: a drain timeout or an exceeded deadline,
    the reason of the signal it was given (or an error caused by it), or
    something else. -/
inductive Failure where
  | timeout
  | reason
  | other
  deriving DecidableEq

/-- A stop waits for its microtask, then for the lifecycle, then for its own
    handlers; `none` is a fulfilment. -/
inductive OperationStatus where
  | queued
  | invoked
  | answered (failure : Option Failure)
  | settled (failure : Option Failure)
  deriving DecidableEq

structure Operation where
  component : Nat
  admissionOnly : Bool
  context : ContextRef
  status : OperationStatus
  deriving DecidableEq

inductive Ref where
  | operation (index : Nat)
  | join (index : Nat)
  deriving DecidableEq

/-- A promise derived from an operation of another context: it catches the
    operation, and follows the stop it may have asked for again. -/
inductive JoinStatus where
  | catching (operation : Nat)
  | following (ref : Ref)
  | settled (failure : Option Failure)
  deriving DecidableEq

structure Join where
  component : Nat
  admission : Bool
  context : ContextRef
  status : JoinStatus
  deriving DecidableEq

/-- `completed` is history: the components whose start has completed, in order. -/
structure Ledger where
  components : List RuntimeComponent := []
  started : List Nat := []
  completed : List Nat := []
  admissionStops : Nat → Option Nat := fun _ => none
  componentStops : Nat → Option Nat := fun _ => none
  operation : Nat → Operation := fun _ => ⟨0, false, .startup, .queued⟩
  operations : Nat := 0
  join : Nat → Join := fun _ => ⟨0, false, .startup, .catching 0⟩
  joins : Nat := 0

namespace Ledger

def hasStopAdmission (l : Ledger) (c : Nat) : Bool :=
  (l.components[c]?).any RuntimeComponent.stopAdmission

def pending (l : Ledger) (admissionOnly : Bool) (c : Nat) : Option Nat :=
  if admissionOnly then l.admissionStops c else l.componentStops c

def setPending (l : Ledger) (admissionOnly : Bool) (c : Nat) (entry : Option Nat) : Ledger :=
  if admissionOnly then { l with admissionStops := Function.update l.admissionStops c entry }
  else { l with componentStops := Function.update l.componentStops c entry }

def openOperation (l : Ledger) (operation : Operation) : Ledger :=
  { l with operation := Function.update l.operation l.operations operation, operations := l.operations + 1 }

def openJoin (l : Ledger) (join : Join) : Ledger :=
  { l with join := Function.update l.join l.joins join, joins := l.joins + 1 }

def stopComponent (l : Ledger) (c : Nat) (context : ContextRef) (admission : Bool) : Ref × Ledger :=
  let admissionOnly := admission && l.hasStopAdmission c
  match l.pending admissionOnly c with
  | some i =>
    if (l.operation i).context = context then (.operation i, l)
    else (.join l.joins, l.openJoin ⟨c, admission, context, .catching i⟩)
  | none =>
    (.operation l.operations,
      (l.openOperation ⟨c, admissionOnly, context, .queued⟩).setPending admissionOnly c (some l.operations))

def setStatus (l : Ledger) (i : Nat) (status : OperationStatus) : Ledger :=
  { l with operation := Function.update l.operation i { l.operation i with status := status } }

def setJoin (l : Ledger) (j : Nat) (status : JoinStatus) : Ledger :=
  { l with join := Function.update l.join j { l.join j with status := status } }

/-- The microtask that calls `stop` or `stopAdmission` of the lifecycle. -/
def invoke (l : Ledger) (i : Nat) : Option Ledger :=
  if i < l.operations ∧ (l.operation i).status = .queued then some (l.setStatus i .invoked) else none

def answer (l : Ledger) (i : Nat) (failure : Option Failure) : Option Ledger :=
  if i < l.operations ∧ (l.operation i).status = .invoked then
    some (l.setStatus i (.answered failure))
  else none

/-- What the handlers of an operation do to the lists. -/
def handled (l : Ledger) (i : Nat) (failure : Option Failure) : Ledger :=
  let operation := l.operation i
  match failure with
  | none =>
    if operation.admissionOnly then l
    else
      { l with
        started := l.started.erase operation.component
        admissionStops := Function.update l.admissionStops operation.component none }
  | some _ =>
    if l.pending operation.admissionOnly operation.component = some i then
      l.setPending operation.admissionOnly operation.component none
    else l

def settle (l : Ledger) (i : Nat) : Option Ledger :=
  if i < l.operations then
    match (l.operation i).status with
    | .answered failure => some ((l.handled i failure).setStatus i (.settled failure))
    | _ => none
  else none

def outcome (l : Ledger) : Ref → Option (Option Failure)
  | .operation i =>
    match (l.operation i).status with
    | .settled failure => some failure
    | _ => none
  | .join j =>
    match (l.join j).status with
    | .settled failure => some failure
    | _ => none

/-- Only the wait of the earlier caller failed, and this one is still alive. -/
def retries (x : Contexts) (existing context : ContextRef) (failure : Failure) : Bool :=
  let cancellationError := match failure with
    | .timeout => true
    | .reason => x.signalAborted existing
    | .other => false
  x.cancelled existing && cancellationError && !x.cancelled context

/-- The `catch` of a joined operation. -/
def rejoin (l : Ledger) (x : Contexts) (j : Nat) : Option Ledger :=
  if j < l.joins then
    match (l.join j).status with
    | .catching i =>
      match (l.operation i).status with
      | .settled none => some (l.setJoin j (.settled none))
      | .settled (some failure) =>
        if retries x (l.operation i).context (l.join j).context failure then
          let again := l.stopComponent (l.join j).component (l.join j).context (l.join j).admission
          some (again.2.setJoin j (.following again.1))
        else some (l.setJoin j (.settled (some failure)))
      | _ => none
    | _ => none
  else none

/-- The joined promise takes over the outcome of the one it follows. -/
def follow (l : Ledger) (j : Nat) : Option Ledger :=
  if j < l.joins then
    match (l.join j).status with
    | .following ref => (l.outcome ref).map fun failure => l.setJoin j (.settled failure)
    | _ => none
  else none

/-- A start of the component has completed. -/
def complete (l : Ledger) (c : Nat) : Ledger :=
  { l with started := l.started ++ [c], completed := l.completed ++ [c] }

end Ledger

end Services
