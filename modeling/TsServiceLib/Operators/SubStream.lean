import TsServiceLib.Library.EventLog
import TsServiceLib.Library.Transitions
import TsServiceLib.Operators.LocalValues
import Mathlib.Logic.Function.Basic

/-!
The calls of one SubStream. A call hands what the result source emits to its
collector, one callback at a time; a delivery that comes while a callback is
active waits on the promise `#active` and tries again when that has settled.
The promise jobs are explicit and run in the order in which they were queued,
among the jobs of other code. Other code (the caller, the body, the collectors)
acts whenever it runs: in a job of its own and in the synchronous part of a
collector callback.
-/
namespace SubStreams
open Function Transitions LocalValues

/-- What a call, or the `consume` that made it, may end with. -/
inductive Failure where
  | cancelled
  | collector (error : Nat)
  | body (error : Nat)
  | environment (error : Nat)
  deriving DecidableEq

/-- Where `consume` is. It awaits the promise of the body, then the completion
    of the call; `closing` awaits the promise that `#active` held in `close`. -/
inductive Phase where
  | body
  | bodyEnded (failure : Option Failure)
  | completing
  | closing (awaited : Option Nat) (outcome : Option Failure)
  | returned (awaited : Option Nat) (outcome : Option Failure)
  deriving DecidableEq

/-- A `SubStreamCall` with the `consume` that made it. `caller` is the context
    that the call was made under, `context` is the field `#context`. -/
structure SubStreamCall where
  caller : MessageContext := .root 0
  context : Option MessageContext := none
  collector : Bool := false
  active : Option Nat := none
  closed : Bool := true
  failure : Option Failure := none
  phase : Phase := .returned none none

structure Emission (V : Type) where
  context : MessageContext
  value : V

/-- How far the promise of a callback is, together with the ones made from it. -/
inductive Stage where
  | pending
  | settling
  | settled
  deriving DecidableEq

/-- A collector callback that returned a promise. -/
structure Callback where
  call : Nat := 0
  emission : Nat := 0
  stage : Stage := .settled

/-- What the promise of a callback settles to. -/
inductive Outcome where
  | done (enough : Bool)
  | failed (error : Nat)
  deriving DecidableEq

/-- `complete.then(…).finally(…)` takes five jobs one after the other before it
    settles: the handlers of `then`, the one of `finally`, and the three by
    which `finally` passes the outcome on. `wake` is a delivery that waited. -/
inductive Job where
  | foreign
  | react (callback : Nat) (outcome : Outcome)
  | clear (callback : Nat) (fulfilled : Bool)
  | relay (callback : Nat)
  | adopt (callback : Nat) (fulfilled : Bool)
  | settle (callback : Nat) (fulfilled : Bool)
  | wake (call emission : Nat)
  deriving DecidableEq

inductive Frame where
  | foreign
  | callback (call emission : Nat)
  deriving DecidableEq

/-- What can be seen of a run, newest first. -/
inductive Event where
  | emitted (emission : Nat)
  | started (call emission : Nat)
  | ended (call emission : Nat)
  | dropped (call emission : Nat)
  | closed (call : Nat)
  | cancelled (scope : Nat)
  | returned (call : Nat)
  deriving DecidableEq

/-- What a synchronous collector callback ends with. -/
inductive Reply where
  | returns (enough : Bool)
  | promises
  | throws (error : Nat)
  deriving DecidableEq

inductive Action (V : Type) where
  | post
  | watch (callback : Nat)
  | run
  | leave
  | emit (context : MessageContext) (value : V)
  | consume (caller : MessageContext)
  | answer (reply : Reply)
  | settle (callback : Nat) (outcome : Outcome)
  | abort (scope : Nat)
  | expire (scope : Nat)
  | signalled (call : Nat)
  | bodyEnds (call : Nat) (error : Option Nat)
  | resume (call : Nat)
  | interrupt (call : Nat) (error : Nat)

structure State (V : Type) where
  calls : Nat := 0
  call : Nat → SubStreamCall := fun _ => {}
  emissions : List (Emission V) := []
  callbacks : Nat := 0
  callback : Nat → Callback := fun _ => {}
  reactions : List (Nat × Job) := []
  jobs : List Job := []
  stack : List Frame := []
  aborted : List Nat := []
  expired : List Nat := []
  log : List Event := []

variable {V : Type}

def initial (V : Type) : State V := {}

namespace State

def callers (s : State V) : Callers := fun c => if c < s.calls then some (s.call c).caller else none

/-- `context.cancelled()`: the signal is aborted or the deadline has passed. -/
def cancelled (s : State V) (context : MessageContext) : Bool :=
  s.aborted.contains context.scope || s.expired.contains context.scope

def setCall (s : State V) (c : Nat) (call : SubStreamCall) : State V :=
  { s with call := update s.call c call }

def enter (s : State V) (e : Event) : State V := { s with log := e :: s.log }

def queue (s : State V) (jobs : List Job) : State V := { s with jobs := s.jobs ++ jobs }

/-- `SubStreamCall.finish` -/
def finish (s : State V) (c : Nat) (error : Option Failure) : State V :=
  if (s.call c).closed then s
  else (s.setCall c { s.call c with closed := true, failure := error, collector := false, context := none }).enter
    (.closed c)

/-- `SubStreamCall.deliver`, as far as the call of `collector.out`. -/
def deliver (s : State V) (c e : Nat) : State V :=
  if (s.call c).closed then s.enter (.dropped c e)
  else
    match (s.call c).active with
    | some k => { s with reactions := s.reactions ++ [(k, .wake c e)] }
    | none =>
      match (s.call c).context, (s.call c).collector with
      | some context, true =>
        if s.cancelled context then (s.finish c (some .cancelled)).enter (.dropped c e)
        else { s.enter (.started c e) with stack := .callback c e :: s.stack }
      | _, _ => s.enter (.dropped c e)

/-- `ResultLink.consume` -/
def emit (s : State V) (context : MessageContext) (value : V) : State V :=
  let e := s.emissions.length
  let noted := { s.enter (.emitted e) with emissions := s.emissions ++ [⟨context, value⟩] }
  match context.localValue .call with
  | some c => noted.deliver c e
  | none => noted

/-- The rest of `deliver`, once `collector.out` has returned or thrown. -/
def answer (s : State V) (c e : Nat) : Reply → State V
  | .returns enough =>
    let ended := s.enter (.ended c e)
    if enough then ended.finish c none else ended
  | .promises =>
    { s.setCall c { s.call c with active := some s.callbacks } with
      callbacks := s.callbacks + 1
      callback := update s.callback s.callbacks ⟨c, e, .pending⟩ }
  | .throws error => (s.enter (.ended c e)).finish c (some (.collector error))

/-- The constructor of a `SubStreamCall`, and `consume` as far as the body. -/
def consume (s : State V) (caller : MessageContext) : State V :=
  let c := s.calls
  let made := { s.setCall c { caller := caller, context := some caller, collector := true, active := none,
                              closed := false, failure := none, phase := .body } with calls := c + 1 }
  if s.cancelled caller then
    let failed := made.finish c (some .cancelled)
    failed.setCall c { failed.call c with phase := .closing none (some .cancelled) }
  else made

/-- `SubStreamCall.close`, with the outcome that `consume` will have. -/
def close (s : State V) (c : Nat) (outcome : Option Failure) : State V :=
  let finished := s.finish c none
  finished.setCall c { finished.call c with phase := .closing (finished.call c).active outcome }

def stageOf (s : State V) (k : Nat) (stage : Stage) : State V :=
  { s with callback := update s.callback k { s.callback k with stage := stage } }

/-- A rejected promise passes its waiting deliveries by. -/
def passes (fulfilled : Bool) : Job → Bool
  | .wake _ _ => fulfilled
  | _ => true

def runJob (s : State V) : Job → State V
  | .foreign => { s with stack := .foreign :: s.stack }
  | .react k (.done enough) =>
    (if enough then s.finish (s.callback k).call none else s).queue [.clear k true]
  | .react k (.failed error) => (s.finish (s.callback k).call (some (.collector error))).queue [.clear k false]
  | .clear k fulfilled =>
    let c := (s.callback k).call
    (s.setCall c { s.call c with active := none }).queue [.relay k, .adopt k fulfilled]
  | .relay _ => s
  | .adopt k fulfilled => s.queue [.settle k fulfilled]
  | .settle k fulfilled =>
    let woken := (s.reactions.filter fun r => r.1 = k).map Prod.snd
    { (s.stageOf k .settled).queue (woken.filter (passes fulfilled)) with
      reactions := s.reactions.filter fun r => r.1 ≠ k }
  | .wake c e => s.deliver c e

/-- `consume` goes on from where it awaits something that has settled. How many
    jobs that takes is left open. -/
def resume (s : State V) (c : Nat) : Option (State V) :=
  match (s.call c).phase with
  | .body => none
  | .bodyEnded none => some (s.setCall c { s.call c with phase := .completing })
  | .bodyEnded (some failure) => some (s.close c (some failure))
  | .completing => if (s.call c).closed then some (s.close c (s.call c).failure) else none
  | .closing awaited outcome =>
    if ∀ k ∈ awaited, (s.callback k).stage = .settled then
      some ((s.setCall c { s.call c with phase := .returned awaited outcome }).enter (.returned c))
    else none
  | .returned _ _ => none

end State

open State

/-- One action. Other code acts while it is running; time passes, and promises
    of its own settle, whenever they do. -/
def step (s : State V) : Action V → Option (State V)
  | .post => some (s.queue [.foreign])
  | .watch k =>
    if k < s.callbacks ∧ (s.callback k).stage ≠ .settled then
      some { s with reactions := s.reactions ++ [(k, .foreign)] }
    else none
  | .run =>
    match s.stack, s.jobs with
    | [], job :: rest => some ({ s with jobs := rest }.runJob job)
    | _, _ => none
  | .leave =>
    match s.stack with
    | .foreign :: below => some { s with stack := below }
    | _ => none
  | .emit context value =>
    if s.stack ≠ [] ∧ issued s.callers context = true then some (s.emit context value) else none
  | .consume caller =>
    if s.stack ≠ [] ∧ issued s.callers caller = true then some (s.consume caller) else none
  | .answer reply =>
    match s.stack with
    | .callback c e :: below => some ({ s with stack := below }.answer c e reply)
    | _ => none
  | .settle k outcome =>
    if k < s.callbacks ∧ (s.callback k).stage = .pending then
      let callback := s.callback k
      some (((s.stageOf k .settling).queue [.react k outcome]).enter (.ended callback.call callback.emission))
    else none
  | .abort scope => some ({ s with aborted := scope :: s.aborted }.enter (.cancelled scope))
  | .expire scope => some ({ s with expired := scope :: s.expired }.enter (.cancelled scope))
  | .signalled c =>
    if c < s.calls ∧ s.aborted.contains (s.call c).caller.scope then some (s.finish c (some .cancelled)) else none
  | .bodyEnds c error =>
    if (s.call c).phase = .body then
      some (s.setCall c { s.call c with phase := .bodyEnded (error.map .body) })
    else none
  | .resume c => if s.stack = [] then s.resume c else none
  | .interrupt c error =>
    if s.stack = [] ∧ (s.call c).phase = .completing then some (s.close c (some (.environment error))) else none

end SubStreams
