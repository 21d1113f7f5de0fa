import TsServiceLib.Library.Number
import TsServiceLib.Library.Transitions

/-!
The concurrency gate of a source endpoint. A request takes a slot or parks in
the queue of waiters; a request that ends wakes the head of the queue, and the
woken request looks at the limit again. A waiter of a Kafka endpoint is also
woken by its own signal, one of a custom endpoint is not. Neither passes on a
wake-up that it does not use.
-/
namespace Sources
open Transitions Numbers

inductive Endpoint where
  | kafka
  | custom
  deriving DecidableEq

def Endpoint.label : Endpoint → String
  | kafka => "Kafka"
  | custom => "custom"

/-- What `acquire` throws: an error of its own, or the reason of the signal. -/
inductive GateError where
  | error (message : String)
  | rangeError (message : String)
  | reason
  deriving DecidableEq

/-- `active` is the counter; `running` are the requests that hold a slot.
    `woken` are the requests whose wait has been resolved and which have not yet
    gone on: the wake-ups in flight. -/
structure Gate where
  stopped : Bool := false
  active : Nat := 0
  running : List Nat := []
  waiters : List Nat := []
  woken : List Nat := []
  aborted : List Nat := []
  failed : List (Nat × GateError) := []
  requests : Nat := 0

namespace Gate

/-- Resolve the wait of a request, unless that has been done. -/
def wake (g : Gate) (i : Nat) : Gate :=
  if i ∈ g.woken then g else { g with woken := g.woken ++ [i] }

def fail (g : Gate) (i : Nat) (error : GateError) : Gate := { g with failed := (i, error) :: g.failed }

/-- One turn of the loop in `acquire`. -/
def acquire (e : Endpoint) (concurrency : Number) (g : Gate) (i : Nat) : Gate :=
  if g.stopped = true ∨ i ∈ g.aborted then
    g.fail i (if i ∈ g.aborted then .reason else .error (e.label ++ " endpoint stopped"))
  else if concurrency.lt (.finite 0) ∨ concurrency.isSafeInteger = false then
    g.fail i (.rangeError (e.label ++ " endpoint concurrency must be a non-negative safe integer"))
  else if concurrency = .finite 0 ∨ (Number.finite g.active).lt concurrency then
    { g with active := g.active + 1, running := i :: g.running }
  else { g with waiters := g.waiters ++ [i] }

/-- `handle`: a request comes in, perhaps with a signal that has fired already. -/
def arrive (e : Endpoint) (concurrency : Number) (g : Gate) (aborted : Bool) : Gate :=
  if g.stopped then g
  else acquire e concurrency { g with
    requests := g.requests + 1
    aborted := if aborted then g.requests :: g.aborted else g.aborted } g.requests

/-- A woken waiter goes on. A waiter of a Kafka endpoint takes itself off the
    queue, where its signal has left it. -/
def resume (e : Endpoint) (concurrency : Number) (g : Gate) (i : Nat) : Option Gate :=
  if i ∈ g.woken then
    let left := { g with woken := g.woken.erase i }
    match e with
    | .kafka => some (acquire e concurrency { left with waiters := left.waiters.erase i } i)
    | .custom => some (acquire e concurrency left i)
  else none

/-- The `finally` of `handleOnce`. -/
def complete (g : Gate) (i : Nat) : Option Gate :=
  if i ∈ g.running then
    let left := { g with running := g.running.erase i, active := g.active - 1 }
    match g.waiters with
    | [] => some left
    | head :: rest => some ({ left with waiters := rest }.wake head)
  else none

def abort (e : Endpoint) (g : Gate) (i : Nat) : Option Gate :=
  if i < g.requests ∧ i ∉ g.aborted then
    let fired := { g with aborted := i :: g.aborted }
    if e = .kafka ∧ i ∈ g.waiters then some (fired.wake i) else some fired
  else none

/-- Stop admission: all waiters are woken. The custom endpoint cancels its
    tasks as well. -/
def stop (e : Endpoint) (g : Gate) : Gate :=
  let woken := g.waiters.foldl wake { g with stopped := true, waiters := [] }
  match e with
  | .kafka => woken
  | .custom => { woken with aborted := List.range g.requests }

/-- A start, once the tasks of the last one have drained. -/
def start (g : Gate) : Option Gate :=
  if g.running = [] ∧ g.waiters = [] ∧ g.woken = [] then some { g with stopped := false } else none

inductive Action where
  | arrive (aborted : Bool)
  | resume (i : Nat)
  | complete (i : Nat)
  | abort (i : Nat)
  | stop
  | start

def step (e : Endpoint) (concurrency : Number) (g : Gate) : Action → Option Gate
  | .arrive aborted => some (g.arrive e concurrency aborted)
  | .resume i => g.resume e concurrency i
  | .complete i => g.complete i
  | .abort i => g.abort e i
  | .stop => some (g.stop e)
  | .start => g.start

def Reached (e : Endpoint) (concurrency : Number) (ok : Gate → Action → Prop) (g : Gate) : Prop :=
  Steps (step e concurrency) ok {} g

end Gate

end Sources
