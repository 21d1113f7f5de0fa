import TsServiceLib.Library.Transitions
import Mathlib.Data.Finset.Basic

/-!
The listeners that the gRPC sources of an environment share. A start joins the
registered host or makes one, and a start that fails as well as a stop leaves its
host; whoever finds that nobody is left shuts the host down and takes the entry
out of the registry. One action is what runs between two awaits of a `start` or a
`stop`; the bindings, the deadlines and the calls are up to the environment.
-/
namespace GrpcListeners
open Transitions Function

inductive Ready where
  | pending
  | bound
  | failed
  deriving DecidableEq

/-- A `GrpcServerHost`. It is shut down from the moment that its server is told to. -/
structure Host where
  sources : Finset Nat := ∅
  ready : Ready := .pending
  closing : Bool := false
  shutDown : Bool := false

/-- Where a `startListening` is: it waits for its host, or in the failing branch,
    or it has settled. -/
inductive StartPhase where
  | waiting (host : Nat)
  | failing (host : Nat)
  | succeeded
  | rejected
  deriving DecidableEq

structure Start where
  source : Nat := 0
  phase : StartPhase := .rejected

/-- Where a `stopListening` is: it waits for the start of its source, if there was
    one, for the calls or for the server. -/
inductive StopPhase where
  | waiting (start : Option Nat)
  | draining (host : Nat)
  | closing (host : Nat)
  | done
  deriving DecidableEq

/-- `callers` are the calls of `stopAdmission` that await it. -/
structure Stop where
  source : Nat := 0
  phase : StopPhase := .done
  callers : Nat := 0

/-- The fields of a `GrpcJsDataSource`; `starting` and `stopping` are the promises. -/
structure Source where
  host : Option Nat := none
  starting : Option Nat := none
  stopping : Option Nat := none
  admitting : Bool := false
  calls : Nat := 0

structure State where
  registry : Option Nat := none
  hosts : Nat → Host := fun _ => {}
  nextHost : Nat := 0
  sources : Nat → Source := fun _ => {}
  starts : Nat → Start := fun _ => {}
  nextStart : Nat := 0
  stops : Nat → Stop := fun _ => {}
  nextStop : Nat := 0

/-- The host that a start or a stop has in a variable. -/
def StartPhase.carries : StartPhase → Option Nat
  | .waiting host => some host
  | .failing host => some host
  | _ => none

def StartPhase.settled : StartPhase → Bool
  | .succeeded => true
  | .rejected => true
  | _ => false

def StopPhase.carries : StopPhase → Option Nat
  | .draining host => some host
  | .closing host => some host
  | _ => none

namespace State

def setSource (s : State) (x : Nat) (content : Source) : State := { s with sources := update s.sources x content }

def setHost (s : State) (h : Nat) (content : Host) : State := { s with hosts := update s.hosts h content }

def setStart (s : State) (id : Nat) (phase : StartPhase) : State :=
  { s with starts := update s.starts id { s.starts id with phase := phase } }

def setStop (s : State) (id : Nat) (phase : StopPhase) : State :=
  { s with stops := update s.stops id { s.stops id with phase := phase } }

/-- `this.#host = host; host.sources.add(this)` -/
def enter (s : State) (x h : Nat) : State :=
  (s.setSource x { s.sources x with host := some h }).setHost h
    { s.hosts h with sources := insert x (s.hosts h).sources }

/-- `host.sources.delete(this); this.#host = undefined` -/
def exit (s : State) (x h : Nat) : State :=
  (s.setSource x { s.sources x with host := none }).setHost h { s.hosts h with sources := (s.hosts h).sources.erase x }

def setAdmitting (s : State) (x : Nat) (admitting : Bool) : State :=
  s.setSource x { s.sources x with admitting := admitting }

/-- The failing branch of `startListening` up to its await. -/
def failStart (s : State) (x h : Nat) : State := (s.setAdmitting x false).exit x h

/-- The promise of a new `startListening` goes to `#starting`. -/
def beginStart (s : State) (x : Nat) (phase : StartPhase) : State :=
  { s with
    sources := update s.sources x { s.sources x with starting := some s.nextStart }
    starts := update s.starts s.nextStart ⟨x, phase⟩
    nextStart := s.nextStart + 1 }

/-- A fresh host is registered, and its server begins to bind. -/
def createHost (s : State) : State :=
  { s with
    registry := some s.nextHost
    hosts := update s.hosts s.nextHost {}
    nextHost := s.nextHost + 1 }

/-- `startListening` up to its first await, once it has its host. The methods of
    the source can be registered or not. -/
def joinHost (s : State) (x h : Nat) (registers : Bool) : State :=
  if (s.hosts h).closing then s.beginStart x .rejected
  else if registers then ((s.enter x h).setAdmitting x true).beginStart x (.waiting h)
  else ((s.enter x h).failStart x h).beginStart x (.failing h)

def start (s : State) (x : Nat) (registers : Bool) : State :=
  if (s.sources x).host ≠ none ∨ (s.sources x).starting ≠ none ∨ (s.sources x).stopping ≠ none then s
  else
    match s.registry with
    | some h => s.joinHost x h registers
    | none => s.createHost.joinHost x s.nextHost registers

/-- The callback of `bindAsync`. -/
def binds (s : State) (h : Nat) (bound : Bool) : Option State :=
  if h < s.nextHost ∧ (s.hosts h).ready = .pending then
    some (s.setHost h { s.hosts h with ready := if bound then .bound else .failed })
  else none

/-- A `startListening` goes on after `await host.ready`. -/
def startReady (s : State) (id : Nat) : Option State :=
  match (s.starts id).phase with
  | .waiting h =>
    match (s.hosts h).ready with
    | .pending => none
    | .bound => some (s.setStart id .succeeded)
    | .failed => some ((s.failStart (s.starts id).source h).setStart id (.failing h))
  | _ => none

/-- The end of the failing branch. -/
def startFails (s : State) (id : Nat) : Option State :=
  match (s.starts id).phase with
  | .failing h =>
    if (s.hosts h).ready = .pending then none
    else if (s.hosts h).sources = ∅ then
      some ({ s.setHost h { s.hosts h with shutDown := true } with registry := none }.setStart id .rejected)
    else some (s.setStart id .rejected)
  | _ => none

/-- The `finally` of `start`. -/
def startReturns (s : State) (x : Nat) : Option State :=
  match (s.sources x).starting with
  | some id =>
    if (s.starts id).phase.settled then some (s.setSource x { s.sources x with starting := none }) else none
  | none => none

/-- A call of `stop`, which shares the `stopListening` under way. -/
def stop (s : State) (x : Nat) : State :=
  match (s.sources x).stopping with
  | some id => { s with stops := update s.stops id { s.stops id with callers := (s.stops id).callers + 1 } }
  | none =>
    { s with
      sources := update s.sources x { s.sources x with stopping := some s.nextStop }
      stops := update s.stops s.nextStop ⟨x, .waiting (s.sources x).starting, 1⟩
      nextStop := s.nextStop + 1 }

/-- The source leaves its host, and the last one closes it. -/
def leave (s : State) (id h : Nat) : State :=
  let left := s.exit (s.stops id).source h
  if (left.hosts h).sources ≠ ∅ then left.setStop id .done
  else (left.setHost h { left.hosts h with closing := true, shutDown := true }).setStop id (.closing h)

/-- A `stopListening` goes on once the start that it found has settled. -/
def stopBegins (s : State) (id : Nat) : Option State :=
  match (s.stops id).phase with
  | .waiting start =>
    if start.all fun other => (s.starts other).phase.settled then
      let x := (s.stops id).source
      match (s.sources x).host with
      | none => some (s.setStop id .done)
      | some h =>
        let refusing := s.setAdmitting x false
        if (s.sources x).calls ≠ 0 then some (refusing.setStop id (.draining h)) else some (refusing.leave id h)
    else none
  | _ => none

/-- The calls have ended, or they are cancelled at the deadline. -/
def stopDrained (s : State) (id : Nat) : Option State :=
  match (s.stops id).phase with
  | .draining h =>
    let x := (s.stops id).source
    some ((s.setSource x { s.sources x with calls := 0 }).leave id h)
  | _ => none

/-- The server has shut down, or it is forced to at the deadline. -/
def stopClosed (s : State) (id : Nat) : Option State :=
  match (s.stops id).phase with
  | .closing _ => some ({ s with registry := none }.setStop id .done)
  | _ => none

/-- The `finally` of a `stopAdmission`. -/
def stopReturns (s : State) (id : Nat) : Option State :=
  if (s.stops id).phase = .done ∧ 0 < (s.stops id).callers then
    some { s with
      stops := update s.stops id { s.stops id with callers := (s.stops id).callers - 1 }
      sources := update s.sources (s.stops id).source { s.sources (s.stops id).source with stopping := none } }
  else none

def callBegins (s : State) (x : Nat) : Option State :=
  if (s.sources x).admitting then some (s.setSource x { s.sources x with calls := (s.sources x).calls + 1 }) else none

def callEnds (s : State) (x : Nat) : Option State :=
  if 0 < (s.sources x).calls then some (s.setSource x { s.sources x with calls := (s.sources x).calls - 1 }) else none

end State

inductive Action where
  | start (source : Nat) (registers : Bool)
  | binds (host : Nat) (bound : Bool)
  | startReady (start : Nat)
  | startFails (start : Nat)
  | startReturns (source : Nat)
  | stop (source : Nat)
  | stopBegins (stop : Nat)
  | stopDrained (stop : Nat)
  | stopClosed (stop : Nat)
  | stopReturns (stop : Nat)
  | callBegins (source : Nat)
  | callEnds (source : Nat)
  deriving DecidableEq

def step (s : State) : Action → Option State
  | .start x registers => some (s.start x registers)
  | .binds h bound => s.binds h bound
  | .startReady id => s.startReady id
  | .startFails id => s.startFails id
  | .startReturns x => s.startReturns x
  | .stop x => some (s.stop x)
  | .stopBegins id => s.stopBegins id
  | .stopDrained id => s.stopDrained id
  | .stopClosed id => s.stopClosed id
  | .stopReturns id => s.stopReturns id
  | .callBegins x => s.callBegins x
  | .callEnds x => s.callEnds x

/-- A start or a stop that is under way has the host. -/
def UnderWay (s : State) (h : Nat) : Prop :=
  (∃ id, (s.starts id).phase.carries = some h) ∨ ∃ id, (s.stops id).phase.carries = some h

/-- A start makes a host only when no start and no stop is under way with an
    earlier one. -/
def Apart (s : State) : Action → Prop
  | .start _ _ => s.registry = none → ∀ h, ¬UnderWay s h
  | _ => True

/-- Reached in an environment whose sources have not started yet. -/
def ReachableWith (ok : State → Action → Prop) (s : State) : Prop := Steps step ok {} s

end GrpcListeners
