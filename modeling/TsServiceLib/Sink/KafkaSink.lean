import TsServiceLib.Library.Transitions
import Mathlib.Data.Finset.Basic

/-!
A Kafka data sink: its producer, and the deliveries that run detached through a
task registry. A send that fails has its producer replaced, and the sends that fail
with the same producer share one recovery. One action is what runs between two
awaits; the broker, the endpoints, the partitioner and the callers take part in any
order.
-/
namespace KafkaSinks
open Transitions Function

/-- `disconnects` are the calls of `disconnect`, `replacements` those that took the
    producer's place. -/
structure Producer where
  connected : Bool := false
  disconnects : Nat := 0
  replacements : Nat := 0

/-- What a `start` finds in the configuration: no endpoint that is enabled, something
    that throws before the admin client, or what it needs. -/
inductive Setup where
  | disabled
  | broken
  | complete
  deriving DecidableEq

/-- What comes of the admin client: a failure, no producer because the factory throws,
    or a producer. -/
inductive Prepared where
  | failed
  | unmade
  | made
  deriving DecidableEq

inductive StartPhase where
  | preparing
  | connecting (producer : Nat)
  | activating (producer : Nat)
  | failing (producer : Nat)
  | disconnecting (producer : Nat)
  | settled (ok : Bool)
  deriving DecidableEq

inductive StopPhase where
  | stopping
  | draining (producer : Nat)
  | flushing (producer : Nat)
  | disconnecting
  | settled
  deriving DecidableEq

/-- `replaceProducer`: it connects the replacement, and then disconnects one of the two. -/
inductive RecoveryPhase where
  | connecting
  | disconnecting
  | settled
  deriving DecidableEq

structure Recovery where
  failed : Nat := 0
  replacement : Nat := 0
  phase : RecoveryPhase := .settled

/-- Where the task of a send is. One that was not admitted is dropped. -/
inductive SendPhase where
  | dropped
  | selecting
  | sending (producer : Nat)
  | recovering (recovery : Option Nat) (owner : Bool)
  | failing
  | delivering
  | finished
  deriving DecidableEq

/-- The promise of a `sendSync`. -/
inductive Settlement where
  | pending
  | resolved
  | rejected
  deriving DecidableEq

/-- `callbacks` are the calls of `onDelivery`. -/
structure Send where
  sync : Bool := false
  phase : SendPhase := .finished
  callbacks : Nat := 0
  promise : Settlement := .pending

structure State where
  started : Bool := false
  producer : Option Nat := none
  producers : Nat → Producer := fun _ => {}
  nextProducer : Nat := 0
  producerRecovery : Option Nat := none
  recoveries : Nat → Recovery := fun _ => {}
  nextRecovery : Nat := 0
  starts : Nat → StartPhase := fun _ => .settled false
  nextStart : Nat := 0
  stops : Nat → StopPhase := fun _ => .settled
  nextStop : Nat := 0
  accepting : Bool := true
  sends : Nat → Send := fun _ => {}
  nextSend : Nat := 0
  tasks : Finset Nat := ∅

namespace Send

/-- The promise of `sendSync` settles once. -/
def settle (x : Send) (ok : Bool) : Send :=
  { x with promise := if x.sync ∧ x.promise = .pending then if ok then .resolved else .rejected else x.promise }

def deliver (x : Send) (ok : Bool) : Send := { x.settle ok with phase := .delivering, callbacks := x.callbacks + 1 }

end Send

namespace State

def setStart (s : State) (id : Nat) (phase : StartPhase) : State := { s with starts := update s.starts id phase }

def setStop (s : State) (id : Nat) (phase : StopPhase) : State := { s with stops := update s.stops id phase }

def setRecovery (s : State) (r : Nat) (phase : RecoveryPhase) : State :=
  { s with recoveries := update s.recoveries r { s.recoveries r with phase := phase } }

def setSend (s : State) (i : Nat) (content : Send) : State := { s with sends := update s.sends i content }

def setPhase (s : State) (i : Nat) (phase : SendPhase) : State := s.setSend i { s.sends i with phase := phase }

def setProducer (s : State) (p : Nat) (content : Producer) : State := { s with producers := update s.producers p content }

def connect (s : State) (p : Nat) : State := s.setProducer p { s.producers p with connected := true }

def disconnect (s : State) (p : Nat) : State :=
  s.setProducer p { s.producers p with disconnects := (s.producers p).disconnects + 1 }

/-- `factory.producer` -/
def makeProducer (s : State) : State :=
  { s with producers := update s.producers s.nextProducer {}, nextProducer := s.nextProducer + 1 }

/-- A call of `start` up to its first await. -/
def start (s : State) (setup : Setup) : State :=
  let begun := { s with nextStart := s.nextStart + 1 }
  if s.started then begun.setStart s.nextStart (.settled false)
  else
    match setup with
    | .disabled => { begun.setStart s.nextStart (.settled true) with started := true }
    | .broken => { begun.setStart s.nextStart (.settled false) with started := true }
    | .complete => { begun.setStart s.nextStart .preparing with started := true }

/-- The admin client is done with. -/
def prepared (s : State) (id : Nat) (outcome : Prepared) : Option State :=
  match s.starts id with
  | .preparing =>
    match outcome with
    | .failed => some { s.setStart id (.settled false) with started := false }
    | .unmade => some (s.setStart id (.settled false))
    | .made => some (s.makeProducer.setStart id (.connecting s.nextProducer))
  | _ => none

/-- The `catch` of `start` up to its first await. -/
def failStart (s : State) (id p : Nat) : State := { s.setStart id (.failing p) with started := false, producer := none }

def connected (s : State) (id : Nat) (ok : Bool) : Option State :=
  match s.starts id with
  | .connecting p =>
    if ok then some { (s.connect p).setStart id (.activating p) with producer := some p } else some (s.failStart id p)
  | _ => none

/-- The endpoints have started, or one of them has failed to. -/
def activated (s : State) (id : Nat) (ok : Bool) : Option State :=
  match s.starts id with
  | .activating p => if ok then some (s.setStart id (.settled true)) else some (s.failStart id p)
  | _ => none

/-- A failed `start` has stopped the endpoints again. -/
def endpointsLeft (s : State) (id : Nat) : Option State :=
  match s.starts id with
  | .failing p => some ((s.disconnect p).setStart id (.disconnecting p))
  | _ => none

def startDisconnected (s : State) (id : Nat) : Option State :=
  match s.starts id with
  | .disconnecting _ => some (s.setStart id (.settled false))
  | _ => none

/-- A call of `stop` up to its first await. -/
def stop (s : State) : State :=
  let begun := { s with nextStop := s.nextStop + 1 }
  if s.started then { begun.setStop s.nextStop .stopping with started := false } else begun.setStop s.nextStop .settled

/-- The endpoints have stopped, or one of them rejects and `stop` with it. -/
def endpointsStopped (s : State) (id : Nat) (ok : Bool) : Option State :=
  match s.stops id with
  | .stopping =>
    if ok then
      let refusing := { s with accepting := false }
      match s.producer with
      | none => some (refusing.setStop id .settled)
      | some p => some (refusing.setStop id (.draining p))
    else some (s.setStop id .settled)
  | _ => none

/-- The `finally` of `stop` up to its await. -/
def release (s : State) (id p : Nat) : State := { (s.disconnect p).setStop id .disconnecting with producer := none }

/-- No delivery is left, or the deadline has passed. -/
def drained (s : State) (id : Nat) (ok : Bool) : Option State :=
  match s.stops id with
  | .draining p =>
    if ok then if s.tasks = ∅ then some (s.setStop id (.flushing p)) else none else some (s.release id p)
  | _ => none

def flushed (s : State) (id : Nat) : Option State :=
  match s.stops id with
  | .flushing p => some (s.release id p)
  | _ => none

def stopDisconnected (s : State) (id : Nat) : Option State :=
  match s.stops id with
  | .disconnecting => some (s.setStop id .settled)
  | _ => none

/-- A call of `send` or of `sendSync`: `admitDetached`, and the task up to its first
    await. -/
def send (s : State) (sync aborted : Bool) : State :=
  let begun := { s with nextSend := s.nextSend + 1 }
  let fresh : Send := { sync := sync, phase := .selecting }
  if s.accepting then
    { begun.setSend s.nextSend (if aborted then fresh.deliver false else fresh) with tasks := insert s.nextSend s.tasks }
  else begun.setSend s.nextSend { if aborted then fresh.settle false else fresh with phase := .dropped }

/-- The partition is known, or it could not be chosen. -/
def partitioned (s : State) (i : Nat) (ok : Bool) : Option State :=
  match (s.sends i).phase with
  | .selecting =>
    if ok then
      match s.producer with
      | some p => some (s.setPhase i (.sending p))
      | none => some (s.setSend i ((s.sends i).deliver false))
    else some (s.setSend i ((s.sends i).deliver false))
  | _ => none

/-- `recoverProducer` up to its first await. The factory may throw. -/
def recoverProducer (s : State) (i p : Nat) (makes : Bool) : State :=
  if s.started = false ∨ s.producer ≠ some p then s.setPhase i (.recovering none false)
  else
    match s.producerRecovery with
    | some r => s.setPhase i (.recovering (some r) false)
    | none =>
      let begun := { s with producerRecovery := some s.nextRecovery, nextRecovery := s.nextRecovery + 1 }
      let recovery : Recovery := ⟨p, s.nextProducer, if makes then .connecting else .settled⟩
      let recovering := { begun with recoveries := update s.recoveries s.nextRecovery recovery }
      (if makes then recovering.makeProducer else recovering).setPhase i (.recovering (some s.nextRecovery) true)

/-- `producer.send` has settled. -/
def sent (s : State) (i : Nat) (ok makes : Bool) : Option State :=
  match (s.sends i).phase with
  | .sending p => some (if ok then s.setSend i ((s.sends i).deliver true) else s.recoverProducer i p makes)
  | _ => none

/-- `replaceProducer` goes on when the replacement has connected or failed to. -/
def replaced (s : State) (r : Nat) (ok : Bool) : Option State :=
  match (s.recoveries r).phase with
  | .connecting =>
    let p := (s.recoveries r).failed
    let q := (s.recoveries r).replacement
    if ok then
      let connected := s.connect q
      if s.started = false ∨ s.producer ≠ some p then some ((connected.disconnect q).setRecovery r .disconnecting)
      else
        let current := { connected with producer := some q }
        let counted := current.setProducer p
          { current.producers p with replacements := (current.producers p).replacements + 1 }
        some ((counted.disconnect p).setRecovery r .disconnecting)
    else some (s.setRecovery r .settled)
  | _ => none

def recoveryDisconnected (s : State) (r : Nat) : Option State :=
  match (s.recoveries r).phase with
  | .disconnecting => some (s.setRecovery r .settled)
  | _ => none

/-- `recoverProducer` returns, and its owner clears `#producerRecovery`. -/
def recovered (s : State) (i : Nat) : Option State :=
  match (s.sends i).phase with
  | .recovering none _ => some (s.setPhase i .failing)
  | .recovering (some r) owner =>
    if (s.recoveries r).phase = .settled then
      let cleared := if owner = true ∧ s.producerRecovery = some r then { s with producerRecovery := none } else s
      some (cleared.setPhase i .failing)
    else none
  | _ => none

/-- `onDelivery` is called with the failure. -/
def fails (s : State) (i : Nat) : Option State :=
  match (s.sends i).phase with
  | .failing => some (s.setSend i ((s.sends i).deliver false))
  | _ => none

/-- `onDelivery` has settled, and the registry forgets the task. -/
def delivered (s : State) (i : Nat) : Option State :=
  match (s.sends i).phase with
  | .delivering => some { s.setPhase i .finished with tasks := s.tasks.erase i }
  | _ => none

/-- The context of a `sendSync` is aborted. -/
def aborts (s : State) (i : Nat) : Option State :=
  if i < s.nextSend ∧ (s.sends i).sync = true then some (s.setSend i ((s.sends i).settle false)) else none

end State

inductive Action where
  | start (setup : Setup)
  | prepared (start : Nat) (outcome : Prepared)
  | connected (start : Nat) (ok : Bool)
  | activated (start : Nat) (ok : Bool)
  | endpointsLeft (start : Nat)
  | startDisconnected (start : Nat)
  | stop
  | endpointsStopped (stop : Nat) (ok : Bool)
  | drained (stop : Nat) (ok : Bool)
  | flushed (stop : Nat)
  | stopDisconnected (stop : Nat)
  | send (sync aborted : Bool)
  | partitioned (send : Nat) (ok : Bool)
  | sent (send : Nat) (ok makes : Bool)
  | replaced (recovery : Nat) (ok : Bool)
  | recoveryDisconnected (recovery : Nat)
  | recovered (send : Nat)
  | fails (send : Nat)
  | delivered (send : Nat)
  | aborts (send : Nat)
  deriving DecidableEq

def step (s : State) : Action → Option State
  | .start setup => some (s.start setup)
  | .prepared id outcome => s.prepared id outcome
  | .connected id ok => s.connected id ok
  | .activated id ok => s.activated id ok
  | .endpointsLeft id => s.endpointsLeft id
  | .startDisconnected id => s.startDisconnected id
  | .stop => some s.stop
  | .endpointsStopped id ok => s.endpointsStopped id ok
  | .drained id ok => s.drained id ok
  | .flushed id => s.flushed id
  | .stopDisconnected id => s.stopDisconnected id
  | .send sync aborted => some (s.send sync aborted)
  | .partitioned i ok => s.partitioned i ok
  | .sent i ok makes => s.sent i ok makes
  | .replaced r ok => s.replaced r ok
  | .recoveryDisconnected r => s.recoveryDisconnected r
  | .recovered i => s.recovered i
  | .fails i => s.fails i
  | .delivered i => s.delivered i
  | .aborts i => s.aborts i

/-- Reached from a new sink. -/
def ReachableWith (ok : State → Action → Prop) (s : State) : Prop := Steps step ok {} s

end KafkaSinks
