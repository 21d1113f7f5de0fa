import TsServiceLib.Library.Transitions
import Mathlib.Data.Finset.Basic

/-!
The streaming sessions of a gRPC sink. The first value of a stream id opens a
session, the next ones join it, and a session takes its slot away when it has
ended. The sink tracks what opens and what finishes a session, and a stop waits
for what it finds there. One action is what runs between two awaits; the handler,
the transport, the cancellations and the stops take part in any order.
-/
namespace GrpcSessions
open Transitions Function

/-- The two consumers that have sessions. They differ in how a session finishes. -/
inductive Kind where
  | clientStreaming
  | bidiStreaming
  deriving DecidableEq

/-- A stream id of one consumer. Every consumer has its own `#pending`. -/
structure Key where
  consumer : Nat
  streamId : String
  deriving DecidableEq

/-- The promise `ready` of a slot. -/
inductive Ready where
  | pending
  | resolved
  | rejected
  deriving DecidableEq

/-- `createSession`, and the `then` behind it that settles `ready`. -/
inductive Creation where
  | running
  | returned (session : Bool)
  | settled
  deriving DecidableEq

/-- The response of a client stream, or where `receiveResponses` is. -/
inductive Received where
  | nothing
  | handling
  | value
  | error
  deriving DecidableEq

/-- What the session awaits: in `createSession` the first two, in `finishSession`
    the others. `closing true` is a close after the responses have ended. -/
inductive Phase where
  | beginning
  | abandoning
  | waiting
  | closing (responses : Bool)
  | receiving
  | draining (snapshot : Finset Nat)
  | handling
  | settling (snapshot : Finset Nat)
  | ending
  | finished
  deriving DecidableEq

/-- A `StreamingSessionSlot` with its session; `kind` is that of the consumer. `writes` are the messages that the
    sender still writes, `endings` the calls of `endRequest`. -/
structure Slot where
  key : Key := ⟨0, ""⟩
  kind : Kind := .clientStreaming
  closing : Bool := true
  ready : Ready := .rejected
  creation : Creation := .settled
  phase : Phase := .finished
  begun : Bool := false
  session : Bool := false
  received : Received := .nothing
  done : Bool := false
  cancelled : Bool := false
  active : Bool := false
  writes : Nat := 0
  consumers : Finset Nat := ∅
  failure : Bool := false
  endings : Nat := 0

/-- Where a call of `consume` is. A refused one has reported that its session is
    still completing. -/
inductive CallPhase where
  | waiting
  | consuming
  | settled (consumed : Bool)
  | refused
  | finished
  deriving DecidableEq

structure Call where
  slot : Nat := 0
  phase : CallPhase := .finished

inductive Task where
  | opening (slot : Nat)
  | finishing (slot : Nat)
  deriving DecidableEq

inductive StopPhase where
  | draining (snapshot : Finset Task)
  | closed
  | finished
  deriving DecidableEq

structure State where
  pending : Key → Option Nat := fun _ => none
  slots : Nat → Slot := fun _ => {}
  nextSlot : Nat := 0
  calls : Nat → Call := fun _ => {}
  nextCall : Nat := 0
  tasks : Finset Task := ∅
  started : Bool := false
  stops : Nat → StopPhase := fun _ => .finished
  nextStop : Nat := 0
  expired : Finset Nat := ∅

namespace Slot

/-- The `finally` of `finishSession` up to its first await. -/
def finish (x : Slot) : Slot := { x with closing := true, done := true, phase := .settling x.consumers }

/-- The `catch` of `finishSession`, and its `finally`. -/
def fail (x : Slot) : Slot := { x with failure := true }.finish

/-- `pending.close()`, and the sender is closed. -/
def close (x : Slot) (responses : Bool) : Slot := { x with closing := true, active := false, phase := .closing responses }

/-- `createSession` goes on when `beginRequest` has succeeded: it opens the stream
    and starts `finishSession`, or fails and ends the request. -/
def begin (x : Slot) (opens : Bool) : Slot :=
  if opens then
    { x with begun := true, session := true, creation := .returned true, phase := .waiting, active := true }
  else
    { x with
      begun := true
      closing := true
      ready := .rejected
      failure := true
      endings := x.endings + 1
      phase := .abandoning }

/-- `createSession` fails. -/
def dismiss (x : Slot) : Slot :=
  { x with closing := true, ready := .rejected, creation := .returned false, phase := .finished }

/-- A promise that has settled stays as it is. -/
def settleReady (x : Slot) (session : Bool) : Slot :=
  { x with
    creation := .settled
    closing := if session then x.closing else true
    ready := if x.ready = .pending then if session then .resolved else .rejected else x.ready }

/-- `finishSession` goes on with what it has received. -/
def receive (x : Slot) : Option Slot :=
  match x.kind, x.phase, x.received with
  | .clientStreaming, .receiving, .value => some { x with phase := .draining x.consumers }
  | .clientStreaming, .receiving, .error => some { x with phase := .draining x.consumers }
  | .bidiStreaming, .waiting, .value => some (x.close true)
  | .bidiStreaming, .waiting, .error => some x.fail
  | .bidiStreaming, .receiving, .value => some x.finish
  | .bidiStreaming, .receiving, .error => some x.fail
  | _, _, _ => none

/-- A `handleResponse` settles. -/
def handled (x : Slot) (ok : Bool) : Option Slot :=
  match x.kind, x.phase, x.received with
  | .clientStreaming, .handling, _ => some (if ok then x.finish else x.fail)
  | .bidiStreaming, _, .handling => some { x with received := if ok then .nothing else .error }
  | _, _, _ => none

/-- `close` has run in `sender.close`. -/
def closed (x : Slot) (ok : Bool) : Option Slot :=
  match x.phase with
  | .closing responses =>
    if x.writes = 0 then
      some (if ok then if responses then x.finish else { x with phase := .receiving } else x.fail)
    else none
  | _ => none

/-- The receiver of a bidirectional session has settled; a client stream has none. -/
def received? (x : Slot) : Bool :=
  match x.kind, x.received with
  | .clientStreaming, _ => true
  | .bidiStreaming, .value => true
  | .bidiStreaming, .error => true
  | .bidiStreaming, _ => false

end Slot

namespace State

def setSlot (s : State) (i : Nat) (x : Slot) : State := { s with slots := update s.slots i x }

def setCall (s : State) (c : Nat) (phase : CallPhase) : State :=
  { s with calls := update s.calls c { s.calls c with phase := phase } }

/-- `this.#pending.delete(streamId)` -/
def delete (s : State) (k : Key) : State := { s with pending := update s.pending k none }

/-- A new slot, whose `createSession` is tracked. -/
def openSlot (s : State) (kind : Kind) (k : Key) : State :=
  { s with
    pending := update s.pending k (some s.nextSlot)
    slots := update s.slots s.nextSlot
      { key := k, kind := kind, closing := false, ready := .pending, creation := .running, phase := .beginning }
    nextSlot := s.nextSlot + 1
    tasks := insert (.opening s.nextSlot) s.tasks }

/-- `beginRequest` has failed. -/
def dismiss (s : State) (i : Nat) : State := (s.setSlot i (s.slots i).dismiss).delete (s.slots i).key

/-- `consume` up to its first await, once it has its slot. -/
def join (s : State) (i : Nat) : State :=
  { s with
    calls := update s.calls s.nextCall ⟨i, if (s.slots i).closing then .refused else .waiting⟩
    nextCall := s.nextCall + 1 }

/-- A call of `consume`. The `beginRequest` of a new session may throw at once. -/
def consume (kinds : Nat → Kind) (s : State) (k : Key) (throws : Bool) : State :=
  match s.pending k with
  | some i => s.join i
  | none =>
    let opened := s.openSlot (kinds k.consumer) k
    if throws then (opened.dismiss s.nextSlot).join s.nextSlot else opened.join s.nextSlot

/-- A call goes on after `await pending.ready`. -/
def resume (s : State) (c : Nat) : Option State :=
  match (s.calls c).phase with
  | .waiting =>
    let i := (s.calls c).slot
    match (s.slots i).ready with
    | .pending => none
    | .rejected => some (s.setCall c .finished)
    | .resolved =>
      if (s.slots i).closing || (s.slots i).done || (s.slots i).cancelled then some (s.setCall c .refused)
      else some ((s.setSlot i { s.slots i with consumers := insert c (s.slots i).consumers }).setCall c .consuming)
  | _ => none

/-- A `consumeMessage` settles. -/
def consumeSettles (s : State) (c : Nat) (consumed : Bool) : Option State :=
  match (s.calls c).phase with
  | .consuming => some (s.setCall c (.settled consumed))
  | _ => none

/-- The `catch` and the `finally` of `consume`. -/
def consumeReturns (s : State) (c : Nat) : Option State :=
  match (s.calls c).phase with
  | .settled consumed =>
    let x := s.slots (s.calls c).slot
    some ((s.setSlot (s.calls c).slot
      { x with done := x.done || !consumed, consumers := x.consumers.erase c }).setCall c .finished)
  | _ => none

/-- `Promise.allSettled` over consumers. -/
def AllSettled (s : State) (snapshot : Finset Nat) : Prop := ∀ c ∈ snapshot, (s.calls c).phase ≠ .consuming

instance (s : State) (snapshot : Finset Nat) : Decidable (s.AllSettled snapshot) :=
  inferInstanceAs (Decidable (∀ c ∈ snapshot, (s.calls c).phase ≠ .consuming))

def begins (s : State) (i : Nat) (opens : Bool) : Option State :=
  match (s.slots i).phase with
  | .beginning =>
    let t := s.setSlot i ((s.slots i).begin opens)
    some (if opens then { t with tasks := insert (.finishing i) t.tasks } else t)
  | _ => none

def beginFails (s : State) (i : Nat) : Option State :=
  match (s.slots i).phase with
  | .beginning => some (s.dismiss i)
  | _ => none

/-- The `endRequest` of a stream that could not be opened settles. -/
def abandoned (s : State) (i : Nat) : Option State :=
  match (s.slots i).phase with
  | .abandoning => some (s.dismiss i)
  | _ => none

/-- The `then` behind `createSession`. -/
def created (s : State) (i : Nat) : Option State :=
  match (s.slots i).creation with
  | .returned session => some (s.setSlot i ((s.slots i).settleReady session))
  | _ => none

/-- `finishSession` goes on after `result.wait`. -/
def wakes (s : State) (i : Nat) : Option State :=
  if (s.slots i).phase = .waiting ∧ (s.slots i).done = true then some (s.setSlot i ((s.slots i).close false)) else none

def aborts (s : State) (i : Nat) : Option State :=
  if (s.slots i).phase = .waiting ∧ (s.slots i).cancelled = true then some (s.setSlot i (s.slots i).fail) else none

def receives (s : State) (i : Nat) : Option State := (s.slots i).receive.map (s.setSlot i)

def closes (s : State) (i : Nat) (ok : Bool) : Option State := ((s.slots i).closed ok).map (s.setSlot i)

def handles (s : State) (i : Nat) (ok : Bool) : Option State := ((s.slots i).handled ok).map (s.setSlot i)

/-- The consumers of a client stream have settled after its response. -/
def drains (s : State) (i : Nat) : Option State :=
  match (s.slots i).phase with
  | .draining snapshot =>
    if s.AllSettled snapshot then
      some (s.setSlot i
        (if (s.slots i).received = .error then (s.slots i).fail else { s.slots i with phase := .handling }))
    else none
  | _ => none

/-- `endRequest` is called. -/
def ends (s : State) (i : Nat) : Option State :=
  match (s.slots i).phase with
  | .settling snapshot =>
    if s.AllSettled snapshot ∧ (s.slots i).received? = true then
      some (s.setSlot i { s.slots i with endings := (s.slots i).endings + 1, phase := .ending })
    else none
  | _ => none

def ended (s : State) (i : Nat) : Option State :=
  match (s.slots i).phase with
  | .ending => some ((s.setSlot i { s.slots i with phase := .finished }).delete (s.slots i).key)
  | _ => none

/-- The handler calls `done`. -/
def done (s : State) (i : Nat) : Option State :=
  if (s.slots i).session then some (s.setSlot i { s.slots i with done := true }) else none

/-- The context of the session is aborted. -/
def cancels (s : State) (i : Nat) : Option State :=
  if i < s.nextSlot then some (s.setSlot i { s.slots i with cancelled := true }) else none

/-- The handler sends a message. A closed sender rejects it. -/
def sends (s : State) (i : Nat) : Option State :=
  if (s.slots i).active then some (s.setSlot i { s.slots i with writes := (s.slots i).writes + 1 }) else none

def written (s : State) (i : Nat) : Option State :=
  if 0 < (s.slots i).writes then some (s.setSlot i { s.slots i with writes := (s.slots i).writes - 1 }) else none

/-- The response, the end of the responses or an error of the transport. -/
def answers (s : State) (i : Nat) (ok : Bool) : Option State :=
  if (s.slots i).session ∧ (s.slots i).received = .nothing then
    some (s.setSlot i { s.slots i with received := if ok then .value else .error })
  else none

/-- One of the responses of a bidirectional stream. -/
def responds (s : State) (i : Nat) : Option State :=
  if (s.slots i).kind = .bidiStreaming ∧ (s.slots i).session ∧ (s.slots i).received = .nothing then
    some (s.setSlot i { s.slots i with received := .handling })
  else none

def TaskSettled (s : State) : Task → Prop
  | .opening i => (s.slots i).creation = .settled
  | .finishing i => (s.slots i).phase = .finished

instance (s : State) (task : Task) : Decidable (s.TaskSettled task) := by
  cases task with
  | opening i => exact inferInstanceAs (Decidable ((s.slots i).creation = .settled))
  | finishing i => exact inferInstanceAs (Decidable ((s.slots i).phase = .finished))

/-- `this.#tasks.delete(observed)` -/
def forgets (s : State) (task : Task) : Option State :=
  if task ∈ s.tasks ∧ s.TaskSettled task then some { s with tasks := s.tasks.erase task } else none

/-- A call of `start`; a second one rejects. -/
def start (s : State) : State := { s with started := true }

/-- A call of `stop` up to its first await. -/
def stop (s : State) : State :=
  if s.started then
    { s with
      started := false
      stops := update s.stops s.nextStop (.draining s.tasks)
      nextStop := s.nextStop + 1 }
  else s

/-- The context that a stop was called with is cancelled or reaches its deadline. -/
def stopExpires (s : State) (id : Nat) : State := { s with expired := insert id s.expired }

/-- A stop has waited for the tasks it found, or its context has ended. It closes
    the clients. -/
def stopCloses (s : State) (id : Nat) : Option State :=
  match s.stops id with
  | .draining snapshot =>
    if id ∈ s.expired ∨ Disjoint snapshot s.tasks then some { s with stops := update s.stops id .closed } else none
  | _ => none

end State

inductive Action where
  | consume (key : Key) (throws : Bool)
  | resume (call : Nat)
  | consumeSettles (call : Nat) (consumed : Bool)
  | consumeReturns (call : Nat)
  | begins (slot : Nat) (opens : Bool)
  | beginFails (slot : Nat)
  | abandoned (slot : Nat)
  | created (slot : Nat)
  | wakes (slot : Nat)
  | aborts (slot : Nat)
  | receives (slot : Nat)
  | closes (slot : Nat) (ok : Bool)
  | handles (slot : Nat) (ok : Bool)
  | drains (slot : Nat)
  | ends (slot : Nat)
  | ended (slot : Nat)
  | done (slot : Nat)
  | cancels (slot : Nat)
  | sends (slot : Nat)
  | written (slot : Nat)
  | answers (slot : Nat) (ok : Bool)
  | responds (slot : Nat)
  | forgets (task : Task)
  | start
  | stop
  | stopExpires (stop : Nat)
  | stopCloses (stop : Nat)
  deriving DecidableEq

def step (kinds : Nat → Kind) (s : State) : Action → Option State
  | .consume k throws => some (s.consume kinds k throws)
  | .resume c => s.resume c
  | .consumeSettles c consumed => s.consumeSettles c consumed
  | .consumeReturns c => s.consumeReturns c
  | .begins i opens => s.begins i opens
  | .beginFails i => s.beginFails i
  | .abandoned i => s.abandoned i
  | .created i => s.created i
  | .wakes i => s.wakes i
  | .aborts i => s.aborts i
  | .receives i => s.receives i
  | .closes i ok => s.closes i ok
  | .handles i ok => s.handles i ok
  | .drains i => s.drains i
  | .ends i => s.ends i
  | .ended i => s.ended i
  | .done i => s.done i
  | .cancels i => s.cancels i
  | .sends i => s.sends i
  | .written i => s.written i
  | .answers i ok => s.answers i ok
  | .responds i => s.responds i
  | .forgets task => s.forgets task
  | .start => some s.start
  | .stop => some s.stop
  | .stopExpires id => some (s.stopExpires id)
  | .stopCloses id => s.stopCloses id

/-- Reached from a sink that no value has come to. -/
def ReachableWith (kinds : Nat → Kind) (ok : State → Action → Prop) (s : State) : Prop := Steps (step kinds) ok {} s

end GrpcSessions
