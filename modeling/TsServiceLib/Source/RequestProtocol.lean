import TsServiceLib.Library.Transitions
import TsServiceLib.Library.EventLog
import Mathlib.Logic.Function.Basic

/-!
The requests of a source endpoint: Kafka, custom, HTTP and the four kinds of
gRPC calls. A request is begun, entered under its stream id, consumed, waited
for, retired and ended; results of the stream find it by its id and run their
callbacks meanwhile. Each handler rests where it awaits something, and what it
calls is entered in the log of the request.
-/
namespace Sources
open Transitions

inductive Source where
  | kafka | custom | http | grpcUnary | grpcClientStreaming | grpcServerStreaming | grpcBidiStreaming
  deriving DecidableEq

namespace Source

def grpc : Source → Bool
  | kafka | custom | http => false
  | _ => true

/-- The messages of the request come in a stream. -/
def streamsIn : Source → Bool
  | grpcClientStreaming | grpcBidiStreaming => true
  | _ => false

/-- The responses go out in a stream, which is closed at the end. -/
def streamsOut : Source → Bool
  | grpcServerStreaming | grpcBidiStreaming => true
  | _ => false

/-- A request is entered under its id: by gRPC always, by the others if there
    is a result stream. -/
def enters (source : Source) (hasResult : Bool) : Bool := hasResult || source.grpc

/-- The wait for the result hears of `done` a turn later than of the signal. -/
def lags (source : Source) : Bool := source.grpc || decide (source = http)

/-- An error of `endRequest` is caught, and recorded when there is no other. -/
def catchesEnd (source : Source) : Bool := decide (source ≠ http)

end Source

inductive RequestError where
  | duplicate | handler | cancelled | ending
  deriving DecidableEq

/-- What a request is seen to do. `consumed` says that consumeMessage, and eof
    where there is one, have succeeded; `retired` that retire() has its value. -/
inductive Event where
  | spanStart | spanEnd
  | beginFailed
  | requestStart
  | requestEnd (error : Option RequestError)
  | pendingAdd | pendingRemove
  | duplicate
  | consumed
  | done
  | sent
  | aborted
  | callbackStarted (c : Nat)
  | callbackEnded (c : Nat)
  | retireBegun
  | retired
  | endRequest (error : Option RequestError)
  | endSettled (succeeds : Bool)
  deriving DecidableEq

/-- What a handler awaits. `retired` holds the value of `retire()`, `rejecting`
    is the endRequest of a request with a duplicate id. -/
inductive Rest where
  | beginning
  | receiving
  | consuming
  | atEof
  | waiting
  | retiring
  | retired (completed : Bool)
  | rejecting
  | ending
  | closing
  | ended
  deriving DecidableEq

/-- A running callback: its number, and the entry it was found under. -/
structure Running where
  number : Nat
  messageId : String
  callback : Nat
  deriving DecidableEq

/-- `race` is the outcome of the wait: `true` for done. `resolved` says that the
    promise of the retirement has been resolved. -/
structure Request where
  streamId : String := ""
  sampled : Bool := false
  rest : Rest := .beginning
  cancelled : Bool := false
  handedOut : Bool := false
  entered : Bool := false
  completed : Bool := false
  sent : Bool := false
  race : Option Bool := none
  callbacks : String → Option Nat := fun _ => none
  activeCallbacks : Nat := 0
  running : List Running := []
  nextCallback : Nat := 0
  retiring : Bool := false
  resolved : Bool := false
  failure : Option RequestError := none
  resultWaitFailed : Bool := false
  log : List Event := []

namespace Request

def note (r : Request) (e : Event) : Request := { r with log := e :: r.log }

def noteIf (r : Request) (condition : Bool) (e : Event) : Request := if condition then r.note e else r

/-- A request as it is accepted, with a signal that may be aborted already. -/
def fresh (streamId : String) (cancelled sampled : Bool) : Request :=
  (({ streamId := streamId, sampled := sampled, cancelled := cancelled } : Request).noteIf cancelled .aborted).noteIf
    sampled .spanStart

section Result
variable (source : Source)

/-- `complete()`: the wait is over, at once or a turn later. -/
def complete (r : Request) : Request :=
  { r with
    completed := true
    race := if r.rest = .waiting ∧ r.race = none ∧ source.lags = false then some true else r.race }

/-- `done()`, which a unary call ignores. -/
def done (r : Request) : Request :=
  if source = .grpcUnary then r.note .done else (r.note .done).complete source

/-- `send` of a unary sender; a second response is refused, or ignored. -/
def send (r : Request) : Request :=
  if r.sent then r
  else if source = .grpcUnary then ({ r with sent := true }.note .sent).complete source
  else done source ({ r with sent := true }.note .sent)

def setResultCallback (r : Request) (messageId : String) (callback : Nat) : Request :=
  if source.grpc = true ∧ r.retiring = true then r
  else { r with callbacks := Function.update r.callbacks messageId (some callback) }

/-- The end of `retire()`; a gRPC result forgets its callbacks. -/
def finishRetire (r : Request) : Request :=
  { r.note .retired with
    rest := .retired r.completed
    callbacks := if source.grpc then fun _ => none else r.callbacks }

def retire (r : Request) : Request :=
  let begun := { r.note .retireBegun with retiring := true }
  if r.activeCallbacks ≠ 0 then { begun with rest := .retiring } else begun.finishRetire source

/-- `beginCallback` and the callback, if there is one for the message. -/
def deliver (r : Request) (messageId : String) : Request :=
  if r.retiring then r
  else
    match r.callbacks messageId with
    | none => r
    | some callback =>
      { r.note (.callbackStarted r.nextCallback) with
        activeCallbacks := r.activeCallbacks + 1
        running := ⟨r.nextCallback, messageId, callback⟩ :: r.running
        nextCallback := r.nextCallback + 1 }

/-- A callback settles: it may ask to be removed, and then `endCallback`. -/
def callbackEnds (r : Request) (c : Running) (remove : Bool) : Option Request :=
  if c ∈ r.running then
    some { r.note (.callbackEnded c.number) with
      callbacks := if remove = true ∧ r.callbacks c.messageId = some c.callback then
        Function.update r.callbacks c.messageId none else r.callbacks
      activeCallbacks := r.activeCallbacks - 1
      running := r.running.erase c
      resolved := r.resolved || (r.retiring && decide (r.activeCallbacks - 1 = 0)) }
  else none

end Result

section Handler
variable (source : Source) (hasResult : Bool)

def callEnd (r : Request) : Request := { r.note (.endRequest r.failure) with rest := .ending }

/-- The messages are through, or a failure has been met. -/
def leave (r : Request) : Request := if r.entered then r.retire source else r.callEnd

def fail (r : Request) (error : RequestError) : Request := { r with failure := some error }.leave source

/-- The wait has failed: a result that is completed by the end of the
    retirement makes up for it. -/
def waitFails (r : Request) : Request := fail source { r with resultWaitFailed := true } .cancelled

/-- With the value of `retire()`. -/
def excuse (r : Request) (completed : Bool) : Request :=
  if r.resultWaitFailed = true ∧ completed = true then { r with failure := none } else r

/-- `waitForResult`. -/
def wait (r : Request) : Request :=
  if r.cancelled then r.waitFails source
  else if source.grpc = true ∧ r.completed = true then r.leave source
  else { r with rest := .waiting, race := if r.completed = true ∧ source.lags = false then some true else none }

/-- What follows the messages. The Kafka handler without a result stream marks
    the result done and waits for it all the same; a client-streaming call
    without one sends an empty response. -/
def consumed (r : Request) : Request :=
  let r := r.note .consumed
  match source with
  | .kafka => if hasResult then r.wait source else (r.done source).wait source
  | .grpcClientStreaming => if hasResult then r.wait source else (r.send source).leave source
  | _ => if hasResult then r.wait source else r.leave source

/-- The next thing awaited once the request has been entered. -/
def firstMessage (r : Request) : Request :=
  if source.streamsIn then { r with rest := .receiving } else { r with rest := .consuming, handedOut := true }

/-- The request is refused because its id is taken. -/
def refuse (r : Request) : Request :=
  let refused := { r.note .duplicate with failure := some .duplicate }
  match source with
  | .kafka | .custom => { refused.note (.endRequest (some .duplicate)) with rest := .rejecting }
  | _ => refused.callEnd

def abort (r : Request) : Request :=
  { r.note .aborted with
    cancelled := true
    race := if r.rest = .waiting ∧ r.race = none then some false else r.race }

/-- `finally` around the whole of a request. -/
def finish (r : Request) : Request := { r.noteIf r.sampled .spanEnd with rest := .ended }

/-- `onRequestEnd` and, for gRPC, the removal of the entry. -/
def close (r : Request) : Request :=
  ((r.note (.requestEnd r.failure)).noteIf (source.grpc && r.entered && hasResult) .pendingRemove).finish

def ends (r : Request) (succeeds : Bool) : Option Request :=
  let settled := r.note (.endSettled succeeds)
  match r.rest with
  | .rejecting => some (if succeeds then (settled.note (.requestEnd r.failure)).finish else settled.finish)
  | .ending =>
    let recorded := if succeeds = false ∧ source.catchesEnd = true then
      { settled with failure := some (r.failure.getD .ending) } else settled
    if source.streamsOut then some { recorded with rest := .closing } else some (recorded.close source hasResult)
  | _ => none

end Handler

end Request

/-- The requests of an endpoint, and which of them is pending under an id. -/
structure Requests where
  request : Nat → Request := fun _ => {}
  count : Nat := 0
  pending : String → Option Nat := fun _ => none

inductive Received where
  | message | eof | error
  deriving DecidableEq

inductive RequestAction where
  | accept (streamId : String) (cancelled sampled : Bool)
  | begins (i : Nat) (succeeds : Bool)
  | receives (i : Nat) (received : Received)
  | consumes (i : Nat) (succeeds : Bool)
  | eof (i : Nat) (succeeds : Bool)
  | hearsDone (i : Nat)
  | waits (i : Nat)
  | retires (i : Nat)
  | goesOn (i : Nat)
  | ends (i : Nat) (succeeds : Bool)
  | closes (i : Nat)
  | result (streamId messageId : String)
  | callbackEnds (i : Nat) (c : Running) (remove : Bool)
  | setResultCallback (i : Nat) (messageId : String) (callback : Nat)
  | done (i : Nat)
  | send (i : Nat)
  | abort (i : Nat)

namespace Requests
variable (source : Source) (hasResult : Bool)

def set (t : Requests) (i : Nat) (r : Request) : Requests :=
  { t with request := Function.update t.request i r }

def accept (t : Requests) (streamId : String) (cancelled sampled : Bool) : Requests :=
  { t.set t.count (Request.fresh streamId cancelled sampled) with count := t.count + 1 }

def begins (t : Requests) (i : Nat) (succeeds : Bool) : Option Requests :=
  let r := t.request i
  if i < t.count ∧ r.rest = .beginning then
    if succeeds = false then some (t.set i (r.note .beginFailed).finish)
    else
      let started := r.note .requestStart
      if source.enters hasResult then
        match t.pending r.streamId with
        | some _ => some (t.set i (started.refuse source))
        | none =>
          some { t.set i (({ started with entered := true }.noteIf hasResult .pendingAdd).firstMessage source) with
            pending := Function.update t.pending r.streamId (some i) }
      else some (t.set i (started.firstMessage source))
  else none

def move (t : Requests) (i : Nat) (rest : Rest) (f : Request → Request) : Option Requests :=
  if i < t.count ∧ (t.request i).rest = rest then some (t.set i (f (t.request i))) else none

def receives (t : Requests) (i : Nat) : Received → Option Requests
  | .message => t.move i .receiving fun r => { r with rest := .consuming, handedOut := true }
  | .eof => t.move i .receiving fun r => { r with rest := .atEof }
  | .error => t.move i .receiving fun r => r.fail source .handler

def consumes (t : Requests) (i : Nat) (succeeds : Bool) : Option Requests :=
  t.move i .consuming fun r =>
    if succeeds = false then r.fail source .handler
    else if source.streamsIn then { r with rest := .receiving }
    else if source.grpc then { r with rest := .atEof }
    else r.consumed source hasResult

def eof (t : Requests) (i : Nat) (succeeds : Bool) : Option Requests :=
  t.move i .atEof fun r => if succeeds then r.consumed source hasResult else r.fail source .handler

def hearsDone (t : Requests) (i : Nat) : Option Requests :=
  if (t.request i).completed = true ∧ (t.request i).race = none then
    t.move i .waiting fun r => { r with race := some true }
  else none

/-- The wait for the result is over. -/
def waits (t : Requests) (i : Nat) : Option Requests :=
  match (t.request i).race with
  | none => none
  | some true => t.move i .waiting fun r => r.leave source
  | some false => t.move i .waiting fun r => r.waitFails source

def retires (t : Requests) (i : Nat) : Option Requests :=
  if (t.request i).resolved then t.move i .retiring fun r => r.finishRetire source else none

/-- The handler has the value of `retire()`. The entry is removed here, but by
    gRPC only after the end. -/
def goesOn (t : Requests) (i : Nat) : Option Requests :=
  let r := t.request i
  match r.rest with
  | .retired completed =>
    if i < t.count then
      if source.grpc then some (t.set i (r.excuse completed).callEnd)
      else some { t.set i ((r.excuse completed).note .pendingRemove).callEnd with
        pending := Function.update t.pending r.streamId none }
    else none
  | _ => none

/-- The entry of a gRPC call goes with its end. -/
def forget (t : Requests) (i : Nat) : Requests :=
  if source.grpc = true ∧ (t.request i).entered = true ∧ (t.request i).rest = .ended then
    { t with pending := Function.update t.pending (t.request i).streamId none }
  else t

def ends (t : Requests) (i : Nat) (succeeds : Bool) : Option Requests :=
  if i < t.count then
    ((t.request i).ends source hasResult succeeds).map fun r => (t.set i r).forget source i
  else none

def closes (t : Requests) (i : Nat) : Option Requests :=
  (t.move i .closing fun r => r.close source hasResult).map fun t => t.forget source i

/-- `consumeResult`. -/
def result (t : Requests) (streamId messageId : String) : Requests :=
  match t.pending streamId with
  | none => t
  | some j => t.set j ((t.request j).deliver messageId)

/-- What the handler does with the result it was given. -/
def touch (t : Requests) (i : Nat) (f : Request → Request) : Option Requests :=
  if i < t.count ∧ (t.request i).handedOut = true then some (t.set i (f (t.request i))) else none

def abort (t : Requests) (i : Nat) : Option Requests :=
  if i < t.count ∧ (t.request i).cancelled = false then some (t.set i (t.request i).abort) else none

def step (t : Requests) : RequestAction → Option Requests
  | .accept streamId cancelled sampled => some (t.accept streamId cancelled sampled)
  | .begins i succeeds => t.begins source hasResult i succeeds
  | .receives i received => t.receives source i received
  | .consumes i succeeds => t.consumes source hasResult i succeeds
  | .eof i succeeds => t.eof source hasResult i succeeds
  | .hearsDone i => t.hearsDone i
  | .waits i => t.waits source i
  | .retires i => t.retires source i
  | .goesOn i => t.goesOn source i
  | .ends i succeeds => t.ends source hasResult i succeeds
  | .closes i => t.closes source hasResult i
  | .result streamId messageId => some (t.result streamId messageId)
  | .callbackEnds i c remove =>
    if i < t.count then ((t.request i).callbackEnds c remove).map (t.set i) else none
  | .setResultCallback i messageId callback => t.touch i fun r => r.setResultCallback source messageId callback
  | .done i => t.touch i fun r => r.done source
  | .send i => if source = .grpcUnary ∨ source = .grpcClientStreaming then t.touch i fun r => r.send source else none
  | .abort i => t.abort i

def Reached (ok : Requests → RequestAction → Prop) (t : Requests) : Prop :=
  Steps (step source hasResult) ok {} t

end Requests

end Sources
