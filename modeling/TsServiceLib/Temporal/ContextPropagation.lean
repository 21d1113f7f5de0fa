import TsServiceLib.Temporal.HeaderText

/-!
How a message context travels through Temporal. The client interceptor encodes
it into headers, the workflow interceptor hands the headers on to the
activities that it schedules, and the activity interceptor decodes them. The
deadline travels as a time of day. A hop is one such way, from the host that
submits to the host that runs the activity; a journey is a list of hops, each
submitted with the context that the one before has decoded.
-/
namespace ContextPropagations
open Numbers AbortSignals OrderedMaps ContextDerivations HeaderTexts

/-- What a payload stands for; the code tells only texts from the rest. -/
inductive PayloadValue where
  | text (value : String)
  | carrier (fields : OrderedMap String String)
  | other

/-- `defaultPayloadConverter`; it throws on a payload that it cannot read. -/
structure PayloadConverter (Payload : Type) where
  toPayload : PayloadValue → Payload
  fromPayload : Payload → Option PayloadValue

abbrev Headers (Payload : Type) := OrderedMap String Payload

def TEMPORAL_HEADER_DEADLINE_UNIX_NANO : String := "servicelib-deadline-unix-nano"

def TEMPORAL_HEADER_PRIORITY : String := "servicelib-priority"

def TEMPORAL_TRACE_HEADER : String := "_tracer-data"

def CARRIER_NAMES : List String := ["traceparent", "tracestate", "baggage", "x-trace", "x-stream-id"]

def STREAM_ID_ONLY_NAMES : List String := ["x-stream-id"]

def TRACE_CARRIER_NAMES : List String := ["traceparent", "tracestate", "baggage", "x-trace"]

def STREAM_TRANSPORT_HEADERS : List String := [STREAM_ID_HEADER]

def TRACING_TRANSPORT_HEADERS : List String :=
  [STREAM_ID_HEADER, TRACE_SAMPLING_HEADER, "traceparent", "tracestate", "baggage"]

/-- `MessageContext.transportMetadata` -/
def transportMetadata (state : MessageContextState) (tracingEnabled : Bool) : OrderedMap String String :=
  OrderedMap.collect (if tracingEnabled then TRACING_TRANSPORT_HEADERS else STREAM_TRANSPORT_HEADERS)
    fun name => state.metadata.bind (·.get name)

/-- `BigInt(Date.now() + Math.max(0, Math.ceil(remainingMs)))`, which throws for
    a number that is not finite. -/
def unixMillis (wall : Int) : Number → Option Int
  | .finite remaining =>
    match Number.ofBigint (wall + max 0 ⌈remaining⌉) with
    | .finite sum => some sum.num
    | _ => none
  | .negInfinity => some wall
  | _ => none

section Encoding
variable {Payload E : Type} (converter : PayloadConverter Payload) (fraction : ℚ → String)

def withPriority (values : OrderedMap String String) (priority : Option Number) : OrderedMap String String :=
  match priority with
  | some priority => values.set TEMPORAL_HEADER_PRIORITY (numberText fraction priority)
  | none => values

/-- There are no headers where the encoding of the deadline throws. -/
def encodeContext (wall : Int) (w : World E) (state : MessageContextState) (tracingEnabled : Bool) :
    Option (Headers Payload) :=
  let values := withPriority fraction (transportMetadata state tracingEnabled) state.priority
  let payloads := OrderedMap.mapValues fun value => converter.toPayload (.text value)
  match remainingMs w (MessageContext.fromMessageState state) with
  | none => some (payloads values)
  | some remaining => (unixMillis wall remaining).map fun millis =>
      payloads (values.set TEMPORAL_HEADER_DEADLINE_UNIX_NANO (toString (millis * 1000000)))

/-- The client interceptor; the submission is the context with whether tracing is enabled. -/
def startWithDetails (wall : Int) (w : World E) (submission : Option (MessageContextState × Bool))
    (inputHeaders : Headers Payload) : Option (Headers Payload) :=
  match submission with
  | none => some inputHeaders
  | some (state, tracingEnabled) =>
    let headers :=
      if tracingEnabled then inputHeaders
      else inputHeaders.filterKeys fun name => !TRACE_CARRIER_NAMES.contains name
    (encodeContext converter fraction wall w state tracingEnabled).map headers.spread

end Encoding

section Decoding
variable {Payload E : Type} (converter : PayloadConverter Payload)

def decodeString (payload : Option Payload) : Option String :=
  match payload.bind converter.fromPayload with
  | some (.text value) => some value
  | _ => none

/-- A header with a text that is not empty. -/
def filled (headers : Headers Payload) (name : String) : Option String :=
  (decodeString converter (headers.get name)).filter (· ≠ "")

def decodedMetadata (headers : Headers Payload) (tracingEnabled : Bool) : OrderedMap String String :=
  OrderedMap.collect (if tracingEnabled then CARRIER_NAMES else STREAM_ID_ONLY_NAMES) (filled converter headers)

/-- `Math.max(0, value)` -/
def atLeastZero : Number → Number
  | .finite value => .finite (max 0 value)
  | .negInfinity => .finite 0
  | other => other

/-- The time that a deadline header leaves, if the header can be read. -/
def decodedTimeout (wall : Int) (deadline : String) : Option Number :=
  (parseBigint deadline).bind fun nanos =>
    let deadlineUnixMillis := Number.ofBigint (nanos.tdiv 1000000)
    if deadlineUnixMillis.isSafeInteger then some (atLeastZero (deadlineUnixMillis.sub (.finite wall))) else none

def bounded (w : World E) (state : MessageContextState) (timeoutMs : Number) : MessageContextState × World E :=
  let result := MessageContext.withDeadline w state (some (boundedDeadline w.now state.deadline timeoutMs))
  (result.1.getD state, result.2)

def withExternalCancellation (w : World E) (state : MessageContextState) (signal : Nat) :
    MessageContextState × World E :=
  let result := MessageContext.withExternalCancellation w state signal
  (result.1.getD state, result.2)

def decodedPriority (state : MessageContextState) (priority : Number) : MessageContextState :=
  if priority.isSafeInteger then { state with priority := some priority } else state

/-- A new context with the metadata and the priority of the headers. -/
def decodedFields (signal : Nat) (headers : Headers Payload) (tracingEnabled : Bool) : MessageContextState :=
  decodedPriority (MessageContext.withMetadata { signal } (decodedMetadata converter headers tracingEnabled))
    (parseInt ((decodeString converter (headers.get TEMPORAL_HEADER_PRIORITY)).getD ""))

/-- The interceptors of the activity and of the workflow have this function alike. -/
def decodeContext (wall : Int) (w : World E) (headers : Headers Payload) (tracingEnabled : Bool) :
    MessageContextState × World E :=
  let context := decodedFields converter w.count headers tracingEnabled
  let made := create w { origin := .root }
  match (decodeString converter (headers.get TEMPORAL_HEADER_DEADLINE_UNIX_NANO)).bind (decodedTimeout wall) with
  | some timeout => bounded made context timeout
  | none => (context, made)

/-- `temporalActivityInterceptors` -/
def executeActivity (wall : Int) (w : World E) (headers : Headers Payload) (tracingEnabled : Bool)
    (cancellationSignal : Nat) (startToCloseTimeoutMs : Number) : MessageContextState × World E :=
  let decoded := decodeContext converter wall w headers tracingEnabled
  let context := withExternalCancellation decoded.2 decoded.1 cancellationSignal
  if (Number.finite 0).lt startToCloseTimeoutMs then bounded context.2 context.1 startToCloseTimeoutMs else context

end Decoding

section Workflow
variable {Payload E : Type} (converter : PayloadConverter Payload)

/-- `noopTracing` as the request has it, where it has telemetry with a boolean there. -/
def workflowTracingEnabled (noopTracing : Option Bool) : Bool := noopTracing ≠ some true

def withoutTracingHeaders (headers : Headers Payload) : Headers Payload :=
  ["traceparent", "tracestate", "baggage", "x-trace", TEMPORAL_TRACE_HEADER].foldl OrderedMap.delete headers

def withTemporalTraceHeader (headers : Headers Payload) : Headers Payload :=
  if headers.has TEMPORAL_TRACE_HEADER then headers
  else
    match filled converter headers "traceparent" with
    | none => headers
    | some traceparent =>
      let carrier := (OrderedMap.empty.set "traceparent" traceparent).spread
        (OrderedMap.collect ["tracestate", "baggage"] (filled converter headers))
      headers.set TEMPORAL_TRACE_HEADER (converter.toPayload (.carrier carrier))

/-- What the interceptors of one workflow keep. -/
structure Interceptors (Payload : Type) where
  carrier : Headers Payload := OrderedMap.empty
  tracingEnabled : Bool := true

def execute (noopTracing : Option Bool) (headers : Headers Payload) : Interceptors Payload :=
  let tracingEnabled := workflowTracingEnabled noopTracing
  { carrier := if tracingEnabled then withTemporalTraceHeader converter headers else withoutTracingHeaders headers
    tracingEnabled }

/-- The context of the workflow; a signal of its own aborts it when the workflow is cancelled. -/
def workflowMessageContext (wall : Int) (w : World E) (interceptors : Interceptors Payload) :
    MessageContextState × World E :=
  let made := create w { origin := .root }
  let decoded := decodeContext converter wall made interceptors.carrier interceptors.tracingEnabled
  withExternalCancellation decoded.2 decoded.1 w.count

def scheduleActivity (interceptors : Interceptors Payload) (inputHeaders : Headers Payload) : Headers Payload :=
  let headers := interceptors.carrier.spread inputHeaders
  if interceptors.tracingEnabled then headers else withoutTracingHeaders headers

end Workflow

/-- A time, and where the clock of a host that `contextNow` reads begins. -/
structure Clock where
  time : ℚ
  origin : ℚ

namespace Clock

def now (clock : Clock) : ℚ := clock.time - clock.origin

/-- `Date.now()` -/
def wall (clock : Clock) : Int := ⌊clock.time⌋

end Clock

/-- One way from a submission to an activity. The headers pass through the
    client, the server and the workers between the interceptors: `delivered`
    and `dispatched` are what they make of them. `world` is the signals of the
    host that runs the activity. -/
structure Hop (Payload E : Type) where
  left : Clock
  submissionTracing : Bool
  inputHeaders : Headers Payload
  delivered : Headers Payload → Headers Payload
  noopTracing : Option Bool
  activityHeaders : Headers Payload
  dispatched : Headers Payload → Headers Payload
  arrived : Clock
  world : World E
  activityTracing : Bool
  cancellationSignal : Nat
  startToCloseTimeoutMs : Number

section Journeys
variable {Payload E : Type} (converter : PayloadConverter Payload) (fraction : ℚ → String)

/-- The headers with which the activity is started. -/
def Hop.scheduled (h : Hop Payload E) (sent : Headers Payload) : Headers Payload :=
  h.dispatched (scheduleActivity (execute converter h.noopTracing (h.delivered sent)) h.activityHeaders)

def hop (h : Hop Payload E) (state : MessageContextState) : Option MessageContextState :=
  (startWithDetails converter fraction h.left.wall ({ now := h.left.now } : World E)
    (some (state, h.submissionTracing)) h.inputHeaders).map fun sent =>
      (executeActivity converter h.arrived.wall { h.world with now := h.arrived.now } (h.scheduled converter sent)
        h.activityTracing h.cancellationSignal h.startToCloseTimeoutMs).1

def journey (hops : List (Hop Payload E)) (state : MessageContextState) : Option MessageContextState :=
  hops.foldlM (fun state h => hop converter fraction h state) state

end Journeys

end ContextPropagations
