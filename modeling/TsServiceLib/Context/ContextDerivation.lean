import TsServiceLib.Library.OrderedMap
import TsServiceLib.Library.Transitions
import TsServiceLib.Context.AbortSignals

/-!
Contexts and the derivations of one from another. A `MessageContext` is a
`Context` and keeps a state of its own beside the inherited one, which nothing
reads. A system is the contexts made so far with the signals they have; user
code may take any step at any time, also from a listener of its own while an
abort event is in progress.
-/
namespace ContextDerivations
open Numbers AbortSignals Transitions OrderedMaps

structure ContextState where
  signal : Nat
  deadline : Option Number := none
  samplingEnabled : Bool := false

/-- Keys, values and the two attached contexts are objects that nothing looks
    into. Local values are listed from the newest binding to the oldest. -/
structure MessageContextState extends ContextState where
  localValues : List (Nat × Nat) := []
  durableCallContext : Option Nat := none
  metadata : Option (OrderedMap String String) := none
  openTelemetryContext : Option Nat := none
  priority : Option Number := none

/-- A context of either class; `base` is the state that a `MessageContext`
    inherits and never reads. -/
inductive AnyContext where
  | context (state : ContextState)
  | messageContext (base : ContextState) (state : MessageContextState)

namespace AnyContext

def signal : AnyContext → Nat
  | .context state => state.signal
  | .messageContext _ state => state.signal

def deadline : AnyContext → Option Number
  | .context state => state.deadline
  | .messageContext _ state => state.deadline

def samplingEnabled : AnyContext → Bool
  | .context state => state.samplingEnabled
  | .messageContext _ state => state.samplingEnabled

end AnyContext

/-- `Math.min` -/
def minimum : Number → Number → Number
  | .nan, _ => .nan
  | _, .nan => .nan
  | a, b => if b.lt a then b else a

/-- `contextNow() + Math.max(0, timeoutMs)` -/
def timeAfter (now : ℚ) : Number → Number
  | .finite timeout => .finite (now + max 0 timeout)
  | .posInfinity => .posInfinity
  | .negInfinity => .finite now
  | .nan => .nan

/-- The operator `===` on deadlines. -/
def strictlyEqual : Option Number → Option Number → Bool
  | some a, some b => !a.isNaN && a == b
  | none, none => true
  | _, _ => false

def childDeadline (current requested : Option Number) : Option Number :=
  match requested with
  | none => current
  | some requested =>
    match current with
    | none => some requested
    | some current => some (minimum current requested)

def boundedDeadline (now : ℚ) (current : Option Number) (timeoutMs : Number) : Number :=
  let candidate := timeAfter now timeoutMs
  match current with
  | none => candidate
  | some current => minimum current candidate

def STREAM_ID_HEADER : String := "x-stream-id"

def TRACE_SAMPLING_HEADER : String := "x-trace"

/-- White space that `parseInt` passes over. -/
def isTrimmed (c : Char) : Bool :=
  (9 ≤ c.toNat && c.toNat ≤ 13) || (0x2000 ≤ c.toNat && c.toNat ≤ 0x200A) ||
    [0x20, 0xA0, 0x1680, 0x2028, 0x2029, 0x202F, 0x205F, 0x3000, 0xFEFF].contains c.toNat

def hexValue (c : Char) : Option Nat :=
  if c.isDigit then some (c.toNat - 48)
  else if 97 ≤ c.toNat && c.toNat ≤ 102 then some (c.toNat - 87)
  else if 65 ≤ c.toNat && c.toNat ≤ 70 then some (c.toNat - 55)
  else none

/-- The lowest bit of `parseInt(flags, 16)`, for flags of two characters. -/
def flagsSampled (first second : Char) : Bool :=
  match hexValue first, hexValue second with
  | some _, some low => low % 2 == 1
  | some high, none => high % 2 == 1
  | none, some low => (isTrimmed first || first == '+') && low % 2 == 1
  | none, none => false

def traceparentIsSampled (value : String) : Bool :=
  match value.toList.splitOn '-' with
  | [_, _, _, [first, second]] => flagsSampled first second
  | _ => false

section Classes
variable {E : Type} (w : World E)

namespace Context

def withDeadline (state : ContextState) (deadline : Option Number) : ContextState × World E :=
  let effective := childDeadline state.deadline deadline
  if strictlyEqual effective state.deadline then (state, w)
  else
    let composed := composeSignal w state.signal effective
    ({ state with deadline := effective, signal := composed.1 }, composed.2)

def withExternalCancellation (state : ContextState) (signal : Nat) : ContextState × World E :=
  if signal = state.signal then (state, w)
  else
    let combined := combineAbortSignals w [state.signal, signal]
    ({ state with signal := combined.1 }, combined.2)

def withoutCancellation (state : ContextState) : ContextState × World E :=
  ({ state with signal := w.count, deadline := none }, create w { origin := .root })

end Context

namespace MessageContext

/-- `fromMessageState`: the inherited state is that of a new context with the signal. -/
def fromMessageState (state : MessageContextState) : AnyContext := .messageContext { signal := state.signal } state

def withDeadline (state : MessageContextState) (deadline : Option Number) : Option MessageContextState × World E :=
  let effective := childDeadline state.deadline deadline
  if strictlyEqual effective state.deadline then (none, w)
  else
    let composed := composeSignal w state.signal effective
    (some { state with deadline := effective, signal := composed.1 }, composed.2)

def withExternalCancellation (state : MessageContextState) (signal : Nat) : Option MessageContextState × World E :=
  if signal = state.signal then (none, w)
  else
    let combined := combineAbortSignals w [state.signal, signal]
    (some { state with signal := combined.1 }, combined.2)

def withoutCancellation (state : MessageContextState) : MessageContextState × World E :=
  ({ state with signal := w.count, deadline := none }, create w { origin := .root })

def metadata (state : MessageContextState) : OrderedMap String String := state.metadata.getD OrderedMap.empty

/-- A map without entries is kept as `undefined`. -/
def kept (metadata : OrderedMap String String) : Option (OrderedMap String String) :=
  if metadata.size = 0 then none else some metadata

def withSampling (state : MessageContextState) (enabled : Bool) : MessageContextState :=
  let changed :=
    if enabled then (metadata state).set TRACE_SAMPLING_HEADER "1" else (metadata state).delete TRACE_SAMPLING_HEADER
  { state with metadata := kept changed, samplingEnabled := enabled }

def withMetadata (state : MessageContextState) (copy : OrderedMap String String) : MessageContextState :=
  { state with
    metadata := kept copy
    samplingEnabled :=
      (copy.get TRACE_SAMPLING_HEADER).any (· ≠ "") || (copy.get "traceparent").any traceparentIsSampled }

def withStreamId (state : MessageContextState) (streamId : String) : MessageContextState :=
  { state with metadata := some ((metadata state).set STREAM_ID_HEADER streamId) }

/-- The static method `fromContext`: a new context with the signal, then its
    deadline and its sampling. -/
def fromContext (context : AnyContext) : MessageContextState × World E :=
  let fresh : MessageContextState := { signal := context.signal }
  let limited := withDeadline w fresh context.deadline
  (withSampling (limited.1.getD fresh) context.samplingEnabled, limited.2)

end MessageContext

end Classes

inductive Derivation where
  | withDeadline (deadline : Option Number)
  | bounded (timeoutMs : Number)
  | withExternalCancellation (signal : Nat)
  | withoutCancellation
  | withSampling (enabled : Bool)
  | fromContext
  | withMetadata (metadata : OrderedMap String String)
  | withStreamId (streamId : String)
  | withPriority (priority : Number)
  | withLocalValue (key value : Nat)
  | withOpenTelemetryContext (context : Nat)
  | withDurableCallContext (durable : Nat)

section Derivations
variable {E : Type} (w : World E)

/-- A method that returns `this` keeps the object as it is. -/
def keepsThis (base : ContextState) (state : MessageContextState) (result : Option MessageContextState × World E) :
    AnyContext × World E :=
  (match result.1 with
    | some changed => MessageContext.fromMessageState changed
    | none => .messageContext base state, result.2)

/-- The derivations of a `Context`; the others are methods of `MessageContext` only. -/
def deriveContext (state : ContextState) : Derivation → Option (AnyContext × World E)
  | .withDeadline deadline =>
    let result := Context.withDeadline w state deadline
    some (.context result.1, result.2)
  | .bounded timeoutMs =>
    let result := Context.withDeadline w state (some (boundedDeadline w.now state.deadline timeoutMs))
    some (.context result.1, result.2)
  | .withExternalCancellation signal =>
    let result := Context.withExternalCancellation w state signal
    some (.context result.1, result.2)
  | .withoutCancellation =>
    let result := Context.withoutCancellation w state
    some (.context result.1, result.2)
  | .withSampling enabled => some (.context { state with samplingEnabled := enabled }, w)
  | .fromContext =>
    let result := MessageContext.fromContext w (.context state)
    some (MessageContext.fromMessageState result.1, result.2)
  | _ => none

def deriveMessageContext (base : ContextState) (state : MessageContextState) : Derivation → AnyContext × World E
  | .withDeadline deadline => keepsThis base state (MessageContext.withDeadline w state deadline)
  | .bounded timeoutMs =>
    keepsThis base state (MessageContext.withDeadline w state (some (boundedDeadline w.now state.deadline timeoutMs)))
  | .withExternalCancellation signal => keepsThis base state (MessageContext.withExternalCancellation w state signal)
  | .withoutCancellation =>
    let result := MessageContext.withoutCancellation w state
    (MessageContext.fromMessageState result.1, result.2)
  | .withSampling enabled => (MessageContext.fromMessageState (MessageContext.withSampling state enabled), w)
  | .fromContext =>
    let result := MessageContext.fromContext w (.messageContext base state)
    (MessageContext.fromMessageState result.1, result.2)
  | .withMetadata metadata => (MessageContext.fromMessageState (MessageContext.withMetadata state metadata), w)
  | .withStreamId streamId => (MessageContext.fromMessageState (MessageContext.withStreamId state streamId), w)
  | .withPriority priority => (MessageContext.fromMessageState { state with priority := some priority }, w)
  | .withLocalValue key value =>
    (MessageContext.fromMessageState { state with localValues := (key, value) :: state.localValues }, w)
  | .withOpenTelemetryContext context =>
    (MessageContext.fromMessageState { state with openTelemetryContext := some context }, w)
  | .withDurableCallContext durable =>
    (MessageContext.fromMessageState { state with durableCallContext := some durable }, w)

def derive (d : Derivation) : AnyContext → Option (AnyContext × World E)
  | .context state => deriveContext w state d
  | .messageContext base state => some (deriveMessageContext w base state d)

def remainingMs (context : AnyContext) : Option Number :=
  context.deadline.map fun
    | .finite deadline => .finite (max 0 (deadline - w.now))
    | .negInfinity => .finite 0
    | other => other

def cancelled (context : AnyContext) : Bool :=
  w.aborted context.signal ||
    match context.deadline with
    | some (.finite deadline) => decide (deadline ≤ w.now)
    | some .negInfinity => true
    | _ => false

end Derivations

/-- A context with the one it was derived from and the external signal joined
    to it there. `withoutCancellation` begins anew. -/
structure Derived where
  context : AnyContext
  parent : Option Nat := none
  joined : Option Nat := none

structure System (E : Type) where
  world : World E := {}
  contexts : List Derived := []

inductive Action (E : Type) where
  | newSignal
  | newContext (message : Bool) (signal : Nat)
  | abort (signal : Nat) (reason : E)
  | derive (context : Nat) (derivation : Derivation)
  | elapse (time : ℚ)
  | fire (child : Nat)
  | advance

def joinedBy : Derivation → Option Nat
  | .withExternalCancellation signal => some signal
  | _ => none

/-- The context that the derived one takes its deadline and signal from. -/
def parentBy (context : Nat) : Derivation → Option Nat
  | .withoutCancellation => none
  | _ => some context

section Steps
variable {E : Type} (sys : System E)

def newContext (message : Bool) (signal : Nat) : AnyContext :=
  if message then MessageContext.fromMessageState { signal } else .context { signal }

/-- Only signals that have been made are joined. -/
def joinable (d : Derivation) : Bool :=
  match joinedBy d with
  | some signal => decide (signal < sys.world.count)
  | none => true

/-- A derivation is a step of its own: the clock is read once. -/
def step : Action E → Option (System E)
  | .newSignal => some { sys with world := create sys.world { origin := .root } }
  | .newContext message signal =>
    if signal < sys.world.count then
      some { sys with contexts := sys.contexts ++ [{ context := newContext message signal }] }
    else none
  | .abort signal reason =>
    if signal < sys.world.count ∧ (sys.world.signal signal).origin = .root then
      some { sys with world := abortFirst sys.world signal (.given reason) }
    else none
  | .derive c d =>
    match sys.contexts[c]? with
    | some of =>
      if joinable sys d then
        (derive sys.world d of.context).map fun result =>
          { world := result.2
            contexts := sys.contexts ++ [{ context := result.1, parent := parentBy c d, joined := joinedBy d }] }
      else none
    | none => none
  | .elapse time => if 0 ≤ time then some { sys with world := { sys.world with now := sys.world.now + time } } else none
  | .fire child => (fire sys.world child).map fun w => { sys with world := w }
  | .advance => (advance sys.world).map fun w => { sys with world := w }

end Steps

end ContextDerivations
