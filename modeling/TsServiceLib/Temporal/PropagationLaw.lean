import Mathlib.Tactic.Linarith
import TsServiceLib.Temporal.ContextPropagation
import TsServiceLib.Context.SignalEffects

/-!
What a journey through Temporal keeps of a context. The stream id and, while
every host on the way has tracing enabled, the trace carrier arrive as they
were sent; a safe priority does too. A deadline travels in whole milliseconds:
it never comes in before the whole millisecond it was in, and it goes out by
less than one millisecond a hop, whatever time each hop takes.
-/
namespace ContextPropagations
open Numbers AbortSignals OrderedMaps ContextDerivations HeaderTexts

def value (state : MessageContextState) (name : String) : Option String := state.metadata.bind (·.get name)

def carrierNames (tracingEnabled : Bool) : List String := if tracingEnabled then CARRIER_NAMES else STREAM_ID_ONLY_NAMES

/-- What is left of a value: empty texts are not carried. -/
def carried (state : MessageContextState) (tracingEnabled : Bool) (name : String) : Option String :=
  if name ∈ carrierNames tracingEnabled then (value state name).filter (· ≠ "") else none

/-- The headers that the interceptors write and read. -/
def HEADER_NAMES : List String := CARRIER_NAMES ++ [TEMPORAL_HEADER_PRIORITY, TEMPORAL_HEADER_DEADLINE_UNIX_NANO]

namespace Hop
variable {Payload E : Type}

def traced (h : Hop Payload E) : Bool :=
  h.submissionTracing && workflowTracingEnabled h.noopTracing && h.activityTracing

/-- Nothing else on the way writes the headers of the interceptors. -/
structure Clear (h : Hop Payload E) : Prop where
  input : ∀ name ∈ HEADER_NAMES, h.inputHeaders.get name = none
  delivery : ∀ headers, ∀ name ∈ HEADER_NAMES, (h.delivered headers).get name = headers.get name
  activity : ∀ name ∈ HEADER_NAMES, h.activityHeaders.get name = none
  dispatch : ∀ headers, ∀ name ∈ HEADER_NAMES, (h.dispatched headers).get name = headers.get name

end Hop

section Headers
variable {Payload E : Type} {converter : PayloadConverter Payload} {fraction : ℚ → String}

theorem get_deleteAll (names : List String) (headers : Headers Payload) (name : String) :
    (names.foldl OrderedMap.delete headers).get name = if name ∈ names then none else headers.get name := by
  induction names generalizing headers with
  | nil => simp
  | cons first rest ih =>
    rw [List.foldl_cons, ih, OrderedMap.get_delete]
    by_cases same : name = first
    · simp [same]
    · simp [same]

theorem get_withoutTracingHeaders (headers : Headers Payload) {name : String} (among : name ∈ HEADER_NAMES) :
    (withoutTracingHeaders headers).get name =
      if name ∈ TRACE_CARRIER_NAMES then none else headers.get name := by
  rw [withoutTracingHeaders, get_deleteAll]
  have other : name ≠ TEMPORAL_TRACE_HEADER := by
    intro same
    rw [same] at among
    exact absurd among (by decide)
  simp [TRACE_CARRIER_NAMES, other]

theorem get_withTemporalTraceHeader (headers : Headers Payload) {name : String} (among : name ∈ HEADER_NAMES) :
    (withTemporalTraceHeader converter headers).get name = headers.get name := by
  have other : name ≠ TEMPORAL_TRACE_HEADER := by
    intro same
    rw [same] at among
    exact absurd among (by decide)
  unfold withTemporalTraceHeader
  split
  · rfl
  · split
    · rfl
    · exact OrderedMap.get_set_of_ne headers _ other

theorem get_scheduled (noopTracing : Option Bool) (headers : Headers Payload) {inputHeaders : Headers Payload}
    {name : String} (among : name ∈ HEADER_NAMES) (clear : inputHeaders.get name = none) :
    (scheduleActivity (execute converter noopTracing headers) inputHeaders).get name =
      if workflowTracingEnabled noopTracing = false ∧ name ∈ TRACE_CARRIER_NAMES then none else headers.get name := by
  have merged : ∀ carrier : Headers Payload, (carrier.spread inputHeaders).get name = carrier.get name := by
    intro carrier
    rw [OrderedMap.get_spread, clear]
    rfl
  unfold scheduleActivity execute
  dsimp only
  cases enabled : workflowTracingEnabled noopTracing
  · rw [if_neg Bool.false_ne_true, get_withoutTracingHeaders _ among, if_neg Bool.false_ne_true, merged,
      get_withoutTracingHeaders _ among]
    by_cases trace : name ∈ TRACE_CARRIER_NAMES
    · simp [trace]
    · simp [trace]
  · rw [if_pos rfl, if_pos rfl, merged, get_withTemporalTraceHeader _ among]
    simp

theorem get_transportMetadata (state : MessageContextState) (tracingEnabled : Bool) (name : String) :
    (transportMetadata state tracingEnabled).get name =
      if name ∈ carrierNames tracingEnabled then value state name else none := by
  rw [transportMetadata, OrderedMap.get_collect]
  have same : (name ∈ if tracingEnabled then TRACING_TRANSPORT_HEADERS else STREAM_TRANSPORT_HEADERS) ↔
      name ∈ carrierNames tracingEnabled := by
    cases tracingEnabled
    · rfl
    · simp only [carrierNames, if_true, TRACING_TRANSPORT_HEADERS, CARRIER_NAMES, STREAM_ID_HEADER,
        TRACE_SAMPLING_HEADER, List.mem_cons, List.not_mem_nil, or_false]
      tauto
  by_cases among : name ∈ carrierNames tracingEnabled
  · rw [if_pos (same.mpr among), if_pos among]
    rfl
  · rw [if_neg (fun mem => among (same.mp mem)), if_neg among]

/-- Every name that is carried is a header of its own, beside the priority and the deadline. -/
theorem carrierNames_among {tracingEnabled : Bool} {name : String} (among : name ∈ carrierNames tracingEnabled) :
    name ∈ CARRIER_NAMES := by
  cases tracingEnabled
  · rw [List.mem_singleton.mp among]
    decide
  · exact among

theorem get_withPriority (values : OrderedMap String String) (priority : Option Number) (name : String) :
    (withPriority fraction values priority).get name =
      if name = TEMPORAL_HEADER_PRIORITY then (priority.map (numberText fraction)).or (values.get name)
      else values.get name := by
  cases priority with
  | none => simp [withPriority]
  | some priority =>
    rw [withPriority, OrderedMap.get_set]
    simp

end Headers

section Sending
variable {Payload E : Type} {converter : PayloadConverter Payload} {fraction : ℚ → String} {wall : Int} {w : World E}
variable {state : MessageContextState} {tracingEnabled : Bool}

def deadlineText (wall : Int) (w : World E) (state : MessageContextState) : Option String :=
  (remainingMs w (MessageContext.fromMessageState state)).bind fun remaining =>
    (unixMillis wall remaining).map fun millis => toString (millis * 1000000)

theorem encodeContext_eq {deadline : Option String} {sent : Headers Payload}
    (encoded : encodeContext converter fraction wall w state tracingEnabled = some sent)
    (header : deadlineText wall w state = deadline) :
    sent = OrderedMap.mapValues (fun value => converter.toPayload (.text value))
      ((fun values => match deadline with
        | some text => OrderedMap.set values TEMPORAL_HEADER_DEADLINE_UNIX_NANO text
        | none => values) (withPriority fraction (transportMetadata state tracingEnabled) state.priority)) := by
  subst header
  unfold encodeContext at encoded
  unfold deadlineText
  dsimp only at encoded ⊢
  split at encoded
  · rename_i unlimited
    rw [unlimited]
    exact (Option.some.inj encoded).symm
  · rename_i remaining limited
    rw [limited]
    cases millis : unixMillis wall remaining with
    | none =>
      rw [millis] at encoded
      cases encoded
    | some n =>
      rw [millis] at encoded
      simp only [Option.bind_some, millis, Option.map_some]
      exact (Option.some.inj encoded).symm

theorem get_sent {sent : Headers Payload}
    (encoded : encodeContext converter fraction wall w state tracingEnabled = some sent) :
    (∀ name ∈ CARRIER_NAMES, sent.get name =
      (if name ∈ carrierNames tracingEnabled then value state name else none).map (converter.toPayload ∘ .text)) ∧
      sent.get TEMPORAL_HEADER_PRIORITY =
        (state.priority.map (numberText fraction)).map (converter.toPayload ∘ .text) ∧
      sent.get TEMPORAL_HEADER_DEADLINE_UNIX_NANO =
        (deadlineText wall w state).map (converter.toPayload ∘ .text) := by
  have form := encodeContext_eq encoded rfl
  have values : ∀ name, sent.get name =
      ((if name = TEMPORAL_HEADER_DEADLINE_UNIX_NANO then (deadlineText wall w state).or
          ((withPriority fraction (transportMetadata state tracingEnabled) state.priority).get name)
        else (withPriority fraction (transportMetadata state tracingEnabled) state.priority).get name).map
          (converter.toPayload ∘ .text)) := by
    intro name
    rw [form, OrderedMap.get_mapValues]
    cases deadlineText wall w state with
    | none =>
      simp only [Option.none_or, ite_self]
      rfl
    | some text =>
      dsimp only
      rw [OrderedMap.get_set]
      simp only [Option.some_or]
      rfl
  constructor
  · intro name among
    have first : name ≠ TEMPORAL_HEADER_DEADLINE_UNIX_NANO := by
      intro same
      rw [same] at among
      exact absurd among (by decide)
    have second : name ≠ TEMPORAL_HEADER_PRIORITY := by
      intro same
      rw [same] at among
      exact absurd among (by decide)
    rw [values, if_neg first, get_withPriority, if_neg second, get_transportMetadata]
  · have priority_uncarried : TEMPORAL_HEADER_PRIORITY ∉ carrierNames tracingEnabled :=
      fun among => absurd (carrierNames_among among) (by decide)
    have deadline_uncarried : TEMPORAL_HEADER_DEADLINE_UNIX_NANO ∉ carrierNames tracingEnabled :=
      fun among => absurd (carrierNames_among among) (by decide)
    constructor
    · rw [values, if_neg (by decide), get_withPriority, if_pos rfl, get_transportMetadata, if_neg priority_uncarried,
        Option.or_none]
    · rw [values, if_pos rfl, get_withPriority, if_neg (by decide), get_transportMetadata, if_neg deadline_uncarried,
        Option.or_none]

theorem get_started {inputHeaders sent : Headers Payload}
    (started : startWithDetails converter fraction wall w (some (state, tracingEnabled)) inputHeaders = some sent)
    (clear : ∀ name ∈ HEADER_NAMES, inputHeaders.get name = none) :
    ∃ own, encodeContext converter fraction wall w state tracingEnabled = some own ∧
      ∀ name ∈ HEADER_NAMES, sent.get name = own.get name := by
  simp only [startWithDetails, Option.map_eq_some_iff] at started
  obtain ⟨own, encoded, rfl⟩ := started
  refine ⟨own, encoded, ?_⟩
  intro name among
  rw [OrderedMap.get_spread]
  split
  · rw [clear name among, Option.or_none]
  · rw [OrderedMap.get_filterKeys, clear name among, ite_self, Option.or_none]

end Sending

section Receiving
variable {Payload E : Type} {converter : PayloadConverter Payload} {fraction : ℚ → String}

theorem decodeString_text (reads : ∀ text, converter.fromPayload (converter.toPayload (.text text)) = some (.text text))
    (text : Option String) : decodeString converter (text.map (converter.toPayload ∘ .text)) = text := by
  cases text with
  | none => rfl
  | some text => simp [decodeString, reads]

theorem value_withMetadata (state : MessageContextState) (copy : OrderedMap String String) (name : String) :
    value (MessageContext.withMetadata state copy) name = copy.get name := by
  unfold value MessageContext.withMetadata MessageContext.kept
  dsimp only
  split
  · rename_i empty
    have none_there : copy.get name = none := by
      have absent : copy.entries = [] := List.length_eq_zero_iff.mp empty
      simp [OrderedMap.get, absent]
    rw [none_there]
    rfl
  · rfl

theorem bounded_frame (w : World E) (state : MessageContextState) (timeoutMs : Number) :
    let result := bounded w state timeoutMs
    result.1.metadata = state.metadata ∧ result.1.priority = state.priority ∧
      result.1.deadline = childDeadline state.deadline (some (boundedDeadline w.now state.deadline timeoutMs)) ∧
      result.2.now = w.now := by
  intro result
  unfold result bounded MessageContext.withDeadline
  dsimp only
  split
  · rename_i same
    refine ⟨rfl, rfl, (strictlyEqual_eq same).symm, rfl⟩
  · refine ⟨rfl, rfl, rfl, ?_⟩
    cases found : childDeadline state.deadline (some (boundedDeadline w.now state.deadline timeoutMs)) with
    | none => rfl
    | some deadline => exact (composeSignal_made w state.signal deadline).2.now

theorem withExternalCancellation_frame (w : World E) (state : MessageContextState) (signal : Nat) :
    let result := withExternalCancellation w state signal
    result.1.metadata = state.metadata ∧ result.1.priority = state.priority ∧
      result.1.deadline = state.deadline ∧ result.2.now = w.now := by
  intro result
  unfold result withExternalCancellation MessageContext.withExternalCancellation
  dsimp only
  split
  · exact ⟨rfl, rfl, rfl, rfl⟩
  · exact ⟨rfl, rfl, rfl, (combineAbortSignals_made w state.signal signal).2.now⟩

theorem decodedPriority_frame (state : MessageContextState) (priority : Number) :
    (decodedPriority state priority).metadata = state.metadata ∧
      (decodedPriority state priority).deadline = state.deadline ∧
      (decodedPriority state priority).priority = if priority.isSafeInteger then some priority else state.priority := by
  unfold decodedPriority
  split
  · exact ⟨rfl, rfl, rfl⟩
  · exact ⟨rfl, rfl, rfl⟩

def headerPriority (converter : PayloadConverter Payload) (headers : Headers Payload) : Option Number :=
  let priority := parseInt ((decodeString converter (headers.get TEMPORAL_HEADER_PRIORITY)).getD "")
  if priority.isSafeInteger then some priority else none

/-- The time that the headers leave. -/
def headerTimeout (converter : PayloadConverter Payload) (wall : Int) (headers : Headers Payload) : Option Number :=
  (decodeString converter (headers.get TEMPORAL_HEADER_DEADLINE_UNIX_NANO)).bind (decodedTimeout wall)

theorem decodedFields_frame (converter : PayloadConverter Payload) (signal : Nat) (headers : Headers Payload) (tracingEnabled : Bool) :
    let context := decodedFields converter signal headers tracingEnabled
    (∀ name, value context name = if name ∈ carrierNames tracingEnabled then filled converter headers name else none) ∧
      context.priority = headerPriority converter headers ∧ context.deadline = none := by
  intro context
  obtain ⟨metadata, deadline, priority⟩ := decodedPriority_frame
    (MessageContext.withMetadata { signal } (decodedMetadata converter headers tracingEnabled))
    (parseInt ((decodeString converter (headers.get TEMPORAL_HEADER_PRIORITY)).getD ""))
  refine ⟨?_, priority, deadline⟩
  intro name
  have through : value context name = (decodedMetadata converter headers tracingEnabled).get name := by
    rw [← value_withMetadata { signal }]
    unfold value context decodedFields
    rw [metadata]
  rw [through, decodedMetadata, OrderedMap.get_collect]
  rfl

theorem decodeContext_frame (converter : PayloadConverter Payload) (wall : Int) (w : World E) (headers : Headers Payload) (tracingEnabled : Bool) :
    let result := decodeContext converter wall w headers tracingEnabled
    (∀ name, value result.1 name = if name ∈ carrierNames tracingEnabled then filled converter headers name else none) ∧
      result.1.priority = headerPriority converter headers ∧
      result.1.deadline = (headerTimeout converter wall headers).map (timeAfter w.now) ∧ result.2.now = w.now := by
  intro result
  obtain ⟨values, priority, unlimited⟩ := decodedFields_frame converter w.count headers tracingEnabled
  unfold result decodeContext headerTimeout
  dsimp only
  split
  · rename_i timeout found
    obtain ⟨kept, same_priority, bound, clock⟩ := bounded_frame (create w { origin := .root })
      (decodedFields converter w.count headers tracingEnabled) timeout
    refine ⟨?_, same_priority.trans priority, ?_, clock⟩
    · intro name
      rw [← values name]
      unfold value
      rw [kept]
    · rw [bound, unlimited, found]
      rfl
  · rename_i missing
    refine ⟨values, priority, ?_, rfl⟩
    rw [unlimited, missing]
    rfl

def closedBy (now : ℚ) (startToCloseTimeoutMs : Number) (deadline : Option Number) : Option Number :=
  if (Number.finite 0).lt startToCloseTimeoutMs then
    childDeadline deadline (some (boundedDeadline now deadline startToCloseTimeoutMs))
  else deadline

theorem executeActivity_frame (converter : PayloadConverter Payload) (wall : Int) (w : World E) (headers : Headers Payload) (tracingEnabled : Bool)
    (cancellationSignal : Nat) (startToCloseTimeoutMs : Number) :
    let context := (executeActivity converter wall w headers tracingEnabled cancellationSignal startToCloseTimeoutMs).1
    (∀ name, value context name = if name ∈ carrierNames tracingEnabled then filled converter headers name else none) ∧
      context.priority = headerPriority converter headers ∧
      context.deadline = closedBy w.now startToCloseTimeoutMs
        ((headerTimeout converter wall headers).map (timeAfter w.now)) := by
  intro context
  obtain ⟨values, priority, deadline, clock⟩ := decodeContext_frame converter wall w headers tracingEnabled
  obtain ⟨joined_metadata, joined_priority, joined_deadline, joined_clock⟩ := withExternalCancellation_frame
    (decodeContext converter wall w headers tracingEnabled).2 (decodeContext converter wall w headers tracingEnabled).1
    cancellationSignal
  unfold context executeActivity closedBy
  dsimp only
  split
  · obtain ⟨kept, same_priority, bound, _⟩ := bounded_frame
      (withExternalCancellation (decodeContext converter wall w headers tracingEnabled).2
        (decodeContext converter wall w headers tracingEnabled).1 cancellationSignal).2
      (withExternalCancellation (decodeContext converter wall w headers tracingEnabled).2
        (decodeContext converter wall w headers tracingEnabled).1 cancellationSignal).1 startToCloseTimeoutMs
    refine ⟨?_, by rw [same_priority, joined_priority, priority], ?_⟩
    · intro name
      rw [← values name]
      unfold value
      rw [kept, joined_metadata]
    · rw [bound, joined_deadline, deadline, joined_clock, clock]
  · refine ⟨?_, by rw [joined_priority, priority], by rw [joined_deadline, deadline]⟩
    intro name
    rw [← values name]
    unfold value
    rw [joined_metadata]

end Receiving

section Hops
variable {Payload E : Type} {converter : PayloadConverter Payload} {fraction : ℚ → String}
variable (reads : ∀ text, converter.fromPayload (converter.toPayload (.text text)) = some (.text text))
variable {h : Hop Payload E} (clear : h.Clear) {state : MessageContextState}

include clear in
theorem get_arrived (sent : Headers Payload) {name : String} (among : name ∈ HEADER_NAMES) :
    (h.scheduled converter sent).get name =
      if workflowTracingEnabled h.noopTracing = false ∧ name ∈ TRACE_CARRIER_NAMES then none else sent.get name := by
  rw [Hop.scheduled, clear.dispatch _ name among, get_scheduled h.noopTracing _ among (clear.activity name among),
    clear.delivery _ name among]

/-- What gets through the three places that look at whether tracing is enabled. -/
theorem traced_names (h : Hop Payload E) (name : String) :
    name ∈ carrierNames h.traced ↔ name ∈ carrierNames h.activityTracing ∧ name ∈ carrierNames h.submissionTracing ∧
      ¬(workflowTracingEnabled h.noopTracing = false ∧ name ∈ TRACE_CARRIER_NAMES) := by
  unfold Hop.traced carrierNames
  cases h.submissionTracing <;> cases workflowTracingEnabled h.noopTracing <;> cases h.activityTracing <;>
    simp [CARRIER_NAMES, STREAM_ID_ONLY_NAMES, TRACE_CARRIER_NAMES]
  all_goals grind

include clear in
theorem hop_parts {arrived : MessageContextState} (passed : hop converter fraction h state = some arrived) :
    ∃ own headers, encodeContext converter fraction h.left.wall ({ now := h.left.now } : World E) state
        h.submissionTracing = some own ∧
      (∀ name ∈ HEADER_NAMES, headers.get name =
        if workflowTracingEnabled h.noopTracing = false ∧ name ∈ TRACE_CARRIER_NAMES then none else own.get name) ∧
      (∀ name, value arrived name =
        if name ∈ carrierNames h.activityTracing then filled converter headers name else none) ∧
      arrived.priority = headerPriority converter headers ∧
      arrived.deadline = closedBy h.arrived.now h.startToCloseTimeoutMs
        ((headerTimeout converter h.arrived.wall headers).map (timeAfter h.arrived.now)) := by
  simp only [hop, Option.map_eq_some_iff] at passed
  obtain ⟨sent, started, rfl⟩ := passed
  obtain ⟨own, encoded, kept⟩ := get_started started clear.input
  obtain ⟨decoded, priority, deadline⟩ := executeActivity_frame converter h.arrived.wall
    { h.world with now := h.arrived.now } (h.scheduled converter sent) h.activityTracing h.cancellationSignal
    h.startToCloseTimeoutMs
  refine ⟨own, h.scheduled converter sent, encoded, ?_, decoded, priority, deadline⟩
  intro name among
  rw [get_arrived clear sent among, kept name among]

include reads clear in
theorem hop_metadata {arrived : MessageContextState} (passed : hop converter fraction h state = some arrived)
    (name : String) : value arrived name = carried state h.traced name := by
  obtain ⟨own, headers, encoded, headed, decoded, _⟩ := hop_parts clear passed
  obtain ⟨values, _⟩ := get_sent encoded
  rw [decoded, carried]
  by_cases last : name ∈ carrierNames h.activityTracing
  · have among := carrierNames_among last
    rw [if_pos last, filled, headed name (List.mem_append_left _ among)]
    by_cases middle : workflowTracingEnabled h.noopTracing = false ∧ name ∈ TRACE_CARRIER_NAMES
    · rw [if_pos middle, if_neg (fun carries => ((traced_names h name).mp carries).2.2 middle)]
      rfl
    · rw [if_neg middle, values name among, decodeString_text reads]
      by_cases first : name ∈ carrierNames h.submissionTracing
      · rw [if_pos first, if_pos ((traced_names h name).mpr ⟨last, first, middle⟩)]
      · rw [if_neg first, if_neg (fun carries => first ((traced_names h name).mp carries).2.1)]
        rfl
  · rw [if_neg last, if_neg (fun carries => last ((traced_names h name).mp carries).1)]

include reads clear in
theorem hop_priority {arrived : MessageContextState} (passed : hop converter fraction h state = some arrived)
    (safe : ∀ priority, state.priority = some priority → priority.isSafeInteger = true) :
    arrived.priority = state.priority := by
  obtain ⟨own, headers, encoded, headed, _, priority, _⟩ := hop_parts clear passed
  obtain ⟨_, sent, _⟩ := get_sent encoded
  have untraced : TEMPORAL_HEADER_PRIORITY ∉ TRACE_CARRIER_NAMES := by decide
  have header := headed TEMPORAL_HEADER_PRIORITY (by decide)
  rw [if_neg (fun taken => untraced taken.2), sent] at header
  rw [priority, headerPriority, header, decodeString_text reads]
  cases own_priority : state.priority with
  | none => rfl
  | some n =>
    have whole := safe n own_priority
    rw [Option.map_some, Option.getD_some, parseInt_numberText fraction whole]
    exact if_pos whole

end Hops

section Untraced
variable {Payload E : Type}

theorem get_spread_none {m other : Headers Payload} {name : String} (first : m.get name = none)
    (second : other.get name = none) : (m.spread other).get name = none := by
  rw [OrderedMap.get_spread, first, second]
  rfl

theorem withoutTracingHeaders_clean (headers : Headers Payload) {name : String}
    (trace : name ∈ TEMPORAL_TRACE_HEADER :: TRACE_CARRIER_NAMES) : (withoutTracingHeaders headers).get name = none := by
  rw [withoutTracingHeaders, get_deleteAll, if_pos]
  simp only [TRACE_CARRIER_NAMES, List.mem_cons, List.not_mem_nil, or_false] at trace ⊢
  tauto

theorem untraced_values (converter : PayloadConverter Payload) (wall : Int) (w : World E) (headers : Headers Payload)
    {name : String} (other : name ≠ STREAM_ID_HEADER) : value (decodeContext converter wall w headers false).1 name = none := by
  obtain ⟨values, _⟩ := decodeContext_frame converter wall w headers false
  have uncarried : name ∉ carrierNames false := by
    intro among
    exact other (List.mem_singleton.mp among)
  rw [values, if_neg uncarried]

end Untraced

end ContextPropagations
