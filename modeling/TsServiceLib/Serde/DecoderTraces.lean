import TsServiceLib.Library.Tracing
import TsServiceLib.Serde.StringSerdes

/-!
What the decoders do to bytes that nobody wrote. A traced decoder is the decoder
with a record of the slices that it takes of its input and of the elements it
begins to read; nested decoders get a slice and leave their record in terms of
the whole. Ends of slices are computed as numbers are, by rounding.
-/
namespace Serdes
open Numbers Framing BigEndian Tracing
variable {T K V α β : Type}

inductive Access where
  | slice (start stop : Nat)
  | element
  deriving DecidableEq

abbrev Trace (T : Type) := Traced Access Failure T

def elementReads (events : List Access) : Nat := events.count .element

/-- Every slice lies between two offsets. -/
def Inside (low high : Nat) (events : List Access) : Prop :=
  ∀ start stop, .slice start stop ∈ events → low ≤ start ∧ start ≤ stop ∧ stop ≤ high

section Decoders

namespace SerdeReader

def traceRead (base : Nat) (data : Bytes) (size : Nat) (what : String) (offset : Nat) : Trace (Bytes × Nat) :=
  let stop := Number.roundToDouble (offset + size)
  if ¬size ≤ Number.maxSafeInteger then lift (.error (.serdeError (what ++ " has invalid size") offset))
  else if ¬stop ≤ Number.maxSafeInteger then lift (.error (.serdeError "serde size overflow" offset))
  else if stop > data.length then lift (.error (.serdeError ("serde underflow while reading " ++ what) offset))
  else do
    emit (.slice (base + offset) (base + stop))
    pure ((data.take stop).drop offset, stop)

def traceReadSize (base : Nat) (data : Bytes) (maximum : Nat) (what : String) (offset : Nat) : Trace (Nat × Nat) := do
  lift (validateLimit maximum what)
  let (encoded, next) ← traceRead base data sizeBytes what offset
  if ofBytes encoded > Number.maxSafeInteger then
    lift (.error (.serdeError (what ++ " does not fit a safe integer") offset))
  else if ofBytes encoded > maximum then lift (.error (.serdeError (what ++ " exceeds configured limit") offset))
  else pure (ofBytes encoded, next)

end SerdeReader

/-- A decoder of the slice that starts at an offset of the whole. -/
abbrev Decoder (T : Type) := Nat → Bytes → Trace T

/-- The loop over the announced count. -/
def traceTimes (read : Nat → Trace (α × Nat)) : Nat → Nat → Trace (List α × Nat)
  | 0, offset => pure ([], offset)
  | count + 1, offset => do
    emit .element
    let (item, offset) ← read offset
    let (items, offset) ← traceTimes read count offset
    pure (item :: items, offset)

def traceArray (read : Nat → Bytes → Nat → Trace (T × Nat)) (limits : SerdeLimits) : Decoder (List T) := fun base data => do
  let offset ← lift (SerdeReader.start data limits.maxTotalBytes)
  let (count, offset) ← SerdeReader.traceReadSize base data limits.maxContainerElements "array count" offset
  let (result, _) ← traceTimes (read base data) count offset
  pure result

def traceFixedSizeElement (element : Decoder T) (elementSize : Nat) (base : Nat) (data : Bytes) (offset : Nat) :
    Trace (T × Nat) := do
  let (bytes, next) ← SerdeReader.traceRead base data elementSize "array element" offset
  let item ← element (base + offset) bytes
  pure (item, next)

def tracePart (decode : Decoder T) (base : Nat) (data : Bytes) (what : String) (offset : Nat) : Trace (T × Nat) := do
  let (length, offset) ← SerdeReader.traceReadSize base data data.length (what ++ " length") offset
  let (bytes, next) ← SerdeReader.traceRead base data length what offset
  let item ← decode (base + offset) bytes
  pure (item, next)

def traceFramedElement (element : Decoder T) (base : Nat) (data : Bytes) (offset : Nat) : Trace (T × Nat) :=
  tracePart element base data "array element" offset

def traceStringElement (limits : SerdeLimits) (base : Nat) (data : Bytes) (offset : Nat) : Trace (JsString × Nat) := do
  let (length, offset) ← SerdeReader.traceReadSize base data limits.maxStringBytes "string length" offset
  let (encoded, next) ← SerdeReader.traceRead base data length "string" offset
  let item ← lift (decodeString (.serdeError "string is not valid UTF-8" offset) encoded)
  pure (item, next)

def traceParts (first : Decoder K) (second : Decoder V) (base : Nat) (data : Bytes) (keyOf valueOf : String) (offset : Nat) :
    Trace ((K × V) × Nat) := do
  let (key, offset) ← tracePart first base data keyOf offset
  let (value, offset) ← tracePart second base data valueOf offset
  pure ((key, value), offset)

def traceMap [MapKey K] (keyArray : Decoder (List K)) (valueArray : Decoder (List V)) (maxTotalBytes : Nat) :
    Decoder (JsMap K V) := fun base data => do
  let offset ← lift (SerdeReader.start data maxTotalBytes)
  let ((keys, values), offset) ← traceParts keyArray valueArray base data "map keys" "map values" offset
  if keys.length ≠ values.length then lift (.error (.serdeError "map key and value counts do not match" offset))
  else lift (JsMap.fill offset keys values JsMap.empty)

def traceKeyValue (key : Decoder K) (value : Decoder V) : Decoder (KeyValue K V) := fun base data => do
  let offset ← lift (SerdeReader.start data Number.maxSafeInteger)
  let ((key, value), _) ← traceParts key value base data "key" "value" offset
  pure { key, value }

end Decoders

section Records
variable {low high low' high' : Nat} {events more : List Access}

theorem Inside.nil : Inside low high [] := nofun

theorem Inside.append (first : Inside low high events) (second : Inside low high more) : Inside low high (events ++ more) := by
  intro start stop mem
  rcases List.mem_append.mp mem with early | late
  · exact first start stop early
  · exact second start stop late

theorem Inside.widen (inside : Inside low high events) (below : low' ≤ low) (above : high ≤ high') : Inside low' high' events := by
  intro start stop mem
  have bounds := inside start stop mem
  omega

theorem Inside.element (inside : Inside low high events) : Inside low high (.element :: events) := by
  intro start stop mem
  exact inside start stop (by simpa using mem)

@[simp] theorem elementReads_append : elementReads (events ++ more) = elementReads events + elementReads more :=
  List.count_append

@[simp] theorem elementReads_element : elementReads (.element :: events) = elementReads events + 1 :=
  List.count_cons_self

end Records

section Readers
variable {base spent size : Nat} {data : Bytes}

/-- A traced reader against the reader, from any offset of the data. What it takes
    is inside, and it has moved on by what it spent and by the elements it began
    to read. -/
structure SafeReader (base : Nat) (data : Bytes) (read : Nat → Except Failure (α × Nat)) (trace : Nat → Trace (α × Nat))
    (spent : Nat) : Prop where
  same : ∀ offset ≤ data.length, (trace offset).result = read offset
  inside : ∀ offset ≤ data.length, Inside base (base + data.length) (trace offset).events
  few : ∀ offset ≤ data.length, elementReads (trace offset).events ≤ data.length - offset - 7
  ahead : ∀ offset ≤ data.length, ∀ x next, read offset = .ok (x, next) →
    offset + elementReads (trace offset).events + spent ≤ next ∧ next ≤ data.length

theorem read_ok {what : String} {offset next : Nat} {bytes : Bytes}
    (moved : SerdeReader.read data size what offset = .ok (bytes, next)) :
    bytes = (data.drop offset).take size ∧ next = offset + size ∧ offset + size ≤ data.length ∧ bytes.length = size := by
  unfold SerdeReader.read at moved
  split at moved
  · cases moved
  · split at moved
    · cases moved
    · split at moved
      · cases moved
      · cases moved
        refine ⟨rfl, rfl, by omega, ?_⟩
        rw [List.length_take, List.length_drop]
        omega

theorem readSize_ok {maximum : Nat} {what : String} {offset next count : Nat}
    (moved : SerdeReader.readSize data maximum what offset = .ok (count, next)) :
    count = ofBytes ((data.drop offset).take sizeBytes) ∧ next = offset + sizeBytes ∧ offset + sizeBytes ≤ data.length := by
  obtain ⟨_, _, rest⟩ := bind_ok.mp moved
  obtain ⟨⟨encoded, after⟩, read, rest⟩ := bind_ok.mp rest
  obtain ⟨contents, place, fits, -⟩ := read_ok read
  dsimp only at rest
  split at rest
  · cases rest
  · split at rest
    · cases rest
    · cases rest
      exact ⟨by rw [contents], place, fits⟩

theorem traceRead_eq (safe : data.length ≤ Number.maxSafeInteger) {what : String} {offset : Nat} (within : offset ≤ data.length) :
    SerdeReader.traceRead base data size what offset =
      match SerdeReader.read data size what offset with
      | .error failure => ⟨.error failure, []⟩
      | .ok parsed => ⟨.ok parsed, [.slice (base + offset) (base + parsed.2)]⟩ := by
  unfold SerdeReader.traceRead SerdeReader.read
  by_cases small : size ≤ Number.maxSafeInteger
  · by_cases exact_sum : offset + size ≤ Number.maxSafeInteger
    · have end_exact := Number.roundToDouble_safe exact_sum
      simp only [small, not_true_eq_false, if_false, end_exact, exact_sum]
      by_cases beyond : offset + size > data.length
      · rw [if_pos beyond, if_pos beyond]
        rfl
      · rw [if_neg beyond, if_neg beyond]
        have contents : (data.take (offset + size)).drop offset = (data.drop offset).take size := by
          rw [List.drop_take, Nat.add_sub_cancel_left]
        rw [contents]
        rfl
    · have rounded := Number.roundToDouble_unsafe (by omega) (by omega : offset + size ≤ 2 * Number.maxSafeInteger)
      have rounded_beyond : ¬Number.roundToDouble (offset + size) ≤ Number.maxSafeInteger := by omega
      simp only [small, not_true_eq_false, if_false, rounded_beyond, exact_sum, not_false_eq_true, if_true]
      rfl
  · simp only [small, not_false_eq_true, if_true]
    rfl

theorem traceRead_safe (safe : data.length ≤ Number.maxSafeInteger) (what : String) :
    SafeReader base data (SerdeReader.read data size what) (SerdeReader.traceRead base data size what) size := by
  constructor
  · intro offset within
    rw [traceRead_eq safe within]
    cases SerdeReader.read data size what offset <;> rfl
  · intro offset within
    rw [traceRead_eq safe within]
    cases moved : SerdeReader.read data size what offset with
    | error failure => exact .nil
    | ok parsed =>
      obtain ⟨-, place, fits, -⟩ := read_ok moved
      intro start stop mem
      cases List.mem_singleton.mp mem
      omega
  · intro offset within
    rw [traceRead_eq safe within]
    cases SerdeReader.read data size what offset <;> exact Nat.zero_le _
  · intro offset within x next moved
    rw [traceRead_eq safe within, moved]
    obtain ⟨-, place, fits, -⟩ := read_ok moved
    have none : elementReads [.slice (base + offset) (base + next)] = 0 := rfl
    dsimp only
    omega

theorem traceReadSize_eq (maximum : Nat) (what : String) (offset : Nat) :
    (SerdeReader.traceReadSize base data maximum what offset).events =
      if maximum ≤ Number.maxSafeInteger then (SerdeReader.traceRead base data sizeBytes what offset).events else [] := by
  unfold SerdeReader.traceReadSize validateLimit
  split
  · cases parsed : (SerdeReader.traceRead base data sizeBytes what offset).result with
    | error failure =>
      change (SerdeReader.traceRead base data sizeBytes what offset >>= _).events = _
      rw [events_error parsed]
    | ok sized =>
      change (SerdeReader.traceRead base data sizeBytes what offset >>= _).events = _
      rw [events_ok parsed]
      dsimp only
      split
      · exact List.append_nil _
      · split
        · exact List.append_nil _
        · exact List.append_nil _
  · rfl

theorem traceReadSize_safe (safe : data.length ≤ Number.maxSafeInteger) (maximum : Nat) (what : String) :
    SafeReader base data (SerdeReader.readSize data maximum what) (SerdeReader.traceReadSize base data maximum what) sizeBytes := by
  have read : SafeReader base data (SerdeReader.read data sizeBytes what)
    (SerdeReader.traceRead base data sizeBytes what) sizeBytes := traceRead_safe safe what
  constructor
  · intro offset within
    simp only [SerdeReader.traceReadSize, SerdeReader.readSize, result_bind, result_lift, read.same offset within]
    congr 1
    funext _
    congr 1
    funext parsed
    split
    · rfl
    · split
      · rfl
      · rfl
  · intro offset within
    rw [traceReadSize_eq]
    split
    · exact read.inside offset within
    · exact .nil
  · intro offset within
    rw [traceReadSize_eq]
    split
    · exact read.few offset within
    · exact Nat.zero_le _
  · intro offset within x next moved
    obtain ⟨_, limit, rest⟩ := bind_ok.mp moved
    obtain ⟨⟨encoded, after⟩, sized, -⟩ := bind_ok.mp rest
    obtain ⟨-, place, -⟩ := readSize_ok moved
    obtain ⟨-, end_of, -, -⟩ := read_ok sized
    rw [traceReadSize_eq, if_pos (validateLimit_ok.mp limit), place, ← end_of]
    exact read.ahead offset within encoded after sized

section Compositions
variable {read : Nat → Except Failure (α × Nat)} {trace : Nat → Trace (α × Nat)}

theorem SafeReader.bind {next : α → Nat → Except Failure (β × Nat)} {nextTrace : α → Nat → Trace (β × Nat)} {more : Nat}
    (first : SafeReader base data read trace spent) (apart : 7 ≤ spent)
    (second : ∀ x, SafeReader base data (next x) (nextTrace x) more) :
    SafeReader base data (fun offset => read offset >>= fun parsed => next parsed.1 parsed.2)
      (fun offset => trace offset >>= fun parsed => nextTrace parsed.1 parsed.2) (spent + more) := by
  constructor
  · intro offset within
    rw [result_bind, first.same offset within]
    cases moved : read offset with
    | error failure => rfl
    | ok parsed => exact (second parsed.1).same parsed.2 (first.ahead offset within _ _ moved).2
  · intro offset within
    have earlier := first.inside offset within
    cases moved : read offset with
    | error failure =>
      rw [events_error ((first.same offset within).trans moved)]
      exact earlier
    | ok parsed =>
      rw [events_ok ((first.same offset within).trans moved)]
      exact earlier.append ((second parsed.1).inside parsed.2 (first.ahead offset within _ _ moved).2)
  · intro offset within
    have few := first.few offset within
    cases moved : read offset with
    | error failure =>
      rw [events_error ((first.same offset within).trans moved)]
      exact few
    | ok parsed =>
      rw [events_ok ((first.same offset within).trans moved), elementReads_append]
      have ahead := first.ahead offset within _ _ moved
      have later := (second parsed.1).few parsed.2 ahead.2
      omega
  · intro offset within x last moved
    obtain ⟨parsed, moved, rest⟩ := bind_ok.mp moved
    rw [events_ok ((first.same offset within).trans moved), elementReads_append]
    have ahead := first.ahead offset within _ _ moved
    have later := (second parsed.1).ahead parsed.2 ahead.2 x last rest
    omega

theorem SafeReader.decode (size : Nat) (make : Nat → Bytes → Except Failure T) (decode : Nat → Bytes → Trace T)
    (safe : data.length ≤ Number.maxSafeInteger) (what : String) (small : spent ≤ size ∧ spent ≤ 7)
    (each : ∀ offset bytes, (decode offset bytes).result = make offset bytes ∧
      Inside (base + offset) (base + offset + bytes.length) (decode offset bytes).events ∧
      elementReads (decode offset bytes).events ≤ bytes.length - 7) :
    SafeReader base data
      (fun offset => SerdeReader.read data size what offset >>= fun parsed => make offset parsed.1 >>= fun item =>
        pure (item, parsed.2))
      (fun offset => SerdeReader.traceRead base data size what offset >>= fun parsed =>
        decode offset parsed.1 >>= fun item => pure (item, parsed.2)) spent := by
  have read : SafeReader base data _ _ size := traceRead_safe safe what
  have quiet : ∀ offset ≤ data.length, elementReads (SerdeReader.traceRead base data size what offset).events = 0 := by
    intro offset within
    rw [traceRead_eq safe within]
    cases SerdeReader.read data size what offset <;> rfl
  constructor
  · intro offset within
    simp only [result_bind, read.same offset within, (each _ _).1, result_pure]
    rfl
  · intro offset within
    cases moved : SerdeReader.read data size what offset with
    | error failure =>
      rw [events_error ((read.same offset within).trans moved)]
      exact read.inside offset within
    | ok parsed =>
      obtain ⟨-, -, fits, length⟩ := read_ok moved
      rw [events_ok ((read.same offset within).trans moved), events_pure_bind]
      have own := (each offset parsed.1).2.1
      exact (read.inside offset within).append (own.widen (by omega) (by omega))
  · intro offset within
    have none := quiet offset within
    cases moved : SerdeReader.read data size what offset with
    | error failure =>
      rw [events_error ((read.same offset within).trans moved)]
      omega
    | ok parsed =>
      obtain ⟨-, -, fits, length⟩ := read_ok moved
      rw [events_ok ((read.same offset within).trans moved), events_pure_bind, elementReads_append]
      have own := (each offset parsed.1).2.2
      omega
  · intro offset within x last decoded
    have none := quiet offset within
    obtain ⟨parsed, moved, rest⟩ := bind_ok.mp decoded
    obtain ⟨_, _, made⟩ := bind_ok.mp rest
    cases made
    obtain ⟨-, place, fits, length⟩ := read_ok moved
    rw [events_ok ((read.same offset within).trans moved), events_pure_bind, elementReads_append]
    have own := (each offset parsed.1).2.2
    omega

theorem SafeReader.times (element : SafeReader base data read trace 1) {offset : Nat} (count : Nat)
    (within : offset ≤ data.length) :
    (traceTimes trace count offset).result = readTimes read count offset ∧
    Inside base (base + data.length) (traceTimes trace count offset).events ∧
    elementReads (traceTimes trace count offset).events ≤ data.length - offset + 1 := by
  induction count generalizing offset with
  | zero => exact ⟨rfl, .nil, Nat.zero_le _⟩
  | succ count ih =>
    have few := element.few offset within
    have inside := element.inside offset within
    cases moved : read offset with
    | error failure =>
      have failed := (element.same offset within).trans moved
      refine ⟨?_, ?_, ?_⟩
      · rw [readTimes, moved]
        change (trace offset >>= _).result = _
        rw [result_bind, failed]
        rfl
      · change Inside _ _ (.element :: (trace offset >>= _).events)
        rw [events_error failed]
        exact inside.element
      · change elementReads (.element :: (trace offset >>= _).events) ≤ _
        rw [events_error failed, elementReads_element]
        omega
    | ok parsed =>
      have done := (element.same offset within).trans moved
      have ahead := element.ahead offset within _ _ moved
      obtain ⟨sameLater, insideLater, fewLater⟩ := ih ahead.2
      refine ⟨?_, ?_, ?_⟩
      · rw [readTimes, moved]
        change (trace offset >>= _).result = _
        rw [result_bind, done]
        change (traceTimes trace count parsed.2 >>= _).result = _
        rw [result_bind, sameLater]
        rfl
      · change Inside _ _ (.element :: (trace offset >>= _).events)
        rw [events_ok done, events_pure_bind]
        exact (inside.append insideLater).element
      · change elementReads (.element :: (trace offset >>= _).events) ≤ _
        rw [events_ok done, events_pure_bind, elementReads_element, elementReads_append]
        omega

end Compositions

end Readers

section Safety
variable {s : Serde T} {decode : Decoder T} {elementSerde : Serde T} {element : Decoder T} {limits : SerdeLimits}

/-- A traced decoder gives what the decoder gives, takes nothing from outside of
    its input, and begins no more element reads, its own and nested ones, than
    the bytes after a count could hold and one. -/
structure SafeDecoder (s : Serde T) (decode : Decoder T) : Prop where
  same : ∀ base data, (decode base data).result = s.deserialize data
  inside : ∀ base data, Inside base (base + data.length) (decode base data).events
  few : ∀ base data, elementReads (decode base data).events ≤ data.length - 7

/-- A decoder that leaves no record of what it does with its slice. -/
def traceLeaf (s : Serde T) : Decoder T := fun _ data => lift (s.deserialize data)

theorem traceLeaf_safe (s : Serde T) : SafeDecoder s (traceLeaf s) := by
  constructor
  · intro base data
    rfl
  · intro base data
    exact .nil
  · intro base data
    exact Nat.zero_le _

theorem start_front {data : Bytes} {maximum offset : Nat} (started : SerdeReader.start data maximum = .ok offset) :
    offset = 0 ∧ data.length ≤ Number.maxSafeInteger := by
  obtain ⟨_, limit, rest⟩ := bind_ok.mp started
  have safe := validateLimit_ok.mp limit
  split at rest
  · cases rest
  · cases rest
    exact ⟨rfl, by omega⟩

theorem start_safe {body : Bytes → Nat → Except Failure T} {trace : Nat → Bytes → Nat → Trace T} {maximum : Nat}
    (whole : ∀ data, s.deserialize data = SerdeReader.start data maximum >>= body data)
    (traced : ∀ base data, decode base data = lift (SerdeReader.start data maximum) >>= trace base data)
    (each : ∀ base data, data.length ≤ Number.maxSafeInteger → (trace base data 0).result = body data 0 ∧
      Inside base (base + data.length) (trace base data 0).events ∧
      elementReads (trace base data 0).events ≤ data.length - 7) : SafeDecoder s decode := by
  have run : ∀ base data, (decode base data).result = s.deserialize data ∧
      Inside base (base + data.length) (decode base data).events ∧
      elementReads (decode base data).events ≤ data.length - 7 := by
    intro base data
    rw [whole, traced, result_bind, result_lift]
    cases started : SerdeReader.start data maximum with
    | error failure => exact ⟨rfl, .nil, Nat.zero_le _⟩
    | ok offset =>
      obtain ⟨front, safe⟩ := start_front started
      subst front
      have done : (lift (.ok 0) : Trace Nat).result = .ok 0 := rfl
      rw [events_ok done]
      exact each base data safe
  constructor
  · exact fun base data => (run base data).1
  · exact fun base data => (run base data).2.1
  · exact fun base data => (run base data).2.2

theorem traceArray_safe {framing : ElementFraming T} {read : Nat → Bytes → Nat → Trace (T × Nat)}
    (elements : ∀ base data, data.length ≤ Number.maxSafeInteger → SafeReader base data (framing.read data) (read base data) 1) :
    SafeDecoder (framing.arraySerde limits) (traceArray read limits) := by
  apply start_safe (fun _ => rfl) (fun _ _ => rfl)
  intro base data safe
  have size : SafeReader base data _ _ sizeBytes := traceReadSize_safe safe limits.maxContainerElements "array count"
  have front := size.same 0 (Nat.zero_le _)
  have inside := size.inside 0 (Nat.zero_le _)
  have few := size.few 0 (Nat.zero_le _)
  dsimp only
  cases moved : SerdeReader.readSize data limits.maxContainerElements "array count" 0 with
  | error failure =>
    rw [moved] at front
    rw [result_bind, events_error front, front]
    exact ⟨rfl, inside, few⟩
  | ok parsed =>
    rw [moved] at front
    obtain ⟨-, place, fits⟩ := readSize_ok moved
    have eight : sizeBytes = 8 := rfl
    have quiet := size.ahead 0 (Nat.zero_le _) _ _ moved
    obtain ⟨same, insideLoop, fewLoop⟩ := (elements base data safe).times parsed.1 (by omega : parsed.2 ≤ data.length)
    rw [result_bind, events_ok front, front]
    refine ⟨?_, ?_, ?_⟩
    · change (traceTimes (read base data) parsed.1 parsed.2 >>= _).result = _
      rw [result_bind, same]
      rfl
    · refine inside.append ?_
      rw [events_pure_bind]
      exact insideLoop
    · rw [elementReads_append, events_pure_bind]
      omega

theorem traceFixedSizeElement_safe (decoder : SafeDecoder elementSerde element) {elementSize : Nat} (positive : 0 < elementSize)
    (base : Nat) (data : Bytes) (safe : data.length ≤ Number.maxSafeInteger) :
    SafeReader base data ((fixedSizeElement elementSerde elementSize).read data)
      (traceFixedSizeElement element elementSize base data) 1 := by
  apply SafeReader.decode elementSize (fun _ => elementSerde.deserialize) (fun offset => element (base + offset)) safe "array element"
    ⟨positive, by decide⟩
  intro offset bytes
  exact ⟨decoder.same _ _, decoder.inside _ _, decoder.few _ _⟩

theorem tracePart_safe (decoder : SafeDecoder s decode) (base : Nat) (data : Bytes)
    (safe : data.length ≤ Number.maxSafeInteger) (what : String) :
    SafeReader base data (readPart s data what) (tracePart decode base data what) (sizeBytes + 0) := by
  have size : SafeReader base data _ _ sizeBytes := traceReadSize_safe safe data.length (what ++ " length")
  have part : ∀ length, SafeReader base data _ _ 0 := fun length =>
    SafeReader.decode length (fun _ => s.deserialize) (fun offset => decode (base + offset)) safe what
      ⟨Nat.zero_le _, by decide⟩ (fun offset bytes => ⟨decoder.same _ _, decoder.inside _ _, decoder.few _ _⟩)
  exact size.bind (by decide) part

theorem SafeReader.weaken {base spent less : Nat} {data : Bytes} {read : Nat → Except Failure (α × Nat)}
    {trace : Nat → Trace (α × Nat)} (reader : SafeReader base data read trace spent) (below : less ≤ spent) :
    SafeReader base data read trace less := by
  constructor
  · exact reader.same
  · exact reader.inside
  · exact reader.few
  · intro offset within x next moved
    have ahead := reader.ahead offset within x next moved
    omega

theorem traceFramedElement_safe (decoder : SafeDecoder elementSerde element) (base : Nat) (data : Bytes)
    (safe : data.length ≤ Number.maxSafeInteger) :
    SafeReader base data ((framedElement elementSerde).read data) (traceFramedElement element base data) 1 :=
  (tracePart_safe decoder base data safe "array element").weaken (by decide)

theorem traceStringElement_safe (base : Nat) (data : Bytes) (safe : data.length ≤ Number.maxSafeInteger) :
    SafeReader base data ((stringElement limits).read data) (traceStringElement limits base data) 1 := by
  have size : SafeReader base data _ _ sizeBytes := traceReadSize_safe safe limits.maxStringBytes "string length"
  have contents : ∀ length, SafeReader base data _ _ 0 := fun length =>
    SafeReader.decode length (fun offset => decodeString (.serdeError "string is not valid UTF-8" offset))
      (fun offset bytes => lift (decodeString (.serdeError "string is not valid UTF-8" offset) bytes)) safe "string"
      ⟨Nat.zero_le _, by decide⟩ (fun _ _ => ⟨rfl, .nil, Nat.zero_le _⟩)
  exact (size.bind (by decide) contents).weaken (by decide)

section Parts
variable {first : Serde K} {second : Serde V} {firstDecode : Decoder K} {secondDecode : Decoder V}

theorem SafeReader.pair {base spent more : Nat} {data : Bytes} {read : Nat → Except Failure (K × Nat)}
    {trace : Nat → Trace (K × Nat)} {next : Nat → Except Failure (V × Nat)} {nextTrace : Nat → Trace (V × Nat)}
    (keys : SafeReader base data read trace spent) (apart : 7 ≤ spent) (values : SafeReader base data next nextTrace more) :
    SafeReader base data
      (fun offset => read offset >>= fun parsed => next parsed.2 >>= fun parsed' => pure ((parsed.1, parsed'.1), parsed'.2))
      (fun offset => trace offset >>= fun parsed => nextTrace parsed.2 >>= fun parsed' =>
        pure ((parsed.1, parsed'.1), parsed'.2)) (spent + more) := by
  have second : ∀ key : K, SafeReader base data (fun offset => next offset >>= fun parsed => pure ((key, parsed.1), parsed.2))
      (fun offset => nextTrace offset >>= fun parsed => pure ((key, parsed.1), parsed.2)) more := by
    intro key
    constructor
    · intro offset within
      rw [result_bind, values.same offset within]
      rfl
    · intro offset within
      rw [events_pure_bind]
      exact values.inside offset within
    · intro offset within
      rw [events_pure_bind]
      exact values.few offset within
    · intro offset within x last both
      obtain ⟨parsed, moved, made⟩ := bind_ok.mp both
      cases made
      rw [events_pure_bind]
      exact values.ahead offset within _ _ moved
  exact keys.bind apart second

theorem traceParts_safe (keys : SafeDecoder first firstDecode) (values : SafeDecoder second secondDecode) (base : Nat)
    (data : Bytes) (safe : data.length ≤ Number.maxSafeInteger) (keyOf valueOf : String) :
    SafeReader base data (readParts first second data keyOf valueOf)
      (traceParts firstDecode secondDecode base data keyOf valueOf) (sizeBytes + 0 + (sizeBytes + 0)) :=
  (tracePart_safe keys base data safe keyOf).pair (by decide) (tracePart_safe values base data safe valueOf)

/-- A reader at the front, and a step that takes nothing more. -/
theorem SafeReader.finish {base spent : Nat} {data : Bytes} {read : Nat → Except Failure (α × Nat)}
    {trace : Nat → Trace (α × Nat)} {make : α × Nat → Except Failure β} {rest : α × Nat → Trace β}
    (reader : SafeReader base data read trace spent) (same : ∀ parsed, rest parsed = lift (make parsed)) :
    (trace 0 >>= rest).result = (read 0 >>= make) ∧ Inside base (base + data.length) (trace 0 >>= rest).events ∧
      elementReads (trace 0 >>= rest).events ≤ data.length - 7 := by
  have front := reader.same 0 (Nat.zero_le _)
  have inside := reader.inside 0 (Nat.zero_le _)
  have few := reader.few 0 (Nat.zero_le _)
  rw [result_bind, front]
  cases moved : read 0 with
  | error failure =>
    rw [events_error (front.trans moved)]
    exact ⟨rfl, inside, few⟩
  | ok parsed =>
    rw [events_ok (front.trans moved), same, events_lift, List.append_nil]
    refine ⟨?_, inside, few⟩
    change (rest parsed).result = make parsed
    rw [same]
    rfl

theorem traceMap_safe [MapKey K] {keyArraySerde : Serde (List K)} {valueArraySerde : Serde (List V)}
    {keyArray : Decoder (List K)} {valueArray : Decoder (List V)} {maxTotalBytes : Nat}
    (keys : SafeDecoder keyArraySerde keyArray) (values : SafeDecoder valueArraySerde valueArray) :
    SafeDecoder (mapSerde keyArraySerde valueArraySerde maxTotalBytes) (traceMap keyArray valueArray maxTotalBytes) := by
  apply start_safe (fun _ => rfl) (fun _ _ => rfl)
  intro base data safe
  apply (traceParts_safe keys values base data safe "map keys" "map values").finish
  intro parsed
  dsimp only
  split
  · rfl
  · rfl

theorem traceKeyValue_safe {streamTypeName : String} (keys : SafeDecoder first firstDecode)
    (values : SafeDecoder second secondDecode) :
    SafeDecoder (streamKeyValueSerde first second streamTypeName).toSerde (traceKeyValue firstDecode secondDecode) := by
  apply start_safe (fun _ => rfl) (fun _ _ => rfl)
  intro base data safe
  apply (traceParts_safe keys values base data safe "key" "value").finish
  intro parsed
  rfl

end Parts

/-- Decoders nested in any way, of elements that are read by any serde. -/
inductive Nested : {T : Type} → Serde T → Decoder T → Prop where
  | leaf {T : Type} (s : Serde T) : Nested s (traceLeaf s)
  | fixedSizeArray {T : Type} {elementSerde : Serde T} {element : Decoder T} {elementSize : Nat} {limits : SerdeLimits}
      {s : Serde (List T)} (elements : Nested elementSerde element)
      (made : newFixedSizeArraySerde elementSerde elementSize limits = .ok s) :
      Nested s (traceArray (traceFixedSizeElement element elementSize) limits)
  | array {T : Type} {elementSerde : Serde T} {element : Decoder T} {limits : SerdeLimits} {s : Serde (List T)}
      (elements : Nested elementSerde element) (made : newArraySerde elementSerde limits = .ok s) :
      Nested s (traceArray (traceFramedElement element) limits)
  | stringArray {limits : SerdeLimits} {s : Serde (List JsString)} (made : newStringArraySerde limits = .ok s) :
      Nested s (traceArray (traceStringElement limits) limits)
  | map {K V : Type} [MapKey K] {keyArraySerde : Serde (List K)} {valueArraySerde : Serde (List V)}
      {keyArray : Decoder (List K)} {valueArray : Decoder (List V)} {maxTotalBytes : Nat} {s : Serde (JsMap K V)}
      (keys : Nested keyArraySerde keyArray) (values : Nested valueArraySerde valueArray)
      (made : newMapSerde keyArraySerde valueArraySerde maxTotalBytes = .ok s) :
      Nested s (traceMap keyArray valueArray maxTotalBytes)
  | keyValue {K V : Type} {keySerde : Serde K} {valueSerde : Serde V} {key : Decoder K} {value : Decoder V}
      (streamTypeName : String) (keys : Nested keySerde key) (values : Nested valueSerde value) :
      Nested (streamKeyValueSerde keySerde valueSerde streamTypeName).toSerde (traceKeyValue key value)
  | stream {T : Type} {s : Serde T} {decode : Decoder T} (serde : Nested s decode) : Nested (makeStreamSerde s).toSerde decode

theorem newFixedSizeArraySerde_positive {elementSize : Nat} {s : Serde (List T)}
    (made : newFixedSizeArraySerde elementSerde elementSize limits = .ok s) : 0 < elementSize := by
  by_contra none
  unfold newFixedSizeArraySerde at made
  rw [if_pos (.inr (Nat.le_of_not_lt none))] at made
  cases made

theorem nested_safe {s : Serde T} {decode : Decoder T} (nested : Nested s decode) : SafeDecoder s decode := by
  induction nested with
  | leaf s => exact traceLeaf_safe s
  | fixedSizeArray _ made elements =>
    have positive := newFixedSizeArraySerde_positive made
    obtain ⟨same, -⟩ := newFixedSizeArraySerde_ok made
    rw [same]
    exact traceArray_safe (traceFixedSizeElement_safe elements positive)
  | array _ made elements =>
    obtain ⟨same, -⟩ := newArraySerde_ok made
    rw [same]
    exact traceArray_safe (traceFramedElement_safe elements)
  | stringArray made =>
    obtain ⟨same, -⟩ := newStringArraySerde_ok made
    rw [same]
    exact traceArray_safe traceStringElement_safe
  | map _ _ made keys values =>
    obtain ⟨_, _, last⟩ := bind_ok.mp made
    cases last
    exact traceMap_safe keys values
  | keyValue _ _ _ keys values => exact traceKeyValue_safe keys values
  | stream _ serde => exact ⟨serde.same, serde.inside, serde.few⟩

theorem fixedSizeArray_accepted {elementSize : Nat} {data : Bytes} {value : List T}
    (accepted : ((fixedSizeElement elementSerde elementSize).arraySerde limits).deserialize data = .ok value) :
    value.length = ofBytes (data.take sizeBytes) ∧ sizeBytes + value.length * elementSize ≤ data.length := by
  obtain ⟨offset, started, rest⟩ := bind_ok.mp accepted
  obtain ⟨front, -⟩ := start_front started
  subst front
  obtain ⟨⟨count, after⟩, moved, rest⟩ := bind_ok.mp rest
  obtain ⟨announced, place, fits⟩ := readSize_ok moved
  obtain ⟨⟨items, last⟩, looped, made⟩ := bind_ok.mp rest
  cases made
  have many := readTimes_length looped
  have each : ∀ offset item next, (fixedSizeElement elementSerde elementSize).read data offset = .ok (item, next) →
      next = offset + elementSize ∧ next ≤ data.length := by
    intro offset item next read
    obtain ⟨⟨bytes, after⟩, moved, rest⟩ := bind_ok.mp read
    obtain ⟨_, _, made⟩ := bind_ok.mp rest
    cases made
    obtain ⟨-, place, fits, -⟩ := read_ok moved
    omega
  obtain ⟨reached, below⟩ := readTimes_moves each (by omega : after ≤ data.length) looped
  rw [many, announced]
  refine ⟨rfl, ?_⟩
  rw [← announced]
  omega

/-- The part of a length at an offset, without the length. -/
def partAt (data : Bytes) (offset : Nat) : Bytes :=
  (data.drop (offset + sizeBytes)).take (ofBytes ((data.drop offset).take sizeBytes))

theorem readPart_ok {data : Bytes} {what : String} {offset next : Nat} {item : T}
    (read : readPart s data what offset = .ok (item, next)) :
    s.deserialize (partAt data offset) = .ok item ∧ next = offset + sizeBytes + (partAt data offset).length := by
  obtain ⟨⟨length, after⟩, sized, rest⟩ := bind_ok.mp read
  obtain ⟨⟨bytes, last⟩, moved, rest⟩ := bind_ok.mp rest
  obtain ⟨_, decoded, made⟩ := bind_ok.mp rest
  cases made
  obtain ⟨announced, place, -⟩ := readSize_ok sized
  obtain ⟨contents, reached, -, many⟩ := read_ok moved
  subst place
  have part : partAt data offset = bytes := by rw [partAt, ← announced, ← contents]
  rw [part, many]
  exact ⟨decoded, reached⟩

theorem mapSerde_accepted [MapKey K] {keyArraySerde : Serde (List K)} {valueArraySerde : Serde (List V)} {maxTotalBytes : Nat}
    {data : Bytes} {map : JsMap K V} (accepted : (mapSerde keyArraySerde valueArraySerde maxTotalBytes).deserialize data = .ok map) :
    ∃ keys values offset, keyArraySerde.deserialize (partAt data 0) = .ok keys ∧
      valueArraySerde.deserialize (partAt data (sizeBytes + (partAt data 0).length)) = .ok values ∧
      keys.length = values.length ∧ JsMap.fill offset keys values JsMap.empty = .ok map := by
  obtain ⟨offset, started, rest⟩ := bind_ok.mp accepted
  obtain ⟨front, -⟩ := start_front started
  subst front
  obtain ⟨⟨⟨keys, values⟩, offset⟩, read, rest⟩ := bind_ok.mp rest
  obtain ⟨⟨keys', after⟩, keysRead, read⟩ := bind_ok.mp read
  obtain ⟨⟨values', last⟩, valuesRead, made⟩ := bind_ok.mp read
  cases made
  obtain ⟨keysDecoded, place⟩ := readPart_ok keysRead
  obtain ⟨valuesDecoded, -⟩ := readPart_ok valuesRead
  subst place
  rw [Nat.zero_add] at valuesDecoded
  dsimp only at rest
  split at rest
  · cases rest
  · rename_i paired
    exact ⟨keys, values, offset, keysDecoded, valuesDecoded, not_not.mp paired, rest⟩

/- Every decoder, of any bytes and under any limits, ends with a value or with a
   failure, takes its slices from its input alone, and begins at most one element
   read more than the input has bytes, also counting those of nested decoders. -/
theorem decoders_safe :
    (∀ {T : Type} {s : Serde T} {decode : Decoder T}, Nested s decode → ∀ data,
      (decode 0 data).result = s.deserialize data ∧
      (∀ start stop, .slice start stop ∈ (decode 0 data).events → start ≤ stop ∧ stop ≤ data.length) ∧
      elementReads (decode 0 data).events ≤ data.length + 1) ∧
    (∀ {T : Type} {elementSerde : Serde T} {elementSize : Nat} {limits : SerdeLimits} {s : Serde (List T)},
      newFixedSizeArraySerde elementSerde elementSize limits = .ok s → ∀ data value, s.deserialize data = .ok value →
        value.length = ofBytes (data.take sizeBytes) ∧ sizeBytes + value.length * elementSize ≤ data.length) ∧
    (∀ {K V : Type} [MapKey K] {keyArraySerde : Serde (List K)} {valueArraySerde : Serde (List V)} {maxTotalBytes : Nat}
      {s : Serde (JsMap K V)}, newMapSerde keyArraySerde valueArraySerde maxTotalBytes = .ok s →
      ∀ data map, s.deserialize data = .ok map →
        ∃ keys values offset, keyArraySerde.deserialize (partAt data 0) = .ok keys ∧
          valueArraySerde.deserialize (partAt data (sizeBytes + (partAt data 0).length)) = .ok values ∧
          keys.length = values.length ∧ JsMap.fill offset keys values JsMap.empty = .ok map) := by
  refine ⟨?_, ?_, ?_⟩
  · intro T s decode nested data
    have safe := nested_safe nested
    have inside := safe.inside 0 data
    have few := safe.few 0 data
    refine ⟨safe.same 0 data, ?_, by omega⟩
    intro start stop mem
    have bounds := inside start stop mem
    omega
  · intro T elementSerde elementSize limits s made data value accepted
    obtain ⟨same, -⟩ := newFixedSizeArraySerde_ok made
    rw [same] at accepted
    exact fixedSizeArray_accepted accepted
  · intro K V _ keyArraySerde valueArraySerde maxTotalBytes s made data map accepted
    obtain ⟨_, _, last⟩ := bind_ok.mp made
    cases last
    exact mapSerde_accepted accepted

/-- Two flags after a count that could be the largest. -/
def hugeCount : Bytes := [0, 0x1F, 0xFF, 0xFF, 0xFF, 0xFF, 0xFF, 0xFF, 1, 0]

def twoFlags : Bytes := [0, 0, 0, 0, 0, 0, 0, 2, 1, 0]

def flagsOf : Serde (List Bool) := (fixedSizeElement boolSerde 1).arraySerde unlimitedSerdeLimits

def traceFlags : Decoder (List Bool) := traceArray (traceFixedSizeElement (traceLeaf boolSerde) 1) unlimitedSerdeLimits

def flaggedFlags : Serde (JsMap Bool Bool) := mapSerde flagsOf flagsOf Number.maxSafeInteger

theorem decoders_safe_flags :
    (elementReads (traceFlags 0 hugeCount).events ≤ hugeCount.length + 1 ∧ (traceFlags 0 hugeCount).result = flagsOf.deserialize hugeCount) ∧
    (flagsOf.deserialize twoFlags = .ok [true, false] ∧ sizeBytes + 2 * 1 ≤ twoFlags.length) ∧
    ∃ data map, flaggedFlags.deserialize data = .ok map ∧ ∃ keys values : List Bool,
      flagsOf.deserialize (partAt data 0) = .ok keys ∧ keys.length = values.length := by
  have made : boolArraySerde unlimitedSerdeLimits = .ok flagsOf := rfl
  have keyed : newMapSerde flagsOf flagsOf Number.maxSafeInteger = .ok flaggedFlags := rfl
  have traced := decoders_safe.1 (.fixedSizeArray (.leaf boolSerde) made) hugeCount
  have accepted : flagsOf.deserialize twoFlags = .ok [true, false] := by decide +kernel
  have written : (flaggedFlags.deserialize ([0, 0, 0, 0, 0, 0, 0, 10] ++ twoFlags ++ [0, 0, 0, 0, 0, 0, 0, 10] ++ twoFlags)) =
      .ok ((JsMap.empty.set true true).set false false) := by decide +kernel
  obtain ⟨keys, values, _, keysRead, _, paired, _⟩ := decoders_safe.2.2 keyed _ _ written
  exact ⟨⟨traced.2.2, traced.1⟩, ⟨accepted, (decoders_safe.2.1 made twoFlags _ accepted).2⟩, _, _, written, keys, values,
    keysRead, paired⟩

end Safety

end Serdes
