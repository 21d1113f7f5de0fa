import TsServiceLib.Serde.StreamSerdes

/-!
What becomes of a value that is written and read again under limits. A serde
writes an accepted value in so many bytes and recovers it exactly in a case that
is known from the value; each way of building a serde carries both further.
-/
namespace Serdes
open Numbers Framing BigEndian
variable {T K V : Type}

/-- An accepted value takes `size` bytes and is recovered exactly if `readable`. -/
def Recovers (s : Serde T) (size : T → Nat) (readable : T → Prop) : Prop :=
  ∀ value before result, s.serialize value before = .ok result →
    ∃ out, out.length = size value ∧ Appends Number.maxSafeInteger (s.serialize value) out ∧
      (s.deserialize out = .ok value ↔ readable value)

theorem Recovers.accepted {s : Serde T} {size : T → Nat} {readable : T → Prop} {value : T} {out : Bytes}
    (recovers : Recovers s size readable) (accepted : s.serialize value [] = .ok out) :
    out.length = size value ∧ out.length ≤ Number.maxSafeInteger ∧ (s.deserialize out = .ok value ↔ readable value) ∧
      Appends Number.maxSafeInteger (s.serialize value) out := by
  obtain ⟨out', length, writes, reads⟩ := recovers value [] out accepted
  obtain ⟨fits, shape⟩ := (writes [] out).mp accepted
  rw [List.nil_append] at shape
  rw [List.length_nil, Nat.zero_add] at fits
  subst shape
  exact ⟨length, fits, reads, writes⟩

theorem Recovers.congr {s : Serde T} {size : T → Nat} {readable readable' : T → Prop} (recovers : Recovers s size readable)
    (same : ∀ value, readable value ↔ readable' value) : Recovers s size readable' := by
  intro value before result accepted
  obtain ⟨out, length, writes, reads⟩ := recovers value before result accepted
  exact ⟨out, length, writes, reads.trans (same value)⟩

theorem validateLimit_ok {value : Nat} {name : String} : validateLimit value name = .ok () ↔ value ≤ Number.maxSafeInteger := by
  unfold validateLimit
  split
  · rename_i safe
    exact iff_of_true rfl safe
  · rename_i tooLarge
    exact iff_of_false nofun tooLarge

/-- The limits that a constructor lets pass. -/
structure SerdeLimits.Valid (limits : SerdeLimits) : Prop where
  strings : limits.maxStringBytes ≤ Number.maxSafeInteger
  bytes : limits.maxBytes ≤ Number.maxSafeInteger
  elements : limits.maxContainerElements ≤ Number.maxSafeInteger
  total : limits.maxTotalBytes ≤ Number.maxSafeInteger

theorem validateLimits_ok {limits : SerdeLimits} : validateLimits limits = .ok () ↔ limits.Valid := by
  constructor
  · intro passed
    obtain ⟨_, strings, rest⟩ := bind_ok.mp passed
    obtain ⟨_, bytes, rest⟩ := bind_ok.mp rest
    obtain ⟨_, elements, total⟩ := bind_ok.mp rest
    constructor
    · exact validateLimit_ok.mp strings
    · exact validateLimit_ok.mp bytes
    · exact validateLimit_ok.mp elements
    · exact validateLimit_ok.mp total
  · intro valid
    apply bind_ok.mpr
    refine ⟨(), validateLimit_ok.mpr valid.strings, bind_ok.mpr ⟨(), validateLimit_ok.mpr valid.bytes, ?_⟩⟩
    exact bind_ok.mpr ⟨(), validateLimit_ok.mpr valid.elements, validateLimit_ok.mpr valid.total⟩

theorem start_iff {data : Bytes} {maximum offset : Nat} (safe : maximum ≤ Number.maxSafeInteger) :
    SerdeReader.start data maximum = .ok offset ↔ data.length ≤ maximum ∧ offset = 0 := by
  by_cases fits : data.length ≤ maximum
  · rw [start_ok fits safe]
    simp [fits, eq_comm]
  · have tooLong : data.length > maximum := by omega
    simp [SerdeReader.start, validateLimit, safe, tooLong, fits, bind, Except.bind, throw, throwThe, MonadExceptOf.throw]

theorem start_bind {data : Bytes} {maximum : Nat} (next : Nat → Except Failure T) :
    (SerdeReader.start data maximum >>= next) = SerdeReader.start data maximum >>= fun _ => next 0 := by
  cases started : SerdeReader.start data maximum with
  | error failure => rfl
  | ok offset =>
    obtain ⟨_, _, rest⟩ := bind_ok.mp started
    split at rest
    · cases rest
    · cases rest
      rfl

theorem restores_whole {data : Bytes} {read : Nat → Except Failure (T × Nat)} {x : T} {readable : Prop} {maximum : Nat}
    (safe : maximum ≤ Number.maxSafeInteger) (restores : Restores data read data x readable) :
    (SerdeReader.start data maximum >>= fun offset => read offset >>= fun parsed => pure parsed.1) = .ok x ↔
      data.length ≤ maximum ∧ readable := by
  have whole := restores [] [] (by simp)
  constructor
  · intro parsed
    obtain ⟨offset, started, rest⟩ := bind_ok.mp parsed
    obtain ⟨fits, zero⟩ := (start_iff safe).mp started
    subst zero
    obtain ⟨⟨x', next⟩, moved, last⟩ := bind_ok.mp rest
    cases last
    exact ⟨fits, ((whole next).mp moved).1⟩
  · rintro ⟨fits, isReadable⟩
    have moved := (whole _).mpr ⟨isReadable, rfl⟩
    exact bind_ok.mpr ⟨0, (start_iff safe).mpr ⟨fits, rfl⟩, bind_ok.mpr ⟨_, moved, rfl⟩⟩

section Payloads
variable {limits : SerdeLimits}

/-- The bytes of one value after their length, under a limit of their own. -/
def appendPayload (maximum : Nat) (message : String) (payload before : Bytes) : Except Failure Bytes :=
  if payload.length > maximum then .error (.serdeError message 0)
  else do
    let size ← encodeSize payload.length
    let framed ← appendBytes size payload
    appendBytes before framed

theorem appendPayload_appends {maximum : Nat} {message : String} {payload before result : Bytes}
    (accepted : appendPayload maximum message payload before = .ok result) :
    payload.length ≤ maximum ∧
      Appends Number.maxSafeInteger (appendPayload maximum message payload) (toBytes sizeBytes payload.length ++ payload) := by
  unfold appendPayload at accepted
  split at accepted
  · cases accepted
  · rename_i within
    obtain ⟨-, -, writes⟩ := appendSized_appends accepted
    refine ⟨by omega, ?_⟩
    intro before result
    rw [← writes before result, appendPayload, if_neg within]

theorem payload_recovers {s : Serde T} {encode : T → Bytes} {make : Bytes → Except Failure T} {maximum : Nat}
    {message sizeOf payloadOf : String} (limit : maximum ≤ Number.maxSafeInteger) (valid : limits.Valid)
    (writes : ∀ value, s.serialize value = appendPayload maximum message (encode value))
    (reads : ∀ data, s.deserialize data = do
      let offset ← SerdeReader.start data limits.maxTotalBytes
      let (length, offset) ← SerdeReader.readSize data maximum sizeOf offset
      let (payload, _) ← SerdeReader.read data length payloadOf offset
      make payload) :
    Recovers s (fun value => sizeBytes + (encode value).length)
      (fun value => sizeBytes + (encode value).length ≤ limits.maxTotalBytes ∧ make (encode value) = .ok value) := by
  intro value before result accepted
  rw [writes] at accepted ⊢
  obtain ⟨within, appends⟩ := appendPayload_appends accepted
  have length : (toBytes sizeBytes (encode value).length ++ encode value).length = sizeBytes + (encode value).length := by
    rw [List.length_append, length_toBytes]
  refine ⟨_, length, appends, ?_⟩
  have room := ((appends before result).mp accepted).1
  rw [reads]
  dsimp only
  rw [← length]
  generalize whole : toBytes sizeBytes (encode value).length ++ encode value = data at room ⊢
  have fits : data.length ≤ Number.maxSafeInteger := by omega
  have framed : Reads data _ (toBytes sizeBytes (encode value).length ++ encode value) (encode value) :=
    framed_reads fits limit (.inl within) sizeOf payloadOf
  rw [whole] at framed
  rw [← restores_whole valid.total (restores_map framed)]
  simp only [bind_assoc, pure_bind, bind_pure]

theorem bytesSerde_recovers (valid : limits.Valid) :
    Recovers (bytesSerde limits) (fun value => sizeBytes + value.length)
      (fun value => sizeBytes + value.length ≤ limits.maxTotalBytes) := by
  have payload : Recovers (bytesSerde limits) (fun value => sizeBytes + value.length) (fun value =>
      sizeBytes + value.length ≤ limits.maxTotalBytes ∧ (pure value : Except Failure Bytes) = .ok value) :=
    payload_recovers valid.bytes valid (fun _ => rfl) (fun _ => rfl)
  intro value before result accepted
  obtain ⟨out, length, writes, reads⟩ := payload value before result accepted
  exact ⟨out, length, writes, reads.trans (and_iff_left rfl)⟩

end Payloads

namespace ElementFraming
variable {element : ElementFraming T} {size : T → Nat} {readable : T → Prop} {limits : SerdeLimits}

def Recovers (element : ElementFraming T) (size : T → Nat) (readable : T → Prop) : Prop :=
  ∀ item before result, element.write item before = .ok result →
    ∃ chunk : Bytes, chunk.length = size item ∧ Appends Number.maxSafeInteger (element.write item) chunk ∧
      ∀ data : Bytes, data.length ≤ Number.maxSafeInteger → Restores data (element.read data) chunk item (readable item)

theorem arraySerde_recovers (valid : limits.Valid) (recovers : element.Recovers size readable) :
    Serdes.Recovers (element.arraySerde limits) (fun value => sizeBytes + (value.map size).sum)
      (fun value => sizeBytes + (value.map size).sum ≤ limits.maxTotalBytes ∧ ∀ item ∈ value, readable item) := by
  intro value before result accepted
  obtain ⟨_, validated, counted⟩ := bind_ok.mp accepted
  obtain ⟨count, encoded, rest⟩ := bind_ok.mp counted
  obtain ⟨output, _, looped⟩ := bind_ok.mp rest
  obtain ⟨safe, -⟩ := encodeSize_ok.mp encoded
  have within : value.length ≤ limits.maxContainerElements := by
    by_contra above
    rw [validateArray, if_pos (by omega)] at validated
    cases validated
  have each : ∀ item, ∃ chunk : Bytes, item ∈ value → chunk.length = size item ∧
      Appends Number.maxSafeInteger (element.write item) chunk ∧
      ∀ data : Bytes, data.length ≤ Number.maxSafeInteger → Restores data (element.read data) chunk item (readable item) := by
    intro item
    by_cases mem : item ∈ value
    · obtain ⟨before', after, written⟩ := foldlM_ok looped item mem
      obtain ⟨chunk, framed⟩ := recovers item before' after written
      exact ⟨chunk, fun _ => framed⟩
    · exact ⟨[], fun absurd => (mem absurd).elim⟩
  choose chunk framed using each
  have writes : Appends Number.maxSafeInteger ((element.arraySerde limits).serialize value)
      (toBytes sizeBytes value.length ++ value.flatMap chunk) := by
    have loop := appends_foldlM (encodeSize_appends safe) (fun item mem => (framed item mem).2.1)
    intro before result
    rw [← loop before result]
    simp only [arraySerde, validated, bind_assoc]
    rfl
  have length : (toBytes sizeBytes value.length ++ value.flatMap chunk).length = sizeBytes + (value.map size).sum := by
    have sizes : value.map (fun item => (chunk item).length) = value.map size :=
      List.map_congr_left (fun item mem => (framed item mem).1)
    rw [List.length_append, length_toBytes, List.length_flatMap, sizes]
  refine ⟨_, length, writes, ?_⟩
  have room : (toBytes sizeBytes value.length ++ value.flatMap chunk).length ≤ Number.maxSafeInteger := by
    have fits := ((writes before result).mp accepted).1
    omega
  dsimp only
  rw [← length]
  generalize whole : toBytes sizeBytes value.length ++ value.flatMap chunk = data at room ⊢
  have sized : Reads data (SerdeReader.readSize data limits.maxContainerElements "array count")
      (toBytes sizeBytes value.length) value.length := readSize_reads room within valid.elements "array count"
  have items : Restores data (readTimes (element.read data) value.length) (value.flatMap chunk) value
      (∀ item ∈ value, readable item) := restores_times (fun item mem => (framed item mem).2.2 data room)
  have both := restores_after sized items
  rw [whole] at both
  rw [← restores_whole valid.total both]
  simp only [arraySerde, bind_assoc]

end ElementFraming

section Arrays
variable {elementSerde : Serde T} {size : T → Nat} {readable : T → Prop} {limits : SerdeLimits}

theorem fixedSizeElement_recovers {elementSize : Nat} (recovers : Recovers elementSerde size readable) :
    (fixedSizeElement elementSerde elementSize).Recovers size readable := by
  intro item before result accepted
  obtain ⟨encoded, serialized, writes, restores⟩ := fixedSizeElement_restores accepted
  obtain ⟨length, fits, readBack, -⟩ := recovers.accepted serialized
  refine ⟨encoded, length, writes fits, ?_⟩
  rw [← readBack]
  exact restores

theorem framedElement_recovers (recovers : Recovers elementSerde size readable) :
    (framedElement elementSerde).Recovers (fun item => sizeBytes + size item) readable := by
  intro item before result accepted
  obtain ⟨encoded, serialized, writes, restores⟩ := framedElement_restores accepted
  obtain ⟨length, fits, readBack, -⟩ := recovers.accepted serialized
  refine ⟨toBytes sizeBytes encoded.length ++ encoded, ?_, writes fits, ?_⟩
  · rw [List.length_append, length_toBytes, length]
  · rw [← readBack]
    exact restores

end Arrays

section Made
variable {elementSerde : Serde T} {elementSize : Nat} {limits : SerdeLimits} {s : Serde (List T)}

theorem newFixedSizeArraySerde_ok (made : newFixedSizeArraySerde elementSerde elementSize limits = .ok s) :
    s = (fixedSizeElement elementSerde elementSize).arraySerde limits ∧ limits.Valid := by
  unfold newFixedSizeArraySerde at made
  split at made
  · cases made
  · obtain ⟨_, valid, last⟩ := bind_ok.mp made
    cases last
    exact ⟨rfl, validateLimits_ok.mp valid⟩

theorem newArraySerde_ok (made : newArraySerde elementSerde limits = .ok s) :
    s = (framedElement elementSerde).arraySerde limits ∧ limits.Valid := by
  obtain ⟨_, valid, last⟩ := bind_ok.mp made
  cases last
  exact ⟨rfl, validateLimits_ok.mp valid⟩

end Made

section Counts
variable {element : ElementFraming T} {limits : SerdeLimits}

/-- A decoder that gives back as many items as were written. -/
def Counted (s : Serde (List T)) : Prop :=
  ∀ value out value', s.serialize value [] = .ok out → s.deserialize out = .ok value' → value'.length = value.length

theorem appendBytes_within {before part after : Bytes} (appended : appendBytes before part = .ok after) : before <+: after := by
  unfold appendBytes at appended
  split at appended
  · rename_i empty
    rw [List.eq_nil_of_length_eq_zero empty]
    exact List.nil_prefix
  · split at appended
    · cases appended
      exact List.prefix_append _ _
    · cases appended

theorem appendFramed_prefix {before part after : Bytes} (appended : appendFramed before part = .ok after) : before <+: after := by
  obtain ⟨_, _, rest⟩ := bind_ok.mp appended
  obtain ⟨_, sized, contents⟩ := bind_ok.mp rest
  exact (appendBytes_within sized).trans (appendBytes_within contents)

/-- The count is at the front and says how many elements are read. -/
theorem ElementFraming.arraySerde_counted (valid : limits.Valid)
    (each : ∀ item before after, element.write item before = .ok after → before <+: after) :
    Counted (element.arraySerde limits) := by
  intro value out value' accepted parsed
  obtain ⟨_, validated, rest⟩ := bind_ok.mp accepted
  obtain ⟨count, encoded, rest⟩ := bind_ok.mp rest
  obtain ⟨output, sized, looped⟩ := bind_ok.mp rest
  obtain ⟨safe, shape⟩ := encodeSize_ok.mp encoded
  have within : value.length ≤ limits.maxContainerElements := by
    by_contra above
    rw [validateArray, if_pos (by omega)] at validated
    cases validated
  have front : toBytes sizeBytes value.length <+: out := by
    have same : output = toBytes sizeBytes value.length := by
      cases sized
      exact shape
    rw [← same]
    exact foldlM_prefix each looped
  obtain ⟨after, whole⟩ := front
  obtain ⟨offset, started, rest⟩ := bind_ok.mp parsed
  obtain ⟨fits, zero⟩ := (start_iff valid.total).mp started
  subst zero
  have room : out.length ≤ Number.maxSafeInteger := Nat.le_trans fits valid.total
  have counted : Reads out (SerdeReader.readSize out limits.maxContainerElements "array count")
      (toBytes sizeBytes value.length) value.length := readSize_reads room within valid.elements "array count"
  have read := counted [] after whole.symm
  obtain ⟨_, moved, rest⟩ := bind_ok.mp rest
  rw [List.length_nil] at read
  rw [read] at moved
  cases moved
  obtain ⟨_, items, last⟩ := bind_ok.mp rest
  cases last
  exact readTimes_length items

theorem fixedSizeElement_prefix {elementSerde : Serde T} {elementSize : Nat} (item : T) (before after : Bytes)
    (written : (fixedSizeElement elementSerde elementSize).write item before = .ok after) : before <+: after := by
  obtain ⟨encoded, _, rest⟩ := bind_ok.mp written
  split at rest
  · cases rest
  · exact appendBytes_within rest

theorem framedElement_prefix {elementSerde : Serde T} (item : T) (before after : Bytes)
    (written : (framedElement elementSerde).write item before = .ok after) : before <+: after := by
  obtain ⟨_, _, appended⟩ := bind_ok.mp written
  exact appendFramed_prefix appended

end Counts

section Parts
variable {first : Serde K} {second : Serde V} {keySize : K → Nat} {valueSize : V → Nat} {keyReadable : K → Prop}
  {valueReadable : V → Prop}

theorem appendFramed_safe {before part after : Bytes} (appended : appendFramed before part = .ok after) :
    part.length ≤ Number.maxSafeInteger := by
  obtain ⟨_, encoded, -⟩ := bind_ok.mp appended
  exact (encodeSize_ok.mp encoded).1

theorem appendParts_restores {key : K} {value : V} {before result : Bytes}
    (accepted : appendParts first second key value before = .ok result) :
    ∃ keyBytes valueBytes out, first.serialize key [] = .ok keyBytes ∧ second.serialize value [] = .ok valueBytes ∧
      out.length = sizeBytes + keyBytes.length + (sizeBytes + valueBytes.length) ∧ out.length ≤ Number.maxSafeInteger ∧
      Appends Number.maxSafeInteger (appendParts first second key value) out ∧
      ∀ keyOf valueOf pair, Restores out (readParts first second out keyOf valueOf) out pair
        (first.deserialize keyBytes = .ok pair.1 ∧ second.deserialize valueBytes = .ok pair.2) := by
  obtain ⟨keyBytes, keyEncoded, rest⟩ := bind_ok.mp accepted
  obtain ⟨valueBytes, valueEncoded, rest⟩ := bind_ok.mp rest
  obtain ⟨_, keyWritten, valueWritten⟩ := bind_ok.mp rest
  have both := appends_bind (appendFramed_appends (appendFramed_safe keyWritten))
    (appendFramed_appends (appendFramed_safe valueWritten))
  have writes : Appends Number.maxSafeInteger (appendParts first second key value)
      ((toBytes sizeBytes keyBytes.length ++ keyBytes) ++ (toBytes sizeBytes valueBytes.length ++ valueBytes)) := by
    intro before result
    rw [← both before result]
    simp only [appendParts, keyEncoded, valueEncoded]
    rfl
  have room := ((writes before result).mp accepted).1
  refine ⟨keyBytes, valueBytes, _, keyEncoded, valueEncoded, ?_, by omega, writes, ?_⟩
  · simp only [List.length_append, length_toBytes]
  · intro keyOf valueOf pair
    have fits := Nat.le_trans (Nat.le_add_left _ _) room
    exact restores_pair (readPart_restores fits keyOf) (readPart_restores fits valueOf)

theorem streamKeyValueSerde_recovers {streamTypeName : String} (keys : Recovers first keySize keyReadable)
    (values : Recovers second valueSize valueReadable) :
    Recovers (streamKeyValueSerde first second streamTypeName).toSerde
      (fun pair => sizeBytes + keySize pair.key + (sizeBytes + valueSize pair.value))
      (fun pair => keyReadable pair.key ∧ valueReadable pair.value) := by
  intro pair before result accepted
  obtain ⟨keyBytes, valueBytes, out, keyEncoded, valueEncoded, length, fits, writes, parts⟩ := appendParts_restores accepted
  obtain ⟨keyLength, -, keyRead, -⟩ := keys.accepted keyEncoded
  obtain ⟨valueLength, -, valueRead, -⟩ := values.accepted valueEncoded
  rw [keyLength, valueLength] at length
  refine ⟨out, length, writes, ?_⟩
  dsimp only
  rw [← keyRead, ← valueRead]
  have whole := parts "key" "value" (pair.key, pair.value) [] [] (by simp)
  constructor
  · intro parsed
    obtain ⟨offset, started, rest⟩ := bind_ok.mp parsed
    obtain ⟨-, zero⟩ := (start_iff (by decide)).mp started
    subst zero
    obtain ⟨⟨pair', next⟩, moved, last⟩ := bind_ok.mp rest
    cases last
    exact ((whole next).mp moved).1
  · intro readable
    exact bind_ok.mpr ⟨0, start_ok fits (by decide), bind_ok.mpr ⟨_, (whole _).mpr ⟨readable, rfl⟩, rfl⟩⟩

end Parts

section Maps
variable [MapKey K] {keyArraySerde : Serde (List K)} {valueArraySerde : Serde (List V)} {maxTotalBytes : Nat}
  {keySize : List K → Nat} {valueSize : List V → Nat} {keyReadable : List K → Prop} {valueReadable : List V → Prop}

theorem mapSerde_restores (safe : maxTotalBytes ≤ Number.maxSafeInteger) (counted : Counted keyArraySerde) {map : JsMap K V}
    {before result : Bytes} (accepted : (mapSerde keyArraySerde valueArraySerde maxTotalBytes).serialize map before = .ok result) :
    ∃ keyBytes valueBytes out, keyArraySerde.serialize (map.entries.map Prod.fst) [] = .ok keyBytes ∧
      valueArraySerde.serialize (map.entries.map Prod.snd) [] = .ok valueBytes ∧
      out.length = sizeBytes + keyBytes.length + (sizeBytes + valueBytes.length) ∧
      Appends Number.maxSafeInteger ((mapSerde keyArraySerde valueArraySerde maxTotalBytes).serialize map) out ∧
      ((mapSerde keyArraySerde valueArraySerde maxTotalBytes).deserialize out = .ok map ↔
        out.length ≤ maxTotalBytes ∧ keyArraySerde.deserialize keyBytes = .ok (map.entries.map Prod.fst) ∧
          valueArraySerde.deserialize valueBytes = .ok (map.entries.map Prod.snd)) := by
  obtain ⟨keyBytes, valueBytes, out, keyEncoded, valueEncoded, length, -, writes, parts⟩ := appendParts_restores accepted
  refine ⟨keyBytes, valueBytes, out, keyEncoded, valueEncoded, length, writes, ?_⟩
  constructor
  · intro parsed
    obtain ⟨offset, started, rest⟩ := bind_ok.mp parsed
    obtain ⟨within, zero⟩ := (start_iff safe).mp started
    subst zero
    obtain ⟨⟨⟨keys', values'⟩, next⟩, moved, rest⟩ := bind_ok.mp rest
    obtain ⟨⟨keyDecoded, valueDecoded⟩, -⟩ := (parts "map keys" "map values" (keys', values') [] [] (by simp) next).mp moved
    dsimp only at rest keyDecoded valueDecoded
    split at rest
    · cases rest
    · rename_i paired
      have many := counted _ _ _ keyEncoded keyDecoded
      rw [List.length_map] at many
      obtain ⟨sameKeys, sameValues⟩ := JsMap.fill_inverse (not_not.mp paired) many rest
      rw [← sameKeys, ← sameValues]
      exact ⟨within, keyDecoded, valueDecoded⟩
  · rintro ⟨within, readable⟩
    have moved := (parts "map keys" "map values" (map.entries.map Prod.fst, map.entries.map Prod.snd) [] [] (by simp) _).mpr
      ⟨readable, rfl⟩
    have filled : JsMap.fill (([] : Bytes).length + out.length) (map.entries.map Prod.fst) (map.entries.map Prod.snd)
        JsMap.empty = .ok map := JsMap.fill_distinct _ map.distinct
    apply bind_ok.mpr
    refine ⟨0, start_ok within safe, bind_ok.mpr ⟨_, moved, ?_⟩⟩
    dsimp only
    rw [if_neg (by simp)]
    exact filled

theorem mapSerde_recovers (safe : maxTotalBytes ≤ Number.maxSafeInteger) (counted : Counted keyArraySerde)
    (keys : Recovers keyArraySerde keySize keyReadable) (values : Recovers valueArraySerde valueSize valueReadable) :
    Recovers (mapSerde keyArraySerde valueArraySerde maxTotalBytes)
      (fun map => sizeBytes + keySize (map.entries.map Prod.fst) + (sizeBytes + valueSize (map.entries.map Prod.snd)))
      (fun map =>
        sizeBytes + keySize (map.entries.map Prod.fst) + (sizeBytes + valueSize (map.entries.map Prod.snd)) ≤ maxTotalBytes ∧
        keyReadable (map.entries.map Prod.fst) ∧ valueReadable (map.entries.map Prod.snd)) := by
  intro map before result accepted
  obtain ⟨keyBytes, valueBytes, out, keyEncoded, valueEncoded, length, writes, reads⟩ := mapSerde_restores safe counted accepted
  obtain ⟨keyLength, -, keyRead, -⟩ := keys.accepted keyEncoded
  obtain ⟨valueLength, -, valueRead, -⟩ := values.accepted valueEncoded
  rw [keyLength, valueLength] at length
  refine ⟨out, length, writes, ?_⟩
  dsimp only
  rw [← keyRead, ← valueRead, ← length]
  exact reads

end Maps

end Serdes
