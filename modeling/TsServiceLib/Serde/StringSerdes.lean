import TsServiceLib.Library.Unicode
import TsServiceLib.Serde.Recovery

/-!
The serdes of strings. A string is its 16-bit code units; the encoder puts the
replacement character for a lone surrogate, and the decoder takes a byte order
mark at the front for no part of the text. Both say which strings come back.
-/
namespace Serdes
open Numbers Framing BigEndian Unicode
variable {V : Type} {limits : SerdeLimits}

structure JsString where
  units : List UInt16
  deriving DecidableEq

instance : MapKey JsString := ⟨fun a b => decide (a = b)⟩

namespace JsString

/-- Every surrogate belongs to a pair. -/
def isWellFormed (value : JsString) : Bool := wellFormed value.units

/-- The string starts with U+FEFF. -/
def isMarked (value : JsString) : Bool := value.units.head? == some 0xFEFF

end JsString

def TextEncoder.encode (value : JsString) : Bytes := utf8 (scalars value.units)

/-- The decoder of UTF-8 with `fatal` and without `ignoreBOM`. -/
def TextDecoder.decode (bytes : Bytes) : Option JsString :=
  (utf8Decode bytes).map fun text => ⟨utf16 (dropMark text)⟩

/-- What the decoder of the platform says about bytes that are not UTF-8. -/
def TextDecoder.message : String := "The encoded data was not valid for encoding utf-8"

def decodeString (failure : Failure) (payload : Bytes) : Except Failure JsString :=
  match TextDecoder.decode payload with
  | some value => .ok value
  | none => .error failure

def stringSerde (limits : SerdeLimits) : Serde JsString where
  serialize value before := do
    let encoded := TextEncoder.encode value
    if encoded.length > limits.maxStringBytes then throw (.serdeError "string exceeds configured limit" 0)
    let size ← encodeSize encoded.length
    let framed ← appendBytes size encoded
    appendBytes before framed
  deserialize data := do
    let lengthOffset ← SerdeReader.start data limits.maxTotalBytes
    let (length, offset) ← SerdeReader.readSize data limits.maxStringBytes "string length" lengthOffset
    let (payload, _) ← SerdeReader.read data length "string" offset
    decodeString (.serdeError ("invalid UTF-8 string: " ++ TextDecoder.message) (lengthOffset + 8)) payload

def newStringSerde (limits : SerdeLimits) : Except Failure (Serde JsString) := do
  validateLimits limits
  pure (stringSerde limits)

def stringElement (limits : SerdeLimits) : ElementFraming JsString where
  write item output := do
    let encoded := TextEncoder.encode item
    if encoded.length > limits.maxStringBytes then throw (.serdeError "string exceeds configured limit" 0)
    appendFramed output encoded
  read data offset := do
    let (length, offset) ← SerdeReader.readSize data limits.maxStringBytes "string length" offset
    let (encoded, next) ← SerdeReader.read data length "string" offset
    let item ← decodeString (.serdeError "string is not valid UTF-8" offset) encoded
    pure (item, next)

def newStringArraySerde (limits : SerdeLimits) : Except Failure (Serde (List JsString)) := do
  validateLimits limits
  pure ((stringElement limits).arraySerde limits)

section Recovery

theorem ofUnit_eq_byteOrderMark {unit : UInt16} : ofUnit unit = byteOrderMark ↔ unit = 0xFEFF := by
  constructor
  · intro mark
    by_cases surrogate : isSurrogate unit = true
    · rw [ofUnit, if_pos surrogate] at mark
      exact absurd mark (by decide)
    · have same := units_plain (Bool.eq_false_of_not_eq_true surrogate)
      rw [mark] at same
      exact (List.cons.inj same).1.symm
  · intro same
    rw [same]
    decide

theorem ofPair_ne_byteOrderMark {first second : UInt16} (high : isHigh first = true) (low : isLow second = true) :
    ofPair first second ≠ byteOrderMark := by
  intro mark
  have same := units_pair high low
  rw [mark] at same
  cases same

/-- The first character is the mark if the first unit is. -/
theorem scalars_marked (value : JsString) : (scalars value.units).head? = some byteOrderMark ↔ value.isMarked = true := by
  unfold JsString.isMarked
  rw [beq_iff_eq]
  generalize value.units = text
  match text with
  | [] => simp [scalars]
  | [unit] => simp [scalars, ofUnit_eq_byteOrderMark]
  | first :: second :: rest =>
    by_cases pair : (isHigh first && isLow second) = true
    · obtain ⟨high, low⟩ := Bool.and_eq_true_iff.mp pair
      have other : first ≠ 0xFEFF := by
        intro same
        rw [same] at high
        exact absurd high (by decide)
      simp [scalars_pair high low, ofPair_ne_byteOrderMark high low, other]
    · simp [scalars, pair, ofUnit_eq_byteOrderMark]

theorem decode_encode (value : JsString) :
    TextDecoder.decode (TextEncoder.encode value) = some ⟨utf16 (dropMark (scalars value.units))⟩ := by
  rw [TextDecoder.decode, TextEncoder.encode, utf8Decode_utf8]
  rfl

theorem decode_encode_iff (value : JsString) :
    TextDecoder.decode (TextEncoder.encode value) = some value ↔ value.isWellFormed = true ∧ value.isMarked = false := by
  have unmarked : value.isMarked = false ↔ dropMark (scalars value.units) = scalars value.units := by
    rw [dropMark_eq, ← Bool.not_eq_true, ← scalars_marked]
  rw [decode_encode, unmarked, JsString.isWellFormed, wellFormed_iff]
  constructor
  · intro same
    have units : utf16 (dropMark (scalars value.units)) = value.units := congrArg JsString.units (Option.some.inj same)
    have text : dropMark (scalars value.units) = scalars value.units := by
      have again := congrArg scalars units
      rwa [scalars_utf16] at again
    rw [text] at units
    exact ⟨units, text⟩
  · rintro ⟨formed, text⟩
    rw [text, formed]

/-- The strings that come back, once their bytes have been read. -/
def Readable (value : JsString) : Prop := value.isWellFormed = true ∧ value.isMarked = false

theorem decodeString_iff (failure : Failure) (value : JsString) :
    decodeString failure (TextEncoder.encode value) = .ok value ↔ Readable value := by
  rw [Readable, ← decode_encode_iff, decodeString, decode_encode]
  simp

/-- The bytes of a string after their length. -/
def stringSize (value : JsString) : Nat := sizeBytes + utf8Length (scalars value.units)

theorem stringSize_eq (value : JsString) : stringSize value = sizeBytes + (TextEncoder.encode value).length := by
  rw [stringSize, TextEncoder.encode, length_utf8]

theorem stringSerde_recovers (valid : limits.Valid) :
    Recovers (stringSerde limits) stringSize (fun value => stringSize value ≤ limits.maxTotalBytes ∧ Readable value) := by
  have reads : ∀ data, (stringSerde limits).deserialize data = (do
      let offset ← SerdeReader.start data limits.maxTotalBytes
      let (length, offset) ← SerdeReader.readSize data limits.maxStringBytes "string length" offset
      let (payload, _) ← SerdeReader.read data length "string" offset
      decodeString (.serdeError ("invalid UTF-8 string: " ++ TextDecoder.message) 8) payload) := by
    intro data
    rw [start_bind]
    simp only [stringSerde]
    exact start_bind _
  have payload : Recovers (stringSerde limits) (fun value => sizeBytes + (TextEncoder.encode value).length) (fun value =>
      sizeBytes + (TextEncoder.encode value).length ≤ limits.maxTotalBytes ∧
        decodeString (.serdeError ("invalid UTF-8 string: " ++ TextDecoder.message) 8) (TextEncoder.encode value) = .ok value) :=
    payload_recovers valid.strings valid (fun _ => rfl) reads
  simpa only [← stringSize_eq, decodeString_iff] using payload

theorem stringElement_recovers (valid : limits.Valid) : (stringElement limits).Recovers stringSize Readable := by
  intro item before result accepted
  have within : ¬(TextEncoder.encode item).length > limits.maxStringBytes := by
    intro above
    simp only [stringElement, if_pos above] at accepted
    cases accepted
  have fits : (TextEncoder.encode item).length ≤ Number.maxSafeInteger := by
    have limit := valid.strings
    omega
  refine ⟨toBytes sizeBytes (TextEncoder.encode item).length ++ TextEncoder.encode item, ?_, ?_, ?_⟩
  · rw [List.length_append, length_toBytes, stringSize_eq]
  · have writes := appendFramed_appends fits
    intro before result
    rw [← writes before result]
    simp only [stringElement, if_neg within]
  · intro data safe before after shape next
    have size : Reads data (SerdeReader.readSize data limits.maxStringBytes "string length")
        (toBytes sizeBytes (TextEncoder.encode item).length) (TextEncoder.encode item).length :=
      readSize_reads safe (by omega) valid.strings "string length"
    have contents : Reads data (SerdeReader.read data (TextEncoder.encode item).length "string") (TextEncoder.encode item)
        (TextEncoder.encode item) := read_reads safe "string"
    have sizeFirst := size before (TextEncoder.encode item ++ after) (by rw [shape]; simp)
    have contentsNext := contents (before ++ toBytes sizeBytes (TextEncoder.encode item).length) after (by rw [shape]; simp)
    rw [List.length_append] at contentsNext
    have decoded := decodeString_iff (.serdeError "string is not valid UTF-8"
      (before.length + (toBytes sizeBytes (TextEncoder.encode item).length).length)) item
    rw [← decoded, List.length_append, ← Nat.add_assoc]
    constructor
    · intro parsed
      obtain ⟨_, sized, rest⟩ := bind_ok.mp parsed
      rw [sizeFirst] at sized
      cases sized
      obtain ⟨_, moved, rest⟩ := bind_ok.mp rest
      rw [contentsNext] at moved
      cases moved
      obtain ⟨_, made, last⟩ := bind_ok.mp rest
      cases last
      exact ⟨made, rfl⟩
    · rintro ⟨made, same⟩
      rw [same]
      exact bind_ok.mpr ⟨_, sizeFirst, bind_ok.mpr ⟨_, contentsNext, bind_ok.mpr ⟨_, made, rfl⟩⟩⟩

theorem stringElement_prefix (item : JsString) (before after : Bytes)
    (written : (stringElement limits).write item before = .ok after) : before <+: after := by
  simp only [stringElement] at written
  split at written
  · cases written
  · exact appendFramed_prefix written

end Recovery

section Arrays

theorem newStringSerde_ok {s : Serde JsString} (made : newStringSerde limits = .ok s) :
    s = stringSerde limits ∧ limits.Valid := by
  obtain ⟨_, valid, last⟩ := bind_ok.mp made
  cases last
  exact ⟨rfl, validateLimits_ok.mp valid⟩

theorem newStringArraySerde_ok {s : Serde (List JsString)} (made : newStringArraySerde limits = .ok s) :
    s = (stringElement limits).arraySerde limits ∧ limits.Valid := by
  obtain ⟨_, valid, last⟩ := bind_ok.mp made
  cases last
  exact ⟨rfl, validateLimits_ok.mp valid⟩

inductive IsArray : {T : Type} → Serde (List T) → Prop where
  | fixedSizeArray {T : Type} {element : Serde T} {elementSize : Nat} {limits : SerdeLimits} {s : Serde (List T)}
      (made : newFixedSizeArraySerde element elementSize limits = .ok s) : IsArray s
  | array {T : Type} {element : Serde T} {limits : SerdeLimits} {s : Serde (List T)}
      (made : newArraySerde element limits = .ok s) : IsArray s
  | stringArray {limits : SerdeLimits} {s : Serde (List JsString)} (made : newStringArraySerde limits = .ok s) : IsArray s

theorem IsArray.counted {T : Type} {s : Serde (List T)} (array : IsArray s) : Counted s := by
  cases array with
  | fixedSizeArray made =>
    obtain ⟨same, valid⟩ := newFixedSizeArraySerde_ok made
    rw [same]
    exact ElementFraming.arraySerde_counted valid fixedSizeElement_prefix
  | array made =>
    obtain ⟨same, valid⟩ := newArraySerde_ok made
    rw [same]
    exact ElementFraming.arraySerde_counted valid framedElement_prefix
  | stringArray made =>
    obtain ⟨same, valid⟩ := newStringArraySerde_ok made
    rw [same]
    exact ElementFraming.arraySerde_counted valid stringElement_prefix

/-- The serdes of an array of strings, with the arrays that they read under their
    limits. -/
inductive StringArray : Serde (List JsString) → (List JsString → Prop) → Prop where
  | strings {limits : SerdeLimits} {s : Serde (List JsString)} (made : newStringArraySerde limits = .ok s) :
      StringArray s fun items => sizeBytes + (items.map stringSize).sum ≤ limits.maxTotalBytes
  | array {own limits : SerdeLimits} {element : Serde JsString} {s : Serde (List JsString)}
      (strings : newStringSerde own = .ok element) (made : newArraySerde element limits = .ok s) :
      StringArray s fun items => sizeBytes + (items.map fun item => sizeBytes + stringSize item).sum ≤ limits.maxTotalBytes ∧
        ∀ item ∈ items, stringSize item ≤ own.maxTotalBytes
  | fixedSizeArray {own limits : SerdeLimits} {element : Serde JsString} {elementSize : Nat} {s : Serde (List JsString)}
      (strings : newStringSerde own = .ok element) (made : newFixedSizeArraySerde element elementSize limits = .ok s) :
      StringArray s fun items => sizeBytes + (items.map stringSize).sum ≤ limits.maxTotalBytes ∧
        ∀ item ∈ items, stringSize item ≤ own.maxTotalBytes

theorem StringArray.isArray {s : Serde (List JsString)} {fits : List JsString → Prop} (array : StringArray s fits) :
    IsArray s := by
  cases array with
  | strings made => exact .stringArray made
  | array _ made => exact .array made
  | fixedSizeArray _ made => exact .fixedSizeArray made

theorem StringArray.recovers {s : Serde (List JsString)} {fits : List JsString → Prop} (array : StringArray s fits) :
    ∃ size, Recovers s size fun items => fits items ∧ ∀ item ∈ items, Readable item := by
  cases array with
  | strings made =>
    obtain ⟨same, valid⟩ := newStringArraySerde_ok made
    rw [same]
    exact ⟨_, ElementFraming.arraySerde_recovers valid (stringElement_recovers valid)⟩
  | array strings made =>
    obtain ⟨sameElement, own⟩ := newStringSerde_ok strings
    obtain ⟨same, valid⟩ := newArraySerde_ok made
    rw [same, sameElement]
    refine ⟨_, (ElementFraming.arraySerde_recovers valid (framedElement_recovers (stringSerde_recovers own))).congr ?_⟩
    intro items
    rw [and_assoc, ← forall₂_and]
  | fixedSizeArray strings made =>
    obtain ⟨sameElement, own⟩ := newStringSerde_ok strings
    obtain ⟨same, valid⟩ := newFixedSizeArraySerde_ok made
    rw [same, sameElement]
    refine ⟨_, (ElementFraming.arraySerde_recovers valid (fixedSizeElement_recovers (stringSerde_recovers own))).congr ?_⟩
    intro items
    rw [and_assoc, ← forall₂_and]

/- Under its limits a string comes back from what it was written as exactly if it
   does not start with U+FEFF, which the decoders drop; an array of strings if
   none of them does, and a map with strings for keys if no key does. -/
theorem strings_round_trip {limits : SerdeLimits} {s : Serde JsString} {array : Serde (List JsString)}
    {fits : List JsString → Prop} {V : Type} {valueArray : Serde (List V)} {maxTotalBytes : Nat}
    {m : Serde (JsMap JsString V)} (made : newStringSerde limits = .ok s) (strings : StringArray array fits)
    (mapMade : newMapSerde array valueArray maxTotalBytes = .ok m) :
    (∀ value out, value.isWellFormed = true → s.serialize value [] = .ok out → out.length ≤ limits.maxTotalBytes →
      (s.deserialize out = .ok value ↔ value.isMarked = false)) ∧
    (∀ items out, (∀ item ∈ items, item.isWellFormed = true) → array.serialize items [] = .ok out → fits items →
      (array.deserialize out = .ok items ↔ ∀ item ∈ items, item.isMarked = false)) ∧
    ∀ map out, (∀ key ∈ map.entries.map Prod.fst, key.isWellFormed = true) → m.serialize map [] = .ok out →
      out.length ≤ maxTotalBytes → fits (map.entries.map Prod.fst) →
      (∀ written, valueArray.serialize (map.entries.map Prod.snd) [] = .ok written →
        valueArray.deserialize written = .ok (map.entries.map Prod.snd)) →
      (m.deserialize out = .ok map ↔ ∀ key ∈ map.entries.map Prod.fst, key.isMarked = false) := by
  obtain ⟨size, recovers⟩ := strings.recovers
  refine ⟨?_, ?_, ?_⟩
  · intro value out formed accepted fits
    obtain ⟨same, valid⟩ := newStringSerde_ok made
    rw [same] at accepted ⊢
    obtain ⟨length, -, reads, -⟩ := (stringSerde_recovers valid).accepted accepted
    rw [length] at fits
    rw [reads, and_iff_right fits, Readable, and_iff_right formed]
  · intro items out formed accepted within
    obtain ⟨-, -, reads, -⟩ := recovers.accepted accepted
    rw [reads, and_iff_right within]
    exact forall₂_congr fun item mem => and_iff_right (formed item mem)
  · intro map out formed accepted total within values
    obtain ⟨_, safe, last⟩ := bind_ok.mp mapMade
    cases last
    obtain ⟨keyBytes, valueBytes, out', keyEncoded, valueEncoded, -, writes, reads⟩ :=
      mapSerde_restores (validateLimit_ok.mp safe) strings.isArray.counted accepted
    obtain ⟨-, shape⟩ := (writes [] out).mp accepted
    rw [List.nil_append] at shape
    subst shape
    obtain ⟨-, -, keyRead, -⟩ := recovers.accepted keyEncoded
    rw [reads, and_iff_right total, and_iff_left (values valueBytes valueEncoded), keyRead, and_iff_right within]
    exact forall₂_congr fun key mem => and_iff_right (formed key mem)

def stringKeysSerde : Serde (JsMap JsString Bool) :=
  mapSerde ((stringElement unlimitedSerdeLimits).arraySerde unlimitedSerdeLimits)
    ((fixedSizeElement boolSerde 1).arraySerde unlimitedSerdeLimits) Number.maxSafeInteger

def plainKeys : JsMap JsString Bool := (JsMap.empty.set ⟨[0x61, 0xFEFF]⟩ true).set ⟨[0x61]⟩ false

theorem strings_round_trip_plain : ∃ out listOut mapOut,
    (stringSerde unlimitedSerdeLimits).serialize ⟨[0x61, 0xFEFF]⟩ [] = .ok out ∧
    (stringSerde unlimitedSerdeLimits).deserialize out = .ok ⟨[0x61, 0xFEFF]⟩ ∧
    ((stringElement unlimitedSerdeLimits).arraySerde unlimitedSerdeLimits).serialize [⟨[0xD83D, 0xDE00]⟩] [] = .ok listOut ∧
    ((stringElement unlimitedSerdeLimits).arraySerde unlimitedSerdeLimits).deserialize listOut = .ok [⟨[0xD83D, 0xDE00]⟩] ∧
    stringKeysSerde.serialize plainKeys [] = .ok mapOut ∧
    stringKeysSerde.deserialize mapOut = .ok plainKeys := by
  have one : newStringSerde unlimitedSerdeLimits = .ok (stringSerde unlimitedSerdeLimits) := rfl
  have many : newStringArraySerde unlimitedSerdeLimits =
    .ok ((stringElement unlimitedSerdeLimits).arraySerde unlimitedSerdeLimits) := rfl
  have keyed : newMapSerde ((stringElement unlimitedSerdeLimits).arraySerde unlimitedSerdeLimits)
    ((fixedSizeElement boolSerde 1).arraySerde unlimitedSerdeLimits) Number.maxSafeInteger = .ok stringKeysSerde := rfl
  obtain ⟨string, list, map⟩ := strings_round_trip one (.strings many) keyed
  refine ⟨_, _, _, rfl, ?_, rfl, ?_, rfl, ?_⟩
  · exact (string _ _ (by decide) rfl (by decide +kernel)).mpr (by decide)
  · exact (list _ _ (by decide) rfl (by decide +kernel)).mpr (by decide)
  · refine (map plainKeys _ (by decide) rfl (by decide +kernel) (by decide +kernel) ?_).mpr (by decide)
    intro written accepted
    cases accepted
    decide +kernel

def markedKeys : JsMap JsString Bool := (JsMap.empty.set ⟨[0xFEFF, 0x61]⟩ true).set ⟨[0x61]⟩ false

/- The mark is lost, and the two keys with their values become one. -/
theorem strings_lose_mark :
    newStringSerde unlimitedSerdeLimits = .ok (stringSerde unlimitedSerdeLimits) ∧
    JsString.isWellFormed ⟨[0xFEFF, 0x61]⟩ = true ∧
    (∃ out, (stringSerde unlimitedSerdeLimits).serialize ⟨[0xFEFF, 0x61]⟩ [] = .ok out ∧
      (stringSerde unlimitedSerdeLimits).deserialize out = .ok ⟨[0x61]⟩) ∧
    (markedKeys.entries = [(⟨[0xFEFF, 0x61]⟩, true), (⟨[0x61]⟩, false)] ∧
      ∃ out, stringKeysSerde.serialize markedKeys [] = .ok out ∧
        stringKeysSerde.deserialize out = .ok (JsMap.empty.set ⟨[0x61]⟩ false)) := by
  refine ⟨rfl, by decide, ⟨_, rfl, by decide +kernel⟩, by decide, ⟨_, rfl, by decide +kernel⟩⟩

end Arrays

end Serdes
