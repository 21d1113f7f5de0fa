import TsServiceLib.Serde.CollectionSerdes

/-!
The stream serdes, which write a key and its value together or apart, and the
serdes that are built by nesting. Numbers are compared as `===` does, for which
the two zeros are one, and maps as their sequences of entries.
-/
namespace Serdes
open Numbers Framing
variable {T K V : Type}

structure StreamSerde (T : Type) extends Serde T where
  typeName : String
  isKeyValue : Bool
  serializeKey : T → Except Failure (Option Bytes)
  serializeValue : T → Except Failure Bytes
  deserializeKeyValue : Option Bytes → Bytes → Except Failure T

structure KeyValue (K V : Type) where
  key : K
  value : V
  deriving DecidableEq

instance : MapKey (KeyValue K V) := ⟨fun _ _ => false⟩

/-- The `ValueStreamSerde`. -/
def makeStreamSerde (serde : Serde T) : StreamSerde T where
  serialize value before := serde.serialize value before
  deserialize data := serde.deserialize data
  typeName := ""
  isKeyValue := false
  serializeKey _ := .ok none
  serializeValue value := serde.serialize value []
  deserializeKeyValue _ value := serde.deserialize value

def streamKeyValueSerde (keySerde : Serde K) (valueSerde : Serde V) (streamTypeName : String) :
    StreamSerde (KeyValue K V) where
  serialize value before := appendParts keySerde valueSerde value.key value.value before
  deserialize data := do
    let offset ← SerdeReader.start data Number.maxSafeInteger
    let ((key, value), _) ← readParts keySerde valueSerde data "key" "value" offset
    pure { key, value }
  typeName := streamTypeName
  isKeyValue := true
  serializeKey value := do
    let key ← keySerde.serialize value.key []
    pure (some key)
  serializeValue value := valueSerde.serialize value.value []
  deserializeKeyValue key value := do
    match key with
    | none => throw (.serdeError "key is required" 0)
    | some key =>
      let key ← keySerde.deserialize key
      let value ← valueSerde.deserialize value
      pure { key, value }

def makeStreamKeyValueSerde (keySerde : StreamSerde K) (valueSerde : StreamSerde V) : StreamSerde (KeyValue K V) :=
  streamKeyValueSerde keySerde.toSerde valueSerde.toSerde
    ("KeyValue[" ++ keySerde.typeName ++ "," ++ valueSerde.typeName ++ "]")

/-- The serdes built from the scalars without the floats, under unlimited limits. -/
inductive Built : {T : Type} → Serde T → Prop where
  | integer {s : IntegerSerde} (scalar : s ∈ integerSerdes) : Built s.serde
  | bigInteger {s : BigIntegerSerde} (scalar : s ∈ bigIntegerSerdes) : Built s.serde
  | bool : Built boolSerde
  | bytes {s : Serde Bytes} (made : newBytesSerde unlimitedSerdeLimits = .ok s) : Built s
  | fixedSizeArray {T : Type} {element : Serde T} {elementSize : Nat} {s : Serde (List T)} (elements : Built element)
      (made : newFixedSizeArraySerde element elementSize unlimitedSerdeLimits = .ok s) : Built s
  | array {T : Type} {element : Serde T} {s : Serde (List T)} (elements : Built element)
      (made : newArraySerde element unlimitedSerdeLimits = .ok s) : Built s
  | map {K V : Type} [MapKey K] {keyArray : Serde (List K)} {valueArray : Serde (List V)} {s : Serde (JsMap K V)}
      (keys : Built keyArray) (values : Built valueArray)
      (made : newMapSerde keyArray valueArray Number.maxSafeInteger = .ok s) : Built s
  | stream {T : Type} {s : Serde T} (built : Built s) : Built (makeStreamSerde s).toSerde
  | keyValue {K V : Type} {key : Serde K} {value : Serde V} (streamTypeName : String) (keys : Built key)
      (values : Built value) : Built (streamKeyValueSerde key value streamTypeName).toSerde

theorem streamKeyValueSerde_lawful {key : Serde K} {value : Serde V} {streamTypeName : String} (keyLawful : Lawful key)
    (valueLawful : Lawful value) : Lawful (streamKeyValueSerde key value streamTypeName).toSerde := by
  intro pair before result accepted
  obtain ⟨out, fits, writes, reads⟩ := appendParts_lawful keyLawful valueLawful accepted
  refine ⟨out, writes, ?_⟩
  apply bind_ok.mpr
  exact ⟨0, start_ok fits (by decide), bind_ok.mpr ⟨_, reads "key" "value", rfl⟩⟩

theorem built_lawful {s : Serde T} (built : Built s) : Lawful s := by
  induction built with
  | integer scalar => exact integerSerdes_lawful scalar
  | bigInteger scalar => exact bigIntegerSerdes_lawful scalar
  | bool => exact boolSerde_lawful
  | bytes made =>
    cases made
    exact bytesSerde_lawful
  | fixedSizeArray _ made ih => exact newFixedSizeArraySerde_lawful ih made
  | array _ made ih => exact newArraySerde_lawful ih made
  | map _ _ made keys values => exact newMapSerde_lawful keys values made
  | stream _ ih => exact ih
  | keyValue _ _ _ keys values => exact streamKeyValueSerde_lawful keys values

theorem streamKeyValueSerde_apart {key : Serde K} {value : Serde V} {streamTypeName : String} (keyLawful : Lawful key)
    (valueLawful : Lawful value) {pair : KeyValue K V} {out : Bytes}
    (accepted : (streamKeyValueSerde key value streamTypeName).serialize pair [] = .ok out) :
    ∃ keyBytes valueBytes, (streamKeyValueSerde key value streamTypeName).serializeKey pair = .ok (some keyBytes) ∧
      (streamKeyValueSerde key value streamTypeName).serializeValue pair = .ok valueBytes ∧
      (streamKeyValueSerde key value streamTypeName).deserializeKeyValue (some keyBytes) valueBytes = .ok pair := by
  obtain ⟨keyBytes, keyEncoded, rest⟩ := bind_ok.mp accepted
  obtain ⟨valueBytes, valueEncoded, -⟩ := bind_ok.mp rest
  obtain ⟨-, keyRead, -⟩ := keyLawful.accepted keyEncoded
  obtain ⟨-, valueRead, -⟩ := valueLawful.accepted valueEncoded
  have keyOnly : (streamKeyValueSerde key value streamTypeName).serializeKey pair = .ok (some keyBytes) :=
    bind_ok.mpr ⟨keyBytes, keyEncoded, rfl⟩
  exact ⟨keyBytes, valueBytes, keyOnly, valueEncoded, bind_ok.mpr ⟨pair.key, keyRead, bind_ok.mpr ⟨pair.value, valueRead, rfl⟩⟩⟩

/- A serde that was built by any nesting reads back every value it accepts. After
   other bytes it puts the very bytes it would write alone, which fails only
   beyond the length that an array can have; and a key and a value written apart
   make the pair again. -/
theorem built_round_trips :
    (∀ {T : Type} {s : Serde T}, Built s → ∀ value out, s.serialize value [] = .ok out →
      s.deserialize out = .ok value ∧
      ∀ before result, s.serialize value before = .ok result ↔
        before.length + out.length ≤ Number.maxSafeInteger ∧ result = before ++ out) ∧
    (∀ {K V : Type} {key : Serde K} {value : Serde V} (streamTypeName : String), Built key → Built value →
      ∀ pair out, (streamKeyValueSerde key value streamTypeName).serialize pair [] = .ok out →
        ∃ keyBytes valueBytes, (streamKeyValueSerde key value streamTypeName).serializeKey pair = .ok (some keyBytes) ∧
          (streamKeyValueSerde key value streamTypeName).serializeValue pair = .ok valueBytes ∧
          (streamKeyValueSerde key value streamTypeName).deserializeKeyValue (some keyBytes) valueBytes = .ok pair) := by
  constructor
  · intro T s built value out accepted
    obtain ⟨-, reads, writes⟩ := (built_lawful built).accepted accepted
    exact ⟨reads, writes⟩
  · intro K V key value streamTypeName keyBuilt valueBuilt pair out accepted
    exact streamKeyValueSerde_apart (built_lawful keyBuilt) (built_lawful valueBuilt) accepted

def flagsSerde : Serde (JsMap Number (List Bool)) :=
  mapSerde ((fixedSizeElement int16Serde.serde 2).arraySerde unlimitedSerdeLimits)
    ((framedElement ((fixedSizeElement boolSerde 1).arraySerde unlimitedSerdeLimits)).arraySerde unlimitedSerdeLimits)
    Number.maxSafeInteger

def flags : JsMap Number (List Bool) := (JsMap.empty.set (.finite (-1)) [true, false]).set (.finite 300) []

def flaggedSerde : StreamSerde (KeyValue Int (JsMap Number (List Bool))) :=
  makeStreamKeyValueSerde (makeStreamSerde uInt64Serde.serde) (makeStreamSerde flagsSerde)

theorem flagsSerde_built : Built flagsSerde := by
  have short : Built int16Serde.serde := .integer (by simp [integerSerdes])
  have shorts : int16ArraySerde unlimitedSerdeLimits =
    .ok ((fixedSizeElement int16Serde.serde 2).arraySerde unlimitedSerdeLimits) := rfl
  have flagLists : boolArraySerde unlimitedSerdeLimits =
    .ok ((fixedSizeElement boolSerde 1).arraySerde unlimitedSerdeLimits) := rfl
  have keys := Built.fixedSizeArray short shorts
  have lists := Built.fixedSizeArray .bool flagLists
  exact .map keys (.array lists rfl) rfl

theorem built_round_trips_flags : ∃ out keyBytes valueBytes,
    flaggedSerde.serialize ⟨7, flags⟩ [] = .ok out ∧
    flaggedSerde.deserialize out = .ok ⟨7, flags⟩ ∧
    flaggedSerde.serialize ⟨7, flags⟩ [1, 2] = .ok (1 :: 2 :: out) ∧
    flaggedSerde.serializeKey ⟨7, flags⟩ = .ok (some keyBytes) ∧
    flaggedSerde.serializeValue ⟨7, flags⟩ = .ok valueBytes ∧
    flaggedSerde.deserializeKeyValue (some keyBytes) valueBytes = .ok ⟨7, flags⟩ := by
  have keyBuilt : Built uInt64Serde.serde := .bigInteger (by simp [bigIntegerSerdes])
  obtain ⟨out, accepted, short⟩ : ∃ out,
      flaggedSerde.serialize ⟨7, flags⟩ [] = .ok out ∧ 2 + out.length ≤ Number.maxSafeInteger :=
    ⟨_, rfl, by decide +kernel⟩
  obtain ⟨reads, writes⟩ := built_round_trips.1 (.keyValue "KeyValue[,]" keyBuilt flagsSerde_built) _ out accepted
  obtain ⟨keyBytes, valueBytes, apart⟩ := built_round_trips.2 "KeyValue[,]" keyBuilt flagsSerde_built _ out accepted
  exact ⟨out, keyBytes, valueBytes, accepted, reads, (writes [1, 2] _).mpr ⟨short, rfl⟩, apart⟩

end Serdes
