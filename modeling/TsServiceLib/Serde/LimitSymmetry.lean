import TsServiceLib.Serde.StringSerdes

/-!
The limits on the two sides. The limit on the whole is checked by the readers
alone, so that a writer accepts more than what can be read again; how many bytes
a value takes says which values those are.
-/
namespace Serdes
open Numbers Framing BigEndian
variable {T : Type}

section Scalars

theorem Lawful.recovers {s : Serde T} {size : T → Nat} (lawful : Lawful s)
    (width : ∀ value out, s.serialize value [] = .ok out → out.length = size value) : Recovers s size fun _ => True := by
  intro value before result accepted
  obtain ⟨out, writes, reads⟩ := lawful value before result accepted
  have room := ((writes before result).mp accepted).1
  have alone : s.serialize value [] = .ok out := (writes [] out).mpr ⟨by simp only [List.length_nil]; omega, rfl⟩
  exact ⟨out, width value out alone, writes, iff_true_intro reads⟩

theorem integerSerdes_recovers {s : IntegerSerde} (scalar : s ∈ integerSerdes) : Recovers s.serde (fun _ => s.width) fun _ => True := by
  apply (integerSerdes_lawful scalar).recovers
  intro value out accepted
  obtain ⟨_, _, written⟩ := bind_ok.mp accepted
  cases written
  exact length_toBytes _ _

theorem bigIntegerSerdes_recovers {s : BigIntegerSerde} (scalar : s ∈ bigIntegerSerdes) :
    Recovers s.serde (fun _ => 8) fun _ => True := by
  apply (bigIntegerSerdes_lawful scalar).recovers
  intro value out accepted
  simp only [BigIntegerSerde.serde] at accepted
  split at accepted
  · cases accepted
  · cases accepted
    exact length_toBytes _ _

theorem boolSerde_recovers : Recovers boolSerde (fun _ => 1) fun _ => True := by
  apply boolSerde_lawful.recovers
  intro value out accepted
  cases accepted
  rfl

end Scalars

/-- The serdes under limits, which may differ from one to the next: how many bytes
    a value takes, and which values their readers accept. -/
inductive Limited : {T : Type} → Serde T → (T → Nat) → (T → Prop) → Prop where
  | element {T : Type} {s : Serde T} {size : T → Nat} {readable : T → Prop} (recovers : Recovers s size readable) :
      Limited s size readable
  | bytes {limits : SerdeLimits} {s : Serde Bytes} (made : newBytesSerde limits = .ok s) :
      Limited s (fun value => sizeBytes + value.length) fun value => sizeBytes + value.length ≤ limits.maxTotalBytes
  | string {limits : SerdeLimits} {s : Serde JsString} (made : newStringSerde limits = .ok s) :
      Limited s stringSize fun value => stringSize value ≤ limits.maxTotalBytes ∧ Readable value
  | stringArray {limits : SerdeLimits} {s : Serde (List JsString)} (made : newStringArraySerde limits = .ok s) :
      Limited s (fun value => sizeBytes + (value.map stringSize).sum) fun value =>
        sizeBytes + (value.map stringSize).sum ≤ limits.maxTotalBytes ∧ ∀ item ∈ value, Readable item
  | fixedSizeArray {T : Type} {element : Serde T} {elementSize : Nat} {limits : SerdeLimits} {s : Serde (List T)}
      {size : T → Nat} {readable : T → Prop} (elements : Limited element size readable)
      (made : newFixedSizeArraySerde element elementSize limits = .ok s) :
      Limited s (fun value => sizeBytes + (value.map size).sum) fun value =>
        sizeBytes + (value.map size).sum ≤ limits.maxTotalBytes ∧ ∀ item ∈ value, readable item
  | array {T : Type} {element : Serde T} {limits : SerdeLimits} {s : Serde (List T)} {size : T → Nat} {readable : T → Prop}
      (elements : Limited element size readable) (made : newArraySerde element limits = .ok s) :
      Limited s (fun value => sizeBytes + (value.map fun item => sizeBytes + size item).sum) fun value =>
        sizeBytes + (value.map fun item => sizeBytes + size item).sum ≤ limits.maxTotalBytes ∧ ∀ item ∈ value, readable item
  | map {K V : Type} [MapKey K] {keyArray : Serde (List K)} {valueArray : Serde (List V)} {maxTotalBytes : Nat}
      {s : Serde (JsMap K V)} {keySize : List K → Nat} {valueSize : List V → Nat} {keyReadable : List K → Prop}
      {valueReadable : List V → Prop} (array : IsArray keyArray) (keys : Limited keyArray keySize keyReadable)
      (values : Limited valueArray valueSize valueReadable) (made : newMapSerde keyArray valueArray maxTotalBytes = .ok s) :
      Limited s
        (fun map => sizeBytes + keySize (map.entries.map Prod.fst) + (sizeBytes + valueSize (map.entries.map Prod.snd)))
        fun map =>
          sizeBytes + keySize (map.entries.map Prod.fst) + (sizeBytes + valueSize (map.entries.map Prod.snd)) ≤ maxTotalBytes ∧
          keyReadable (map.entries.map Prod.fst) ∧ valueReadable (map.entries.map Prod.snd)
  | keyValue {K V : Type} {key : Serde K} {value : Serde V} {keySize : K → Nat} {valueSize : V → Nat}
      {keyReadable : K → Prop} {valueReadable : V → Prop} (streamTypeName : String) (keys : Limited key keySize keyReadable)
      (values : Limited value valueSize valueReadable) :
      Limited (streamKeyValueSerde key value streamTypeName).toSerde
        (fun pair => sizeBytes + keySize pair.key + (sizeBytes + valueSize pair.value))
        fun pair => keyReadable pair.key ∧ valueReadable pair.value
  | stream {T : Type} {s : Serde T} {size : T → Nat} {readable : T → Prop} (serde : Limited s size readable) :
      Limited (makeStreamSerde s).toSerde size readable

theorem limited_recovers {s : Serde T} {size : T → Nat} {readable : T → Prop} (limited : Limited s size readable) :
    Recovers s size readable := by
  induction limited with
  | element recovers => exact recovers
  | bytes made =>
    obtain ⟨_, valid, last⟩ := bind_ok.mp made
    cases last
    exact bytesSerde_recovers (validateLimits_ok.mp valid)
  | string made =>
    obtain ⟨same, valid⟩ := newStringSerde_ok made
    rw [same]
    exact stringSerde_recovers valid
  | stringArray made =>
    obtain ⟨same, valid⟩ := newStringArraySerde_ok made
    rw [same]
    exact ElementFraming.arraySerde_recovers valid (stringElement_recovers valid)
  | fixedSizeArray _ made ih =>
    obtain ⟨same, valid⟩ := newFixedSizeArraySerde_ok made
    rw [same]
    exact ElementFraming.arraySerde_recovers valid (fixedSizeElement_recovers ih)
  | array _ made ih =>
    obtain ⟨same, valid⟩ := newArraySerde_ok made
    rw [same]
    exact ElementFraming.arraySerde_recovers valid (framedElement_recovers ih)
  | map array _ _ made keys values =>
    obtain ⟨_, safe, last⟩ := bind_ok.mp made
    cases last
    exact mapSerde_recovers (validateLimit_ok.mp safe) array.counted keys values
  | keyValue _ _ _ keys values => exact streamKeyValueSerde_recovers keys values
  | stream _ ih => exact ih

/- What was accepted is read again exactly if it is not too long for any of the
   readers that it passes and its strings are ones that come back. -/
theorem limits_symmetric_iff {s : Serde T} {size : T → Nat} {readable : T → Prop} (limited : Limited s size readable)
    (value : T) (out : Bytes) (accepted : s.serialize value [] = .ok out) :
    out.length = size value ∧ (s.deserialize out = .ok value ↔ readable value) := by
  obtain ⟨length, -, reads, -⟩ := (limited_recovers limited).accepted accepted
  exact ⟨length, reads⟩

def tightLimits : SerdeLimits where
  maxStringBytes := 3
  maxBytes := 9
  maxContainerElements := 2
  maxTotalBytes := 16

theorem limits_symmetric_iff_tight :
    (∃ out, (bytesSerde tightLimits).serialize [1, 2, 3] [] = .ok out ∧ (bytesSerde tightLimits).deserialize out = .ok [1, 2, 3]) ∧
    (∃ out, ((fixedSizeElement int32Serde.serde 4).arraySerde tightLimits).serialize [.finite 7, .finite (-1)] [] = .ok out ∧
      ((fixedSizeElement int32Serde.serde 4).arraySerde tightLimits).deserialize out = .ok [.finite 7, .finite (-1)]) ∧
    (∃ out, ((fixedSizeElement int64Serde.serde 8).arraySerde tightLimits).serialize [-5] [] = .ok out ∧
      ((fixedSizeElement int64Serde.serde 8).arraySerde tightLimits).deserialize out = .ok [-5]) ∧
    ∃ out, ((fixedSizeElement boolSerde 1).arraySerde tightLimits).serialize [true, false] [] = .ok out ∧
      ((fixedSizeElement boolSerde 1).arraySerde tightLimits).deserialize out = .ok [true, false] := by
  have bytes : newBytesSerde tightLimits = .ok (bytesSerde tightLimits) := rfl
  have numbers : int32ArraySerde tightLimits = .ok ((fixedSizeElement int32Serde.serde 4).arraySerde tightLimits) := rfl
  have integers : int64ArraySerde tightLimits = .ok ((fixedSizeElement int64Serde.serde 8).arraySerde tightLimits) := rfl
  have flags : boolArraySerde tightLimits = .ok ((fixedSizeElement boolSerde 1).arraySerde tightLimits) := rfl
  have number : Limited int32Serde.serde (fun _ => 4) fun _ => True := .element (integerSerdes_recovers (by simp [integerSerdes]))
  have integer : Limited int64Serde.serde (fun _ => 8) fun _ => True :=
    .element (bigIntegerSerdes_recovers (by simp [bigIntegerSerdes]))
  have flag : Limited boolSerde (fun _ => 1) fun _ => True := .element boolSerde_recovers
  refine ⟨⟨_, rfl, ?_⟩, ⟨_, rfl, ?_⟩, ⟨_, rfl, ?_⟩, ⟨_, rfl, ?_⟩⟩
  · exact (limits_symmetric_iff (.bytes bytes) _ _ rfl).2.mpr (by decide)
  · exact (limits_symmetric_iff (.fixedSizeArray number numbers) _ _ rfl).2.mpr (by decide)
  · exact (limits_symmetric_iff (.fixedSizeArray integer integers) _ _ rfl).2.mpr (by decide)
  · exact (limits_symmetric_iff (.fixedSizeArray flag flags) _ _ rfl).2.mpr (by decide)

/- Nine bytes are written under limits that let no more than sixteen be read, of
   which their length takes eight; and so are two flags with a length each. -/
theorem total_limit_only_read :
    newBytesSerde tightLimits = .ok (bytesSerde tightLimits) ∧
    (∃ out, (bytesSerde tightLimits).serialize [1, 2, 3, 4, 5, 6, 7, 8, 9] [] = .ok out ∧
      (bytesSerde tightLimits).deserialize out = .error (.serdeError "serde input exceeds configured limit" 0)) ∧
    newArraySerde boolSerde tightLimits = .ok ((framedElement boolSerde).arraySerde tightLimits) ∧
    ∃ out, ((framedElement boolSerde).arraySerde tightLimits).serialize [true, false] [] = .ok out ∧
      ((framedElement boolSerde).arraySerde tightLimits).deserialize out =
        .error (.serdeError "serde input exceeds configured limit" 0) := by
  exact ⟨rfl, ⟨_, rfl, rfl⟩, rfl, ⟨_, rfl, rfl⟩⟩

end Serdes
