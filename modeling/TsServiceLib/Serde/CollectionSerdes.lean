import TsServiceLib.Serde.ScalarSerdes

/-!
The serdes of arrays and maps. An array is its count and its elements one after
the other, a map the array of its keys and the array of its values. What is read
of a limit is said for any limits; the laws are those of unlimited ones.
-/
namespace Serdes
open Numbers Framing BigEndian
variable {T K V : Type}

def validateArray (value : List T) (limits : SerdeLimits) : Except Failure Unit :=
  if value.length > limits.maxContainerElements then .error (.serdeError "array exceeds configured element limit" 0)
  else .ok ()

def appendFramed (before part : Bytes) : Except Failure Bytes := do
  let size ← encodeSize part.length
  let output ← appendBytes before size
  appendBytes output part

/-- Read a part after its length and decode it. -/
def readPart (serde : Serde T) (data : Bytes) (what : String) (offset : Nat) : Except Failure (T × Nat) := do
  let (length, offset) ← SerdeReader.readSize data data.length (what ++ " length") offset
  let (bytes, offset) ← SerdeReader.read data length what offset
  let item ← serde.deserialize bytes
  pure (item, offset)

/-- The two parts of a map or of a key and its value. Both are encoded before
    anything is appended. -/
def appendParts (first : Serde K) (second : Serde V) (key : K) (value : V) (before : Bytes) : Except Failure Bytes := do
  let encodedKey ← first.serialize key []
  let encodedValue ← second.serialize value []
  let output ← appendFramed before encodedKey
  appendFramed output encodedValue

def readParts (first : Serde K) (second : Serde V) (data : Bytes) (keyOf valueOf : String) (offset : Nat) :
    Except Failure ((K × V) × Nat) := do
  let (key, offset) ← readPart first data keyOf offset
  let (value, offset) ← readPart second data valueOf offset
  pure ((key, value), offset)

/-- How one element of an array is written and read. -/
structure ElementFraming (T : Type) where
  write : T → Bytes → Except Failure Bytes
  read : Bytes → Nat → Except Failure (T × Nat)

/-- What the array serdes share: the count, and a loop over the elements. -/
def ElementFraming.arraySerde (element : ElementFraming T) (limits : SerdeLimits) : Serde (List T) where
  serialize value before := do
    validateArray value limits
    let size ← encodeSize value.length
    let output ← appendBytes before size
    value.foldlM (fun output item => element.write item output) output
  deserialize data := do
    let offset ← SerdeReader.start data limits.maxTotalBytes
    let (count, offset) ← SerdeReader.readSize data limits.maxContainerElements "array count" offset
    let (result, _) ← readTimes (element.read data) count offset
    pure result

def fixedSizeElement (elementSerde : Serde T) (elementSize : Nat) : ElementFraming T where
  write item output := do
    let encoded ← elementSerde.serialize item []
    if encoded.length ≠ elementSize then
      throw (.serdeError "fixed-size element serde returned an invalid width" 0)
    appendBytes output encoded
  read data offset := do
    let (bytes, offset) ← SerdeReader.read data elementSize "array element" offset
    let item ← elementSerde.deserialize bytes
    pure (item, offset)

def framedElement (elementSerde : Serde T) : ElementFraming T where
  write item output := do
    let encoded ← elementSerde.serialize item []
    appendFramed output encoded
  read data offset := readPart elementSerde data "array element" offset

def newFixedSizeArraySerde (elementSerde : Serde T) (elementSize : Nat) (limits : SerdeLimits) :
    Except Failure (Serde (List T)) := do
  if elementSize > Number.maxSafeInteger ∨ elementSize ≤ 0 then
    throw (.rangeError "elementSize must be a positive safe integer")
  validateLimits limits
  pure ((fixedSizeElement elementSerde elementSize).arraySerde limits)

def newArraySerde (elementSerde : Serde T) (limits : SerdeLimits) : Except Failure (Serde (List T)) := do
  validateLimits limits
  pure ((framedElement elementSerde).arraySerde limits)

def boolArraySerde (limits : SerdeLimits) := newFixedSizeArraySerde boolSerde 1 limits
def int8ArraySerde (limits : SerdeLimits) := newFixedSizeArraySerde int8Serde.serde 1 limits
def uInt8ArraySerde (limits : SerdeLimits) := newFixedSizeArraySerde uInt8Serde.serde 1 limits
def int16ArraySerde (limits : SerdeLimits) := newFixedSizeArraySerde int16Serde.serde 2 limits
def uInt16ArraySerde (limits : SerdeLimits) := newFixedSizeArraySerde uInt16Serde.serde 2 limits
def int32ArraySerde (limits : SerdeLimits) := newFixedSizeArraySerde int32Serde.serde 4 limits
def uInt32ArraySerde (limits : SerdeLimits) := newFixedSizeArraySerde uInt32Serde.serde 4 limits
def int64ArraySerde (limits : SerdeLimits) := newFixedSizeArraySerde int64Serde.serde 8 limits
def uInt64ArraySerde (limits : SerdeLimits) := newFixedSizeArraySerde uInt64Serde.serde 8 limits
def intArraySerde (limits : SerdeLimits) := int64ArraySerde limits
def uIntArraySerde (limits : SerdeLimits) := uInt64ArraySerde limits

/-- The keys that a map takes for the same: equal primitives. Objects are told
    apart by reference, and those that are put into a map here are fresh. -/
class MapKey (K : Type) where
  same : K → K → Bool

instance : MapKey Number := ⟨fun a b => decide (a = b)⟩

instance : MapKey Int := ⟨fun a b => decide (a = b)⟩

instance : MapKey Bool := ⟨fun a b => decide (a = b)⟩

instance : MapKey (List T) := ⟨fun _ _ => false⟩

/-- A map is its entries in the order of insertion. -/
@[ext]
structure JsMap (K V : Type) [MapKey K] where
  entries : List (K × V)
  distinct : entries.Pairwise fun a b => MapKey.same a.1 b.1 = false

namespace JsMap
variable [MapKey K]

instance : MapKey (JsMap K V) := ⟨fun _ _ => false⟩

instance [DecidableEq K] [DecidableEq V] : DecidableEq (JsMap K V) :=
  fun a b => decidable_of_iff (a.entries = b.entries) JsMap.ext_iff.symm

def empty : JsMap K V := ⟨[], .nil⟩

def put (key : K) (value : V) : List (K × V) → List (K × V)
  | [] => [(key, value)]
  | entry :: rest => if MapKey.same entry.1 key then (entry.1, value) :: rest else entry :: put key value rest

theorem put_keys {key k : K} {value : V} {entries : List (K × V)} (mem : k ∈ (put key value entries).map Prod.fst) :
    k ∈ entries.map Prod.fst ∨ k = key := by
  induction entries with
  | nil => exact .inr (by simpa [put] using mem)
  | cons entry rest ih =>
    unfold put at mem
    split at mem
    · exact .inl mem
    · rcases List.mem_cons.mp mem with first | later
      · exact .inl (by simp [first])
      · rcases ih later with old | new
        · exact .inl (List.mem_cons_of_mem _ old)
        · exact .inr new

theorem put_distinct {key : K} {value : V} {entries : List (K × V)}
    (distinct : entries.Pairwise fun a b => MapKey.same a.1 b.1 = false) :
    (put key value entries).Pairwise fun a b => MapKey.same a.1 b.1 = false := by
  induction distinct with
  | nil => exact List.pairwise_singleton _ _
  | @cons entry rest apart _ ih =>
    unfold put
    split
    · rename_i distinct _
      exact List.pairwise_cons.mpr ⟨apart, distinct⟩
    · rename_i other
      refine List.pairwise_cons.mpr ⟨?_, ih⟩
      intro later mem
      rcases put_keys (List.mem_map_of_mem mem) with old | new
      · obtain ⟨entry', mem', sameKey⟩ := List.mem_map.mp old
        rw [← sameKey]
        exact apart entry' mem'
      · rw [new]
        exact Bool.eq_false_of_not_eq_true other

def set (map : JsMap K V) (key : K) (value : V) : JsMap K V :=
  ⟨put key value map.entries, put_distinct map.distinct⟩

/-- The loop over the keys with the iterator of the values. -/
def fill (offset : Nat) : List K → List V → JsMap K V → Except Failure (JsMap K V)
  | [], _, result => .ok result
  | _ :: _, [], _ => .error (.serdeError "map value is unexpectedly absent" offset)
  | key :: keys, value :: values, result => fill offset keys values (result.set key value)

end JsMap

def mapSerde [MapKey K] (keyArraySerde : Serde (List K)) (valueArraySerde : Serde (List V)) (maxTotalBytes : Nat) :
    Serde (JsMap K V) where
  serialize value before :=
    appendParts keyArraySerde valueArraySerde (value.entries.map Prod.fst) (value.entries.map Prod.snd) before
  deserialize data := do
    let offset ← SerdeReader.start data maxTotalBytes
    let ((keys, values), offset) ← readParts keyArraySerde valueArraySerde data "map keys" "map values" offset
    if keys.length ≠ values.length then throw (.serdeError "map key and value counts do not match" offset)
    JsMap.fill offset keys values JsMap.empty

def newMapSerde [MapKey K] (keyArraySerde : Serde (List K)) (valueArraySerde : Serde (List V)) (maxTotalBytes : Nat) :
    Except Failure (Serde (JsMap K V)) := do
  validateLimit maxTotalBytes "maxTotalBytes"
  pure (mapSerde keyArraySerde valueArraySerde maxTotalBytes)

section Parts
variable {data part : Bytes} {s : Serde T} {first : Serde K} {second : Serde V}

theorem Lawful.accepted {value : T} {out : Bytes} (lawful : Lawful s) (accepted : s.serialize value [] = .ok out) :
    out.length ≤ Number.maxSafeInteger ∧ s.deserialize out = .ok value ∧ Appends Number.maxSafeInteger (s.serialize value) out := by
  obtain ⟨out', writes, reads⟩ := lawful value [] out accepted
  obtain ⟨fits, shape⟩ := (writes [] out).mp accepted
  rw [List.nil_append] at shape
  rw [List.length_nil, Nat.zero_add] at fits
  subst shape
  exact ⟨fits, reads, writes⟩

theorem appendFramed_appends (safe : part.length ≤ Number.maxSafeInteger) :
    Appends Number.maxSafeInteger (fun before => appendFramed before part) (toBytes sizeBytes part.length ++ part) := by
  have both := appends_bind (encodeSize_appends safe) (appendBytes_appends safe)
  intro before result
  rw [← both before result]
  simp only [appendFramed, bind_assoc]

theorem readPart_restores {item : T} (safe : data.length ≤ Number.maxSafeInteger) (what : String) :
    Restores data (readPart s data what) (toBytes sizeBytes part.length ++ part) item (s.deserialize part = .ok item) := by
  have framed : Reads data _ (toBytes sizeBytes part.length ++ part) part :=
    framed_reads safe safe (.inr rfl) (what ++ " length") what
  have decoded : Restores data _ _ item (s.deserialize part = .ok item) := restores_map framed
  intro before after shape next
  rw [← decoded before after shape next]
  simp only [readPart, bind_assoc]

theorem reads_whole {read : Nat → Except Failure (T × Nat)} {item : T} (reads : Reads data read data item) :
    read 0 = .ok (item, data.length) := by
  simpa using reads [] [] (by simp)

theorem appendParts_lawful {key : K} {value : V} {before result : Bytes} (keyLawful : Lawful first)
    (valueLawful : Lawful second) (accepted : appendParts first second key value before = .ok result) :
    ∃ out, out.length ≤ Number.maxSafeInteger ∧ Appends Number.maxSafeInteger (appendParts first second key value) out ∧
      ∀ keyOf valueOf, readParts first second out keyOf valueOf 0 = .ok ((key, value), out.length) := by
  obtain ⟨encodedKey, keyEncoded, rest⟩ := bind_ok.mp accepted
  obtain ⟨encodedValue, valueEncoded, -⟩ := bind_ok.mp rest
  obtain ⟨keyFits, keyRead, -⟩ := keyLawful.accepted keyEncoded
  obtain ⟨valueFits, valueRead, -⟩ := valueLawful.accepted valueEncoded
  have both := appends_bind (appendFramed_appends keyFits) (appendFramed_appends valueFits)
  have writes : Appends Number.maxSafeInteger (appendParts first second key value)
      ((toBytes sizeBytes encodedKey.length ++ encodedKey) ++ (toBytes sizeBytes encodedValue.length ++ encodedValue)) := by
    intro before result
    rw [← both before result]
    simp only [appendParts, keyEncoded, valueEncoded]
    rfl
  have room := ((writes before result).mp accepted).1
  generalize whole : (toBytes sizeBytes encodedKey.length ++ encodedKey) ++
    (toBytes sizeBytes encodedValue.length ++ encodedValue) = out at writes room
  have fits : out.length ≤ Number.maxSafeInteger := by omega
  refine ⟨out, fits, writes, ?_⟩
  intro keyOf valueOf
  have keyPart := (readPart_restores fits keyOf).reads keyRead
  have valuePart := (readPart_restores fits valueOf).reads valueRead
  let pairWith : K → V → Except Failure (K × V) := fun key value => .ok (key, value)
  let next : K → Nat → Except Failure ((K × V) × Nat) := fun key offset =>
    readPart second out valueOf offset >>= fun parsed => pairWith key parsed.1 >>= fun pair => pure (pair, parsed.2)
  have made : pairWith key value = .ok (key, value) := rfl
  have paired : Reads out (next key) (toBytes sizeBytes encodedValue.length ++ encodedValue) (key, value) :=
    reads_map valuePart made
  have parts := reads_bind keyPart paired
  rw [whole] at parts
  exact reads_whole parts

end Parts

namespace ElementFraming
variable {element : ElementFraming T}

/-- An element that is accepted appends bytes that are read back as the element,
    wherever they are. -/
def Faithful (element : ElementFraming T) : Prop :=
  ∀ item before result, element.write item before = .ok result →
    ∃ chunk, Appends Number.maxSafeInteger (element.write item) chunk ∧
      ∀ data : Bytes, data.length ≤ Number.maxSafeInteger → Reads data (element.read data) chunk item

theorem arraySerde_lawful (faithful : element.Faithful) : Lawful (element.arraySerde unlimitedSerdeLimits) := by
  intro value before result accepted
  obtain ⟨_, valid, counted⟩ := bind_ok.mp accepted
  obtain ⟨size, encoded, rest⟩ := bind_ok.mp counted
  obtain ⟨output, _, looped⟩ := bind_ok.mp rest
  obtain ⟨safe, -⟩ := encodeSize_ok.mp encoded
  have each : ∀ item, ∃ chunk, item ∈ value → Appends Number.maxSafeInteger (element.write item) chunk ∧
      ∀ data : Bytes, data.length ≤ Number.maxSafeInteger → Reads data (element.read data) chunk item := by
    intro item
    by_cases mem : item ∈ value
    · obtain ⟨before', after, written⟩ := foldlM_ok looped item mem
      obtain ⟨chunk, framed⟩ := faithful item before' after written
      exact ⟨chunk, fun _ => framed⟩
    · exact ⟨[], fun absurd => (mem absurd).elim⟩
  choose chunk framed using each
  have writes : Appends Number.maxSafeInteger ((element.arraySerde unlimitedSerdeLimits).serialize value)
      (toBytes sizeBytes value.length ++ value.flatMap chunk) := by
    have loop := appends_foldlM (encodeSize_appends safe) (fun item mem => (framed item mem).1)
    intro before result
    rw [← loop before result]
    simp only [arraySerde, valid, bind_assoc]
    rfl
  refine ⟨_, writes, ?_⟩
  have room : (toBytes sizeBytes value.length ++ value.flatMap chunk).length ≤ Number.maxSafeInteger := by
    have fits := ((writes before result).mp accepted).1
    omega
  generalize whole : toBytes sizeBytes value.length ++ value.flatMap chunk = data at room ⊢
  have count : Reads data (SerdeReader.readSize data unlimitedSerdeLimits.maxContainerElements "array count")
      (toBytes sizeBytes value.length) value.length := readSize_reads room safe (by decide) "array count"
  have items : Reads data (readTimes (element.read data) value.length) (value.flatMap chunk) value :=
    reads_times (fun item mem => (framed item mem).2 data room)
  have both := reads_bind count items
  rw [whole] at both
  obtain ⟨parsed, first, second⟩ := bind_ok.mp (reads_whole both)
  apply bind_ok.mpr
  exact ⟨0, start_ok room (by decide), bind_ok.mpr ⟨parsed, first, bind_ok.mpr ⟨_, second, rfl⟩⟩⟩

end ElementFraming

section Elements
variable {elementSerde : Serde T} {elementSize : Nat} {item : T} {before result : Bytes}

theorem fixedSizeElement_restores (accepted : (fixedSizeElement elementSerde elementSize).write item before = .ok result) :
    ∃ encoded, elementSerde.serialize item [] = .ok encoded ∧
      (encoded.length ≤ Number.maxSafeInteger →
        Appends Number.maxSafeInteger ((fixedSizeElement elementSerde elementSize).write item) encoded) ∧
      ∀ data : Bytes, data.length ≤ Number.maxSafeInteger →
        Restores data ((fixedSizeElement elementSerde elementSize).read data) encoded item
          (elementSerde.deserialize encoded = .ok item) := by
  obtain ⟨encoded, serialized, rest⟩ := bind_ok.mp accepted
  have width : encoded.length = elementSize := by
    by_contra other
    rw [if_pos other] at rest
    cases rest
  refine ⟨encoded, serialized, ?_, ?_⟩
  · intro fits before result
    rw [← appendBytes_appends fits before result]
    simp only [fixedSizeElement, serialized, bind, Except.bind, width, ne_eq, not_true_eq_false, if_false]
  · intro data safe
    have bytes : Reads data (SerdeReader.read data encoded.length "array element") encoded encoded :=
      read_reads safe "array element"
    rw [width] at bytes
    exact restores_map bytes

theorem framedElement_restores (accepted : (framedElement elementSerde).write item before = .ok result) :
    ∃ encoded, elementSerde.serialize item [] = .ok encoded ∧
      (encoded.length ≤ Number.maxSafeInteger → Appends Number.maxSafeInteger ((framedElement elementSerde).write item)
        (toBytes sizeBytes encoded.length ++ encoded)) ∧
      ∀ data : Bytes, data.length ≤ Number.maxSafeInteger →
        Restores data ((framedElement elementSerde).read data) (toBytes sizeBytes encoded.length ++ encoded) item
          (elementSerde.deserialize encoded = .ok item) := by
  obtain ⟨encoded, serialized, rest⟩ := bind_ok.mp accepted
  refine ⟨encoded, serialized, ?_, ?_⟩
  · intro fits before result
    rw [← appendFramed_appends fits before result]
    simp only [framedElement, serialized]
    rfl
  · intro data safe
    exact readPart_restores safe "array element"

theorem fixedSizeElement_faithful (lawful : Lawful elementSerde) : (fixedSizeElement elementSerde elementSize).Faithful := by
  intro item before result accepted
  obtain ⟨encoded, serialized, writes, restores⟩ := fixedSizeElement_restores accepted
  obtain ⟨fits, readBack, -⟩ := lawful.accepted serialized
  exact ⟨encoded, writes fits, fun data safe => (restores data safe).reads readBack⟩

theorem framedElement_faithful (lawful : Lawful elementSerde) : (framedElement elementSerde).Faithful := by
  intro item before result accepted
  obtain ⟨encoded, serialized, writes, restores⟩ := framedElement_restores accepted
  obtain ⟨fits, readBack, -⟩ := lawful.accepted serialized
  exact ⟨_, writes fits, fun data safe => (restores data safe).reads readBack⟩

end Elements

theorem newFixedSizeArraySerde_lawful {elementSerde : Serde T} {elementSize : Nat} {s : Serde (List T)}
    (lawful : Lawful elementSerde) (made : newFixedSizeArraySerde elementSerde elementSize unlimitedSerdeLimits = .ok s) :
    Lawful s := by
  unfold newFixedSizeArraySerde at made
  split at made
  · cases made
  · cases made
    exact ElementFraming.arraySerde_lawful (fixedSizeElement_faithful lawful)

theorem newArraySerde_lawful {elementSerde : Serde T} {s : Serde (List T)} (lawful : Lawful elementSerde)
    (made : newArraySerde elementSerde unlimitedSerdeLimits = .ok s) : Lawful s := by
  cases made
  exact ElementFraming.arraySerde_lawful (framedElement_faithful lawful)

namespace JsMap
variable [MapKey K] {key : K} {value : V}

theorem put_new {entries : List (K × V)} (fresh : ∀ entry ∈ entries, MapKey.same entry.1 key = false) :
    put key value entries = entries ++ [(key, value)] := by
  induction entries with
  | nil => rfl
  | cons entry rest ih =>
    have other := fresh entry List.mem_cons_self
    have later := ih (fun entry' mem => fresh entry' (List.mem_cons_of_mem entry mem))
    simp [put, other, later]

theorem fill_distinct {entries : List (K × V)} {map : JsMap K V} (offset : Nat)
    (distinct : (map.entries ++ entries).Pairwise fun a b => MapKey.same a.1 b.1 = false) :
    fill offset (entries.map Prod.fst) (entries.map Prod.snd) map = .ok ⟨map.entries ++ entries, distinct⟩ := by
  induction entries generalizing map with
  | nil =>
    simp only [List.map_nil, fill, List.append_nil]
  | cons entry rest ih =>
    have fresh : ∀ entry' ∈ map.entries, MapKey.same entry'.1 entry.1 = false := by
      intro entry' mem
      exact (List.pairwise_append.mp distinct).2.2 entry' mem entry List.mem_cons_self
    have entered : (map.set entry.1 entry.2).entries = map.entries ++ [entry] := put_new fresh
    have shape : (map.set entry.1 entry.2).entries ++ rest = map.entries ++ entry :: rest := by
      rw [entered, List.append_assoc, List.singleton_append]
    have after : ((map.set entry.1 entry.2).entries ++ rest).Pairwise fun a b => MapKey.same a.1 b.1 = false := by
      rw [shape]
      exact distinct
    rw [List.map_cons, List.map_cons, fill, ih after]
    congr 2

theorem put_keys_sublist {entries : List (K × V)} :
    ((put key value entries).map Prod.fst).Sublist (entries.map Prod.fst ++ [key]) := by
  induction entries with
  | nil => exact List.Sublist.refl _
  | cons entry rest ih =>
    unfold put
    split
    · exact List.sublist_append_left _ _
    · exact List.Sublist.cons_cons entry.1 ih

theorem fill_keys {keys : List K} {values : List V} {map filled : JsMap K V} {offset : Nat}
    (looped : fill offset keys values map = .ok filled) :
    (filled.entries.map Prod.fst).Sublist (map.entries.map Prod.fst ++ keys) := by
  induction keys generalizing values map with
  | nil =>
    cases looped
    exact List.sublist_append_left _ _
  | cons key keys ih =>
    cases values with
    | nil => cases looped
    | cons value values =>
      have later := ih looped
      have head : ((map.set key value).entries.map Prod.fst ++ keys).Sublist (map.entries.map Prod.fst ++ [key] ++ keys) :=
        put_keys_sublist.append_right keys
      rw [List.append_assoc] at head
      exact later.trans head

theorem fill_inverse {keys : List K} {values : List V} {filled : JsMap K V} {offset : Nat}
    (paired : keys.length = values.length) (unmerged : keys.length = filled.entries.length)
    (looped : fill offset keys values empty = .ok filled) :
    keys = filled.entries.map Prod.fst ∧ values = filled.entries.map Prod.snd := by
  have among : (filled.entries.map Prod.fst).Sublist keys := fill_keys looped
  have same : filled.entries.map Prod.fst = keys := among.eq_of_length (by rw [List.length_map, unmerged])
  have firsts : (keys.zip values).map Prod.fst = keys := List.map_fst_zip (Nat.le_of_eq paired)
  have seconds : (keys.zip values).map Prod.snd = values := List.map_snd_zip (Nat.le_of_eq paired.symm)
  have apart : (keys.zip values).Pairwise fun a b => MapKey.same a.1 b.1 = false := by
    have keyed : (filled.entries.map Prod.fst).Pairwise fun a b => MapKey.same a b = false :=
      List.pairwise_map.mpr filled.distinct
    rw [same, ← firsts] at keyed
    exact List.pairwise_map.mp keyed
  have again : fill offset ((keys.zip values).map Prod.fst) ((keys.zip values).map Prod.snd) empty =
      .ok ⟨keys.zip values, apart⟩ := fill_distinct offset apart
  rw [firsts, seconds, looped] at again
  have entries : filled.entries = keys.zip values := congrArg JsMap.entries (Except.ok.inj again)
  rw [entries, firsts, seconds]
  exact ⟨rfl, rfl⟩

end JsMap

theorem newMapSerde_lawful [MapKey K] {keyArraySerde : Serde (List K)} {valueArraySerde : Serde (List V)}
    {s : Serde (JsMap K V)} (keysLawful : Lawful keyArraySerde) (valuesLawful : Lawful valueArraySerde)
    (made : newMapSerde keyArraySerde valueArraySerde Number.maxSafeInteger = .ok s) : Lawful s := by
  cases made
  intro value before result accepted
  obtain ⟨out, fits, writes, reads⟩ := appendParts_lawful keysLawful valuesLawful accepted
  have filled : JsMap.fill out.length (value.entries.map Prod.fst) (value.entries.map Prod.snd) JsMap.empty = .ok value :=
    JsMap.fill_distinct out.length value.distinct
  refine ⟨out, writes, ?_⟩
  apply bind_ok.mpr
  refine ⟨0, start_ok fits (by decide), bind_ok.mpr ⟨_, reads "map keys" "map values", ?_⟩⟩
  dsimp only
  rw [if_neg (by simp)]
  exact filled

end Serdes
