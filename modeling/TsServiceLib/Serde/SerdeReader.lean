import TsServiceLib.Library.BigEndian
import TsServiceLib.Library.Framing
import TsServiceLib.Library.Number

/-!
The framing of the serdes. Sizes take eight bytes and must be safe integers, a
`Uint8Array` is a list of bytes no longer than the largest of them, and a reader
is the offset it has reached in its data.
-/
namespace Serdes
open Numbers Framing BigEndian

abbrev Bytes := List UInt8

inductive Failure where
  | typeError (message : String)
  | rangeError (message : String)
  | serdeError (message : String) (offset : Nat)
  deriving DecidableEq

structure SerdeLimits where
  maxStringBytes : Nat
  maxBytes : Nat
  maxContainerElements : Nat
  maxTotalBytes : Nat

def unlimitedSerdeLimits : SerdeLimits where
  maxStringBytes := Number.maxSafeInteger
  maxBytes := Number.maxSafeInteger
  maxContainerElements := Number.maxSafeInteger
  maxTotalBytes := Number.maxSafeInteger

/-- The bytes of a value are put after those there are. -/
structure Serde (T : Type) where
  serialize : T → Bytes → Except Failure Bytes
  deserialize : Bytes → Except Failure T

def sizeBytes : Nat := 8

/-- An array of the joint length is allocated, which fails beyond the safe
    integers. -/
def appendBytes (before value : Bytes) : Except Failure Bytes :=
  if before.length = 0 then .ok value
  else if before.length + value.length ≤ Number.maxSafeInteger then .ok (before ++ value)
  else .error (.rangeError ("Invalid typed array length: " ++ toString (before.length + value.length)))

def encodeSize (size : Nat) : Except Failure Bytes :=
  if size ≤ Number.maxSafeInteger then .ok (toBytes sizeBytes size)
  else .error (.serdeError "size must be a non-negative safe integer" 0)

def validateLimit (value : Nat) (name : String) : Except Failure Unit :=
  if value ≤ Number.maxSafeInteger then .ok ()
  else .error (.rangeError (name ++ " must be a non-negative safe integer"))

def validateLimits (limits : SerdeLimits) : Except Failure Unit := do
  validateLimit limits.maxStringBytes "maxStringBytes"
  validateLimit limits.maxBytes "maxBytes"
  validateLimit limits.maxContainerElements "maxContainerElements"
  validateLimit limits.maxTotalBytes "maxTotalBytes"

namespace SerdeReader

/-- The constructor: the offset of a fresh reader. -/
def start (data : Bytes) (maxTotalBytes : Nat) : Except Failure Nat := do
  validateLimit maxTotalBytes "maxTotalBytes"
  if data.length > maxTotalBytes then throw (.serdeError "serde input exceeds configured limit" 0)
  pure 0

def read (data : Bytes) (size : Nat) (what : String) (offset : Nat) : Except Failure (Bytes × Nat) :=
  if ¬size ≤ Number.maxSafeInteger then .error (.serdeError (what ++ " has invalid size") offset)
  else if ¬offset + size ≤ Number.maxSafeInteger then .error (.serdeError "serde size overflow" offset)
  else if offset + size > data.length then
    .error (.serdeError ("serde underflow while reading " ++ what) offset)
  else .ok ((data.drop offset).take size, offset + size)

def readSize (data : Bytes) (maximum : Nat) (what : String) (offset : Nat) : Except Failure (Nat × Nat) := do
  validateLimit maximum what
  let (encoded, next) ← read data sizeBytes what offset
  if ofBytes encoded > Number.maxSafeInteger then
    throw (.serdeError (what ++ " does not fit a safe integer") offset)
  if ofBytes encoded > maximum then throw (.serdeError (what ++ " exceeds configured limit") offset)
  pure (ofBytes encoded, next)

end SerdeReader

section Laws
variable {data bytes value out : Bytes} {size maximum : Nat}

theorem appendBytes_appends (fits : value.length ≤ Number.maxSafeInteger) :
    Appends Number.maxSafeInteger (fun before => appendBytes before value) value := by
  intro before result
  unfold appendBytes
  dsimp only
  split
  · rename_i empty
    rw [List.eq_nil_of_length_eq_zero empty]
    simp [fits, eq_comm]
  · split
    · rename_i room
      simp [room, eq_comm]
    · rename_i full
      simp [full]

theorem encodeSize_ok : encodeSize size = .ok out ↔ size ≤ Number.maxSafeInteger ∧ out = toBytes sizeBytes size := by
  unfold encodeSize
  split
  · rename_i safe
    simp [safe, eq_comm]
  · rename_i tooLarge
    simp [tooLarge]

theorem appendSized_appends {payload before result : Bytes}
    (accepted : (do
      let size ← encodeSize payload.length
      let framed ← appendBytes size payload
      appendBytes before framed) = .ok result) :
    payload.length ≤ Number.maxSafeInteger ∧
    (toBytes sizeBytes payload.length ++ payload).length ≤ Number.maxSafeInteger ∧
    Appends Number.maxSafeInteger (fun before => do
      let size ← encodeSize payload.length
      let framed ← appendBytes size payload
      appendBytes before framed) (toBytes sizeBytes payload.length ++ payload) := by
  obtain ⟨size, encoded, rest⟩ := bind_ok.mp accepted
  obtain ⟨framed, joined, appended⟩ := bind_ok.mp rest
  obtain ⟨safe, shape⟩ := encodeSize_ok.mp encoded
  obtain ⟨fits, whole⟩ := (appendBytes_appends safe size framed).mp joined
  have length : framed.length = size.length + payload.length := by rw [whole, List.length_append]
  have bound : framed.length ≤ Number.maxSafeInteger := by omega
  rw [← shape, ← whole]
  refine ⟨safe, bound, ?_⟩
  intro before result
  rw [← appendBytes_appends bound before result, encoded]
  change (appendBytes size payload >>= fun framed => appendBytes before framed) = _ ↔ _
  rw [joined]
  rfl


theorem encodeSize_appends (safe : size ≤ Number.maxSafeInteger) :
    Appends Number.maxSafeInteger (fun before => encodeSize size >>= appendBytes before) (toBytes sizeBytes size) := by
  have encoded : encodeSize size = .ok (toBytes sizeBytes size) := encodeSize_ok.mpr ⟨safe, rfl⟩
  rw [encoded]
  apply appendBytes_appends
  rw [length_toBytes]
  decide

theorem start_ok (fits : data.length ≤ maximum) (safe : maximum ≤ Number.maxSafeInteger) :
    SerdeReader.start data maximum = .ok 0 := by
  simp [SerdeReader.start, validateLimit, safe, fits, bind, Except.bind, pure, Except.pure]

theorem read_reads (safe : data.length ≤ Number.maxSafeInteger) (what : String) :
    Reads data (SerdeReader.read data bytes.length what) bytes bytes := by
  intro before after shape
  have total : data.length = before.length + bytes.length + after.length := by
    rw [shape]
    simp [Nat.add_assoc]
  unfold SerdeReader.read
  rw [if_neg (by omega), if_neg (by omega), if_neg (by omega), shape]
  simp

theorem readSize_reads (safe : data.length ≤ Number.maxSafeInteger) (within : size ≤ maximum)
    (limit : maximum ≤ Number.maxSafeInteger) (what : String) :
    Reads data (SerdeReader.readSize data maximum what) (toBytes sizeBytes size) size := by
  intro before after shape
  have small : size < 256 ^ sizeBytes := by
    have bound : Number.maxSafeInteger < 256 ^ sizeBytes := by decide
    omega
  have readBack : ofBytes (toBytes sizeBytes size) = size := ofBytes_toBytes_of_lt small
  have eight := read_reads safe what before after shape
  rw [length_toBytes] at eight ⊢
  unfold SerdeReader.readSize validateLimit
  rw [if_pos limit]
  apply bind_ok.mpr
  refine ⟨(), rfl, bind_ok.mpr ⟨_, eight, ?_⟩⟩
  simp only [readBack]
  rw [if_neg (by omega), if_neg (by omega)]
  rfl

theorem framed_reads {part : Bytes} (safe : data.length ≤ Number.maxSafeInteger) (limit : maximum ≤ Number.maxSafeInteger)
    (within : part.length ≤ maximum ∨ maximum = data.length) (sizeOf partOf : String) :
    Reads data (fun offset => SerdeReader.readSize data maximum sizeOf offset >>= fun parsed =>
      SerdeReader.read data parsed.1 partOf parsed.2) (toBytes sizeBytes part.length ++ part) part := by
  intro before after shape
  have room : part.length ≤ maximum := by
    rcases within with small | all
    · exact small
    · rw [all, shape]
      simp only [List.length_append]
      omega
  have sized : Reads data (SerdeReader.readSize data maximum sizeOf) (toBytes sizeBytes part.length) part.length :=
    readSize_reads safe room limit sizeOf
  have contents : Reads data (SerdeReader.read data part.length partOf) part part := read_reads safe partOf
  have sizeFirst := sized before (part ++ after) (by rw [shape]; simp)
  have partNext := contents (before ++ toBytes sizeBytes part.length) after (by rw [shape]; simp)
  rw [List.length_append] at partNext
  apply bind_ok.mpr
  refine ⟨_, sizeFirst, ?_⟩
  rw [partNext, List.length_append, Nat.add_assoc]

end Laws

end Serdes
