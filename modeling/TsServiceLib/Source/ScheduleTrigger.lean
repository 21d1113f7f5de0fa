import TsServiceLib.Library.Framing
import TsServiceLib.Library.Number
import TsServiceLib.Library.Separated
import TsServiceLib.Library.Unicode
import Std.Data.String.ToInt

/-!
The identity of a schedule trigger: the digest of a text that names the endpoint,
the schedule and the time. A schedule id may be any text, with newlines in it; the
endpoint before it is written in digits and the time behind it has no newline, so
the three can be told from the text. What `Date.parse` reads, the digest and the two
functions that turn text into bytes and bytes into text are parameters: the last three
come from a package of hashes.
-/
namespace ScheduleTriggers
open Numbers Unicode

inductive ScheduleBackend where
  | Local
  | Temporal
  deriving DecidableEq

structure ScheduleTrigger where
  triggerId : List UInt16
  scheduleId : List UInt16
  scheduledAt : List UInt16
  firedAt : List UInt16
  backend : ScheduleBackend
  deriving DecidableEq

inductive Thrown where
  | rangeError (message : String)
  | typeError (message : String)
  deriving DecidableEq

def newline : UInt16 := 0x0A

/-- `Number.isFinite` -/
def isFinite : Number → Bool
  | .finite _ => true
  | _ => false

/-- `String(value)` of a safe integer. -/
def integerText (value : Number) : List UInt16 := utf16 (toString value.toBigint).toList

def identityPrefix : List UInt16 := utf16 "servicegen:schedule-trigger:v1\n".toList

/-- The text that is hashed. -/
def identity (endpointId : Number) (scheduleId scheduledAt : List UInt16) : List UInt16 :=
  identityPrefix ++ (integerText endpointId ++ newline :: (scheduleId ++ newline :: scheduledAt))

section Make
variable (dateParse : List UInt16 → Number) (sha256 : List UInt8 → List UInt8)
  (utf8ToBytes : List UInt16 → List UInt8) (bytesToHex : List UInt8 → List UInt16)

/-- The input of the digest. -/
def hashed (endpointId : Number) (scheduleId scheduledAt : List UInt16) : List UInt8 :=
  utf8ToBytes (identity endpointId scheduleId scheduledAt)

def requireUtcTimestamp (value : List UInt16) (field : String) : Except Thrown Unit :=
  if value.getLast? ≠ some 0x5A ∨ isFinite (dateParse value) = false then
    .error (.typeError (field ++ " must be an RFC3339 UTC timestamp"))
  else .ok ()

def makeScheduleTrigger (endpointId : Number) (scheduleId scheduledAt firedAt : List UInt16)
    (backend : ScheduleBackend) : Except Thrown ScheduleTrigger := do
  if endpointId.isSafeInteger = false ∨ endpointId.lt (.finite 1) = true then
    throw (.rangeError "endpointId must be a positive safe integer")
  if scheduleId = [] then throw (.typeError "scheduleId must not be empty")
  requireUtcTimestamp dateParse scheduledAt "scheduledAt"
  requireUtcTimestamp dateParse firedAt "firedAt"
  return {
    triggerId := bytesToHex (sha256 (hashed utf8ToBytes endpointId scheduleId scheduledAt))
    scheduleId
    scheduledAt
    firedAt
    backend }

end Make

/-- Characters, and no newline among them: what every RFC 3339 time is. -/
structure OneLine (text : List UInt16) : Prop where
  formed : wellFormed text = true
  single : newline ∉ text

section Parts
variable {a b : List UInt16} {endpointId : Number}

theorem utf16_injective {first second : List Char} (same : utf16 first = utf16 second) : first = second := by
  rw [← scalars_utf16 first, ← scalars_utf16 second, same]

theorem wellFormed_append (formed : wellFormed a = true) (formed' : wellFormed b = true) :
    wellFormed (a ++ b) = true := by
  have whole : utf16 (scalars a ++ scalars b) = a ++ b := by
    rw [utf16, List.flatMap_append]
    exact congrArg₂ (· ++ ·) (utf16_scalars formed) (utf16_scalars formed')
  rw [← whole]
  exact wellFormed_utf16 _

theorem integerText_injective {other : Number} (safe : endpointId.isSafeInteger = true)
    (safe' : other.isSafeInteger = true) (same : integerText endpointId = integerText other) : endpointId = other := by
  have digits := Int.repr_inj.mp (String.toList_inj.mp (utf16_injective same))
  cases endpointId with
  | finite q =>
    cases other with
    | finite q' =>
      simp only [Number.isSafeInteger, Bool.and_eq_true, decide_eq_true_eq] at safe safe'
      have whole : q = q' := Rat.ext digits (safe.1.trans safe'.1.symm)
      rw [whole]
    | _ => simp [Number.isSafeInteger] at safe'
  | _ => simp [Number.isSafeInteger] at safe

theorem integerText_single (positive : 0 ≤ endpointId.toBigint) : newline ∉ integerText endpointId := by
  obtain ⟨n, value⟩ := Int.eq_ofNat_of_zero_le positive
  intro mem
  rw [integerText, value, utf16] at mem
  obtain ⟨c, among, inside⟩ := List.mem_flatMap.mp mem
  have text : (toString (n : Int)).toList = Nat.toDigits 10 n := String.toList_ofList
  rw [text] at among
  have digit := Nat.isDigit_of_mem_toDigits (by decide) (by decide) among
  simp only [Char.isDigit, Bool.and_eq_true, decide_eq_true_eq] at digit
  have low : 48 ≤ c.toNat := digit.1
  have high : c.toNat ≤ 57 := digit.2
  rw [units, if_pos (by omega), List.mem_singleton] at inside
  have value := congrArg UInt16.toNat inside
  rw [UInt16.toNat_ofNat_of_lt' (by show _ < 65536; omega)] at value
  have ten : newline.toNat = 10 := rfl
  omega

end Parts

section Identity
variable {endpointId endpointId' : Number} {scheduleId scheduleId' scheduledAt scheduledAt' : List UInt16}

theorem wellFormed_newline {text : List UInt16} (formed : wellFormed text = true) : wellFormed (newline :: text) = true := by
  rw [wellFormed_plain (by decide)]
  exact formed

theorem identity_formed (formed : wellFormed scheduleId = true) (time : OneLine scheduledAt) :
    wellFormed (identity endpointId scheduleId scheduledAt) = true := by
  have tail := wellFormed_append formed (wellFormed_newline time.formed)
  have fields := wellFormed_append (wellFormed_utf16 (toString endpointId.toBigint).toList) (wellFormed_newline tail)
  exact wellFormed_append (wellFormed_utf16 _) fields

/-- The digits end at the first newline, and the time begins behind the last. -/
theorem identity_injective (safe : endpointId.isSafeInteger = true) (safe' : endpointId'.isSafeInteger = true)
    (positive : 0 ≤ endpointId.toBigint) (positive' : 0 ≤ endpointId'.toBigint) (time : OneLine scheduledAt)
    (time' : OneLine scheduledAt')
    (same : identity endpointId scheduleId scheduledAt = identity endpointId' scheduleId' scheduledAt') :
    endpointId = endpointId' ∧ scheduleId = scheduleId' ∧ scheduledAt = scheduledAt' := by
  have fields := List.append_cancel_left same
  obtain ⟨digits, later⟩ := Separated.first_cut (integerText_single positive) (integerText_single positive') fields
  obtain ⟨schedule, moment⟩ := Separated.last_cut time.single time'.single later
  exact ⟨integerText_injective safe safe' digits, schedule, moment⟩

end Identity

section Made
variable {dateParse : List UInt16 → Number} {sha256 : List UInt8 → List UInt8} {utf8ToBytes : List UInt16 → List UInt8}
  {bytesToHex : List UInt8 → List UInt16} {endpointId endpointId' : Number}
  {scheduleId scheduleId' scheduledAt scheduledAt' firedAt firedAt' : List UInt16} {backend backend' : ScheduleBackend}
  {trigger trigger' : ScheduleTrigger}

theorem make_ok
    (made : makeScheduleTrigger dateParse sha256 utf8ToBytes bytesToHex endpointId scheduleId scheduledAt firedAt backend =
      .ok trigger) :
    endpointId.isSafeInteger = true ∧ endpointId.lt (.finite 1) = false ∧
      trigger.triggerId = bytesToHex (sha256 (hashed utf8ToBytes endpointId scheduleId scheduledAt)) := by
  unfold makeScheduleTrigger at made
  by_cases refused : endpointId.isSafeInteger = false ∨ endpointId.lt (.finite 1) = true
  · rw [if_pos refused] at made
    cases made
  · rw [if_neg refused] at made
    by_cases empty : scheduleId = []
    · rw [if_pos empty] at made
      cases made
    · rw [if_neg empty] at made
      obtain ⟨-, -, rest⟩ := Framing.bind_ok.mp made
      obtain ⟨-, -, result⟩ := Framing.bind_ok.mp rest
      cases result
      simp only [not_or, Bool.not_eq_false, Bool.not_eq_true] at refused
      exact ⟨refused.1, refused.2, rfl⟩

theorem toBigint_positive (safe : endpointId.isSafeInteger = true) (least : endpointId.lt (.finite 1) = false) :
    0 ≤ endpointId.toBigint := by
  cases endpointId with
  | finite q =>
    simp only [Number.lt, decide_eq_false_iff_not, not_lt] at least
    exact Rat.num_nonneg.mpr (zero_le_one.trans least)
  | _ => simp [Number.isSafeInteger] at safe

/-- No two well-formed texts have the same bytes. -/
def TextKept (utf8ToBytes : List UInt16 → List UInt8) : Prop :=
  ∀ a b, wellFormed a = true → wellFormed b = true → utf8ToBytes a = utf8ToBytes b → a = b

/- Whatever the schedule ids are, newlines and digits in them included: where the digest
   does not collide on what is hashed, two triggers have one id only if they are of the same
   endpoint, schedule and time. The package's two functions lose nothing, of well-formed
   text the one and of bytes the other. -/
theorem trigger_identity (kept : TextKept utf8ToBytes) (hex : Function.Injective bytesToHex)
    (made : makeScheduleTrigger dateParse sha256 utf8ToBytes bytesToHex endpointId scheduleId scheduledAt firedAt backend =
      .ok trigger)
    (made' : makeScheduleTrigger dateParse sha256 utf8ToBytes bytesToHex endpointId' scheduleId' scheduledAt' firedAt'
      backend' = .ok trigger')
    (formed : wellFormed scheduleId = true) (formed' : wellFormed scheduleId' = true)
    (time : OneLine scheduledAt) (time' : OneLine scheduledAt')
    (injective : sha256 (hashed utf8ToBytes endpointId scheduleId scheduledAt) =
        sha256 (hashed utf8ToBytes endpointId' scheduleId' scheduledAt') →
      hashed utf8ToBytes endpointId scheduleId scheduledAt = hashed utf8ToBytes endpointId' scheduleId' scheduledAt') :
    trigger.triggerId = trigger'.triggerId ↔
      endpointId = endpointId' ∧ scheduleId = scheduleId' ∧ scheduledAt = scheduledAt' := by
  obtain ⟨safe, least, id⟩ := make_ok made
  obtain ⟨safe', least', id'⟩ := make_ok made'
  rw [id, id']
  constructor
  · intro same
    have bytes := injective (hex same)
    have text := kept _ _ (identity_formed formed time) (identity_formed formed' time') bytes
    exact identity_injective safe safe' (toBigint_positive safe least) (toBigint_positive safe' least') time time' text
  · intro same
    obtain ⟨endpoint, schedule, moment⟩ := same
    rw [endpoint, schedule, moment]

end Made

section Example

/-- As `TextEncoder` encodes: the replacement character for a lone surrogate. -/
def encoded (text : List UInt16) : List UInt8 := utf8 (scalars text)

theorem encoded_kept : TextKept encoded := by
  intro a b formed formed' same
  have decoded := congrArg utf8Decode same
  rw [encoded, encoded, utf8Decode_utf8, utf8Decode_utf8] at decoded
  injection decoded with characters
  rw [← utf16_scalars formed, ← utf16_scalars formed', characters]

def hexDigit (n : Nat) : Char := if n < 10 then Char.ofNat (48 + n) else Char.ofNat (87 + n)

theorem hexDigit_injective {m n : Nat} (small : m < 16) (small' : n < 16) (same : hexDigit m = hexDigit n) : m = n := by
  have all : ∀ m < 16, ∀ n < 16, hexDigit m = hexDigit n → m = n := by decide
  exact all m small n small' same

/-- Two lower-case digits for a byte. -/
def hexText (bytes : List UInt8) : List UInt16 :=
  utf16 (bytes.flatMap fun byte => [hexDigit (byte.toNat / 16), hexDigit (byte.toNat % 16)])

theorem hexText_injective : Function.Injective hexText := by
  intro bytes bytes' same
  have digits := utf16_injective same
  clear same
  induction bytes generalizing bytes' with
  | nil =>
    cases bytes' with
    | nil => rfl
    | cons byte rest => simp at digits
  | cons byte rest ih =>
    cases bytes' with
    | nil => simp at digits
    | cons byte' rest' =>
      simp only [List.flatMap_cons, List.cons_append, List.nil_append, List.cons.injEq] at digits
      obtain ⟨high, low, later⟩ := digits
      have bound := byte.toNat_lt
      have bound' := byte'.toNat_lt
      have upper := hexDigit_injective (by omega) (by omega) high
      have lower := hexDigit_injective (by omega) (by omega) low
      have value : byte = byte' := UInt8.toNat_inj.mp (by omega)
      rw [value, ih later]

example : hexText [0x29, 0xB2, 0x0C] = utf16 "29b20c".toList := by decide

/-- 2026-08-24T12:30:00.123456Z -/
def noon : List UInt16 := utf16 "2026-08-24T12:30:00.123456Z".toList

/-- What `Date.parse` makes of that time. -/
def noonOnly (text : List UInt16) : Number := if text = noon then .finite 1787574600123 else .nan

/-- The digests of the texts for the schedule `hourly` of endpoint 17 and the schedule
    with a newline in its id of endpoint 1. -/
def digests (bytes : List UInt8) : List UInt8 :=
  if bytes = hashed encoded (.finite 17) (utf16 "hourly".toList) noon then
    [41, 178, 114, 227, 238, 238, 12, 103, 254, 91, 90, 18, 31, 143, 57, 212, 181, 217, 98, 93, 101, 110, 138, 14, 199,
      242, 176, 241, 97, 94, 41, 20]
  else if bytes = hashed encoded (.finite 1) (utf16 "7\nhourly".toList) noon then
    [36, 16, 112, 71, 131, 152, 167, 138, 192, 46, 123, 184, 64, 54, 242, 110, 171, 160, 110, 50, 42, 167, 197, 252, 105,
      127, 131, 195, 7, 71, 153, 94]
  else []

/-- The digits of endpoint 17, and those of endpoint 1 with a newline before the 7. -/
theorem trigger_identity_hostile : ∃ trigger trigger',
    makeScheduleTrigger noonOnly digests encoded hexText (.finite 17) (utf16 "hourly".toList) noon noon .Local = .ok trigger ∧
    makeScheduleTrigger noonOnly digests encoded hexText (.finite 1) (utf16 "7\nhourly".toList) noon noon .Local = .ok trigger' ∧
    trigger.triggerId ≠ trigger'.triggerId := by
  have time : OneLine noon := ⟨by decide +kernel, by decide +kernel⟩
  obtain ⟨trigger, made⟩ : ∃ trigger, makeScheduleTrigger noonOnly digests encoded hexText (.finite 17)
      (utf16 "hourly".toList) noon noon .Local = .ok trigger := ⟨_, rfl⟩
  obtain ⟨trigger', made'⟩ : ∃ trigger, makeScheduleTrigger noonOnly digests encoded hexText (.finite 1)
      (utf16 "7\nhourly".toList) noon noon .Local = .ok trigger := ⟨_, rfl⟩
  refine ⟨trigger, trigger', made, made', ?_⟩
  intro same
  obtain ⟨endpoint, -, -⟩ := (trigger_identity encoded_kept hexText_injective made made' (by decide +kernel)
    (by decide +kernel) time time (by decide +kernel)).mp same
  injection endpoint with endpoint
  exact absurd endpoint (by decide)

end Example

end ScheduleTriggers
