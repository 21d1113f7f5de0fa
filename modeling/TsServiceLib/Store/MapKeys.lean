import TsServiceLib.Library.Number
import TsServiceLib.Library.Unicode

/-!
The keys of a JavaScript `Map`, which are told apart by SameValueZero, and the
hash by which the rotating map spreads them. Objects and functions are their
references; the hash of such a key is that of the number it was given.
-/
namespace RotatingMaps
open Numbers Unicode

/-- The numbers of the language, with the negative zero. -/
inductive Double where
  | negativeZero
  | number (value : Number)
  deriving DecidableEq

inductive Key where
  | number (value : Double)
  | string (units : List UInt16)
  | bigint (value : Int)
  | boolean (value : Bool)
  | undefined
  | null
  | object (reference : Nat)
  | function (reference : Nat)
  deriving DecidableEq

namespace Double

def sameValueZero : Double → Double → Bool
  | .negativeZero, .negativeZero => true
  | .negativeZero, .number y => decide (y = .finite 0)
  | .number x, .negativeZero => decide (x = .finite 0)
  | .number x, .number y => decide (x = y)

def canonical : Double → Double
  | .negativeZero => .number (.finite 0)
  | .number x => .number x

end Double

namespace Key

def sameValueZero : Key → Key → Bool
  | .number x, .number y => x.sameValueZero y
  | a, b => decide (a = b)

/-- What a map stores for the key. -/
def canonical : Key → Key
  | .number x => .number x.canonical
  | key => key

def typeOf : Key → String
  | .number _ => "number"
  | .string _ => "string"
  | .bigint _ => "bigint"
  | .boolean _ => "boolean"
  | .undefined => "undefined"
  | .null => "object"
  | .object _ => "object"
  | .function _ => "function"

/-- `String(key)` of a primitive. How a finite number other than zero is written
    is left to the platform. -/
def text (decimal : ℚ → String) : Key → Option (List UInt16)
  | .number .negativeZero => some (utf16 "0".toList)
  | .number (.number .nan) => some (utf16 "NaN".toList)
  | .number (.number .posInfinity) => some (utf16 "Infinity".toList)
  | .number (.number .negInfinity) => some (utf16 "-Infinity".toList)
  | .number (.number (.finite q)) => some (utf16 (if q = 0 then "0" else decimal q).toList)
  | .string units => some units
  | .bigint value => some (utf16 (toString value).toList)
  | .boolean value => some (utf16 (if value then "true" else "false").toList)
  | .undefined => some (utf16 "undefined".toList)
  | .null => some (utf16 "null".toList)
  | .object _ => none
  | .function _ => none

@[simp] theorem canonical_canonical (key : Key) : key.canonical.canonical = key.canonical := by
  match key with
  | .number .negativeZero => rfl
  | .number (.number _) => rfl
  | .string _ | .bigint _ | .boolean _ | .undefined | .null | .object _ | .function _ => rfl

/-- Two keys are the same for a map if it stores the same for them. -/
theorem sameValueZero_iff (a b : Key) : a.sameValueZero b = true ↔ a.canonical = b.canonical := by
  match a, b with
  | .number .negativeZero, .number .negativeZero => simp [sameValueZero, Double.sameValueZero]
  | .number .negativeZero, .number (.number y) =>
    simp [sameValueZero, Double.sameValueZero, canonical, Double.canonical, eq_comm]
  | .number (.number x), .number .negativeZero => simp [sameValueZero, Double.sameValueZero, canonical, Double.canonical]
  | .number (.number x), .number (.number y) => simp [sameValueZero, Double.sameValueZero, canonical, Double.canonical]
  | .number x, .string _ | .number x, .bigint _ | .number x, .boolean _ | .number x, .undefined | .number x, .null
  | .number x, .object _ | .number x, .function _ => simp [sameValueZero, canonical]
  | .string _, b | .bigint _, b | .boolean _, b | .undefined, b | .null, b | .object _, b | .function _, b =>
    cases b <;> simp [sameValueZero, canonical]

/-- The type and the text do not tell keys apart that a map takes for the same. -/
theorem canonical_text (decimal : ℚ → String) (key : Key) :
    key.canonical.typeOf = key.typeOf ∧ key.canonical.text decimal = key.text decimal := by
  match key with
  | .number .negativeZero => simp [canonical, Double.canonical, typeOf, text]
  | .number (.number _) => exact ⟨rfl, rfl⟩
  | .string _ | .bigint _ | .boolean _ | .undefined | .null | .object _ | .function _ => exact ⟨rfl, rfl⟩

end Key

/-- `Math.imul` and the bitwise operators are those of 32-bit words. -/
def hashString (units : List UInt16) : BitVec 32 :=
  units.foldl (fun hash unit => (hash ^^^ BitVec.ofNat 32 unit.toNat) * 0x01000193#32) 0x811c9dc5#32

def mix (value : Nat) : BitVec 32 :=
  let hash := BitVec.ofNat 32 value
  let hash := (hash ^^^ (hash >>> 16)) * 0x45d9f3b#32
  let hash := (hash ^^^ (hash >>> 16)) * 0x45d9f3b#32
  hash ^^^ (hash >>> 16)

end RotatingMaps
