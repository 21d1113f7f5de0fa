import TsServiceLib.Serde.SerdeReader
import Mathlib.Data.Rat.Lemmas

/-!
The serdes of the integers, booleans, runes and bytes. The bitwise operators of
the source are those of 32-bit words, or of 64-bit ones for a bigint; the sign
bit of most signed integers is flipped so that they are ordered as bytes.
-/
namespace Serdes
open Numbers Framing BigEndian

section Integers

/-- The setter of a DataView: the number up to the width. -/
def setUint (width : Nat) (value : Int) : Bytes := toBytes width (value % 256 ^ width).toNat

/-- The serdes of integers that are numbers. `write` is handed to the setter,
    `read` is made of what the unsigned getter gives. -/
structure IntegerSerde where
  name : String
  width : Nat
  minimum : Int
  maximum : Int
  write : Int → Int
  read : Nat → Int

namespace IntegerSerde

def validate (s : IntegerSerde) (value : Number) : Except Failure Unit :=
  if value.isInteger = false ∨ value.lt (.finite s.minimum) = true ∨ Number.lt (.finite s.maximum) value = true then
    .error (.rangeError (s.name ++ " expects an integer in [" ++ toString s.minimum ++ ", " ++ toString s.maximum ++ "]"))
  else .ok ()

def serde (s : IntegerSerde) : Serde Number where
  serialize value before := do
    s.validate value
    appendBytes before (setUint s.width (s.write value.toBigint))
  deserialize data := do
    let offset ← SerdeReader.start data Number.maxSafeInteger
    let (bytes, _) ← SerdeReader.read data s.width s.name offset
    pure (.finite (s.read (ofBytes bytes)))

end IntegerSerde

def uInt8Serde : IntegerSerde where
  name := "UInt8Serde"
  width := 1
  minimum := 0
  maximum := 0xff
  write value := value
  read number := number

def uInt16Serde : IntegerSerde where
  name := "UInt16Serde"
  width := 2
  minimum := 0
  maximum := 0xffff
  write value := value
  read number := number

def uInt32Serde : IntegerSerde where
  name := "UInt32Serde"
  width := 4
  minimum := 0
  maximum := 0xffffffff
  write value := value
  read number := number

def int8Serde : IntegerSerde where
  name := "Int8Serde"
  width := 1
  minimum := -0x80
  maximum := 0x7f
  write value := value
  read number := (BitVec.ofNat 8 number).toInt

def int16Serde : IntegerSerde where
  name := "Int16Serde"
  width := 2
  minimum := -0x8000
  maximum := 0x7fff
  write value := (BitVec.ofInt 32 value ^^^ 0x8000#32).toInt
  read number := (((BitVec.ofNat 32 number ^^^ 0x8000#32) <<< 16).sshiftRight 16).toInt

def int32Serde : IntegerSerde where
  name := "Int32Serde"
  width := 4
  minimum := -0x80000000
  maximum := 0x7fffffff
  write value := (BitVec.ofInt 32 value ^^^ 0x80000000#32).toNat
  read number := ((BitVec.ofNat 32 number ^^^ 0x80000000#32) ||| 0#32).toInt

def runeSerde : IntegerSerde where
  name := "RuneSerde"
  width := 4
  minimum := -0x80000000
  maximum := 0x7fffffff
  write value := (BitVec.ofInt 32 value).toNat
  read number := (BitVec.ofNat 32 number).toInt

structure BigIntegerSerde where
  name : String
  signed : Bool
  minimum : Int
  maximum : Int

namespace BigIntegerSerde

def encode (s : BigIntegerSerde) (value : Int) : Int :=
  if s.signed then (BitVec.ofInt 64 value ^^^ (1#64 <<< 63)).toNat else value

def decode (s : BigIntegerSerde) (encoded : Nat) : Int :=
  if s.signed then (BitVec.ofNat 64 encoded ^^^ (1#64 <<< 63)).toInt else encoded

def serde (s : BigIntegerSerde) : Serde Int where
  serialize value before :=
    if value < s.minimum ∨ value > s.maximum then
      .error (.rangeError (s.name ++ " expects a bigint in [" ++ toString s.minimum ++ ", " ++ toString s.maximum ++ "]"))
    else appendBytes before (setUint 8 (s.encode value))
  deserialize data := do
    let offset ← SerdeReader.start data Number.maxSafeInteger
    let (bytes, _) ← SerdeReader.read data 8 s.name offset
    pure (s.decode (ofBytes bytes))

end BigIntegerSerde

def uInt64Serde : BigIntegerSerde where
  name := "UInt64Serde"
  signed := false
  minimum := 0
  maximum := 2 ^ 64 - 1

def int64Serde : BigIntegerSerde where
  name := "Int64Serde"
  signed := true
  minimum := -2 ^ 63
  maximum := 2 ^ 63 - 1

def uIntSerde : BigIntegerSerde := { uInt64Serde with name := "UIntSerde" }

def intSerde : BigIntegerSerde := { int64Serde with name := "IntSerde" }

end Integers

def boolSerde : Serde Bool where
  serialize value before := appendBytes before [if value then 1 else 0]
  deserialize data := do
    let offset ← SerdeReader.start data Number.maxSafeInteger
    let (bytes, _) ← SerdeReader.read data 1 "BoolSerde" offset
    pure (bytes.head? != some 0)

def bytesSerde (limits : SerdeLimits) : Serde Bytes where
  serialize value before :=
    if value.length > limits.maxBytes then .error (.serdeError "bytes exceed configured limit" 0)
    else do
      let size ← encodeSize value.length
      let framed ← appendBytes size value
      appendBytes before framed
  deserialize data := do
    let offset ← SerdeReader.start data limits.maxTotalBytes
    let (length, offset) ← SerdeReader.readSize data limits.maxBytes "bytes length" offset
    let (bytes, _) ← SerdeReader.read data length "bytes" offset
    pure bytes

def newBytesSerde (limits : SerdeLimits) : Except Failure (Serde Bytes) := do
  validateLimits limits
  pure (bytesSerde limits)

section Laws

/-- A value that is accepted appends bytes that are read back as the value. -/
def Lawful {T : Type} (s : Serde T) : Prop :=
  ∀ value before result, s.serialize value before = .ok result →
    ∃ out, Appends Number.maxSafeInteger (s.serialize value) out ∧ s.deserialize out = .ok value

theorem setUint_read {width : Nat} (value : Int) :
    ofBytes (setUint width value) = (value % 256 ^ width).toNat := by
  have positive : (0 : Int) < 256 ^ width := Int.pow_pos (by decide)
  have nonneg := Int.emod_nonneg value (Int.ne_of_gt positive)
  have below := Int.emod_lt_of_pos value positive
  have small : (value % 256 ^ width).toNat < 256 ^ width := (Int.toNat_lt nonneg).mpr (by exact_mod_cast below)
  rw [setUint, ofBytes_toBytes_of_lt small]

theorem read_whole {data : Bytes} {width : Nat} (length : data.length = width) (safe : width ≤ Number.maxSafeInteger)
    (what : String) : SerdeReader.read data width what 0 = .ok (data, width) := by
  subst length
  have reads : Reads data (SerdeReader.read data data.length what) data data := read_reads safe what
  have read := reads [] [] (by simp)
  simpa using read

namespace IntegerSerde
variable {s : IntegerSerde} {value : Number}

theorem invalid_iff : (value.isInteger = false ∨ value.lt (.finite s.minimum) = true ∨
    Number.lt (.finite s.maximum) value = true) ↔ ¬∃ z : Int, value = .finite z ∧ s.minimum ≤ z ∧ z ≤ s.maximum := by
  cases value with
  | finite q =>
    simp only [Number.isInteger, Number.lt, decide_eq_false_iff_not, decide_eq_true_eq, Number.finite.injEq]
    constructor
    · rintro invalid ⟨z, same, low, high⟩
      subst same
      rcases invalid with fraction | below | above
      · exact fraction (Rat.den_intCast z)
      · exact absurd low (by exact_mod_cast not_le.mpr below)
      · exact absurd high (by exact_mod_cast not_le.mpr above)
    · intro outside
      by_contra valid
      simp only [not_or, not_not, not_lt] at valid
      obtain ⟨whole, low, high⟩ := valid
      have exact : (q.num : ℚ) = q := Rat.coe_int_num_of_den_eq_one whole
      rw [← exact] at low high
      exact outside ⟨q.num, exact.symm, by exact_mod_cast low, by exact_mod_cast high⟩
  | _ => simp [Number.isInteger]

theorem validate_ok : s.validate value = .ok () ↔ ∃ z : Int, value = .finite z ∧ s.minimum ≤ z ∧ z ≤ s.maximum := by
  unfold validate
  split
  · rename_i invalid
    exact iff_of_false nofun (invalid_iff.mp invalid)
  · rename_i valid
    exact iff_of_true rfl (not_not.mp (fun outside => valid (invalid_iff.mpr outside)))

/-- It is enough that the integers in range are read back from their words. -/
theorem serde_lawful (short : s.width ≤ 8)
    (exact : ∀ z, s.minimum ≤ z → z ≤ s.maximum → s.read (s.write z % 256 ^ s.width).toNat = z) : Lawful s.serde := by
  intro value before result accepted
  obtain ⟨_, valid, -⟩ := bind_ok.mp accepted
  obtain ⟨z, same, low, high⟩ := validate_ok.mp valid
  have size : (setUint s.width (s.write value.toBigint)).length = s.width := length_toBytes _ _
  have safe : s.width ≤ Number.maxSafeInteger := Nat.le_trans short (by decide)
  refine ⟨setUint s.width (s.write value.toBigint), ?_, ?_⟩
  · have writes : Appends Number.maxSafeInteger (fun before => appendBytes before (setUint s.width (s.write value.toBigint)))
        (setUint s.width (s.write value.toBigint)) := appendBytes_appends (by omega)
    intro before result
    rw [← writes before result]
    simp only [serde, valid]
    rfl
  · have word : ofBytes (setUint s.width (s.write value.toBigint)) = (s.write z % 256 ^ s.width).toNat := by
      rw [setUint_read, same]
      simp only [Number.toBigint, Rat.num_intCast]
    apply bind_ok.mpr
    refine ⟨0, start_ok (by omega) (by decide), bind_ok.mpr ⟨_, read_whole size safe s.name, ?_⟩⟩
    dsimp only
    rw [word, exact z low high, same]
    rfl

end IntegerSerde

theorem word_read {width : Nat} (x : BitVec width) : ((x.toNat : Int) % 2 ^ width).toNat = x.toNat := by
  have small : (x.toNat : Int) < 2 ^ width := by exact_mod_cast x.isLt
  rw [Int.emod_eq_of_lt (Int.natCast_nonneg _) small, Int.toNat_natCast]

theorem uInt_exact {width : Nat} {z : Int} (low : 0 ≤ z) (high : z ≤ 256 ^ width - 1) :
    (((z % 256 ^ width).toNat : Nat) : Int) = z := by
  rw [Int.emod_eq_of_lt low (by omega), Int.toNat_of_nonneg low]

theorem int8_exact {z : Int} (low : -0x80 ≤ z) (high : z ≤ 0x7f) :
    int8Serde.read (int8Serde.write z % 256 ^ 1).toNat = z := by
  have word : BitVec.ofNat 8 (z % 256 ^ 1).toNat = BitVec.ofInt 8 z := by
    apply BitVec.eq_of_toNat_eq
    rw [BitVec.toNat_ofNat, BitVec.toNat_ofInt]
    omega
  simp only [int8Serde]
  rw [word, BitVec.toInt_ofInt_eq_self (by decide) (by omega) (by omega)]

theorem half_read (x : BitVec 32) : (x.toInt % 256 ^ 2).toNat = x.toNat % 2 ^ 16 := by
  have small := x.isLt
  rw [BitVec.toInt_eq_toNat_bmod, Int.bmod_def]
  omega

/-- The shift by half a word sees the lower half only. -/
theorem low_half (x : BitVec 32) : BitVec.ofNat 32 (x.toInt % 256 ^ 2).toNat <<< 16 = x <<< 16 := by
  apply BitVec.eq_of_toNat_eq
  rw [half_read]
  simp only [BitVec.toNat_shiftLeft, BitVec.toNat_ofNat, Nat.shiftLeft_eq]
  omega

theorem int16_exact {z : Int} (low : -0x8000 ≤ z) (high : z ≤ 0x7fff) :
    int16Serde.read (int16Serde.write z % 256 ^ 2).toNat = z := by
  have shifts : BitVec.ofInt 32 z <<< 16 = BitVec.ofInt 32 (z * 2 ^ 16) := by
    rw [BitVec.shiftLeft_eq_mul_twoPow, BitVec.ofInt_mul]
    rfl
  have upper : (BitVec.ofInt 32 z <<< 16).toInt = z * 2 ^ 16 := by
    rw [shifts, BitVec.toInt_ofInt_eq_self (by decide) (by omega) (by omega)]
  simp only [int16Serde]
  -- the two flips cancel once both are under the shift
  rw [BitVec.shiftLeft_xor_distrib, low_half, ← BitVec.shiftLeft_xor_distrib, BitVec.xor_assoc, BitVec.xor_self,
    BitVec.xor_zero, BitVec.toInt_sshiftRight, upper, Int.shiftRight_eq_div_pow]
  omega

theorem int32_exact {z : Int} (low : -0x80000000 ≤ z) (high : z ≤ 0x7fffffff) :
    int32Serde.read (int32Serde.write z % 256 ^ 4).toNat = z := by
  have four : (256 : Int) ^ 4 = 2 ^ 32 := by decide
  simp only [int32Serde]
  rw [four, word_read, BitVec.ofNat_toNat, BitVec.setWidth_eq, BitVec.or_zero, BitVec.xor_assoc, BitVec.xor_self,
    BitVec.xor_zero, BitVec.toInt_ofInt_eq_self (by decide) (by omega) (by omega)]

theorem rune_exact {z : Int} (low : -0x80000000 ≤ z) (high : z ≤ 0x7fffffff) :
    runeSerde.read (runeSerde.write z % 256 ^ 4).toNat = z := by
  have four : (256 : Int) ^ 4 = 2 ^ 32 := by decide
  simp only [runeSerde]
  rw [four, word_read, BitVec.ofNat_toNat, BitVec.setWidth_eq,
    BitVec.toInt_ofInt_eq_self (by decide) (by omega) (by omega)]

def integerSerdes : List IntegerSerde :=
  [uInt8Serde, uInt16Serde, uInt32Serde, int8Serde, int16Serde, int32Serde, runeSerde]

theorem integerSerdes_lawful {s : IntegerSerde} (scalar : s ∈ integerSerdes) : Lawful s.serde := by
  simp only [integerSerdes, List.mem_cons, List.not_mem_nil, or_false] at scalar
  rcases scalar with same | same | same | same | same | same | same <;> subst same
  · exact IntegerSerde.serde_lawful (by decide) (fun z low high => uInt_exact low high)
  · exact IntegerSerde.serde_lawful (by decide) (fun z low high => uInt_exact low high)
  · exact IntegerSerde.serde_lawful (by decide) (fun z low high => uInt_exact low high)
  · exact IntegerSerde.serde_lawful (by decide) (fun z low high => int8_exact low high)
  · exact IntegerSerde.serde_lawful (by decide) (fun z low high => int16_exact low high)
  · exact IntegerSerde.serde_lawful (by decide) (fun z low high => int32_exact low high)
  · exact IntegerSerde.serde_lawful (by decide) (fun z low high => rune_exact low high)

namespace BigIntegerSerde
variable {s : BigIntegerSerde}

/-- It is enough that the integers in range are read back from their words. -/
theorem serde_lawful (exact : ∀ z, s.minimum ≤ z → z ≤ s.maximum → s.decode (s.encode z % 256 ^ 8).toNat = z) :
    Lawful s.serde := by
  intro value before result accepted
  have within : ¬(value < s.minimum ∨ value > s.maximum) := by
    intro outside
    simp only [serde, if_pos outside] at accepted
    cases accepted
  have size : (setUint 8 (s.encode value)).length = 8 := length_toBytes _ _
  refine ⟨setUint 8 (s.encode value), ?_, ?_⟩
  · have writes : Appends Number.maxSafeInteger (fun before => appendBytes before (setUint 8 (s.encode value)))
        (setUint 8 (s.encode value)) := appendBytes_appends (by rw [size]; decide)
    intro before result
    rw [← writes before result]
    simp only [serde, if_neg within]
  · apply bind_ok.mpr
    refine ⟨0, start_ok (by rw [size]; decide) (by decide), bind_ok.mpr ⟨_, read_whole size (by decide) s.name, ?_⟩⟩
    dsimp only
    rw [setUint_read, exact value (by omega) (by omega)]
    rfl

end BigIntegerSerde

theorem int64_exact {z : Int} (low : -2 ^ 63 ≤ z) (high : z ≤ 2 ^ 63 - 1) :
    int64Serde.decode (int64Serde.encode z % 256 ^ 8).toNat = z := by
  have eight : (256 : Int) ^ 8 = 2 ^ 64 := by decide
  simp only [int64Serde, BigIntegerSerde.encode, BigIntegerSerde.decode, if_true]
  rw [eight, word_read, BitVec.ofNat_toNat, BitVec.setWidth_eq, BitVec.xor_assoc, BitVec.xor_self, BitVec.xor_zero,
    BitVec.toInt_ofInt_eq_self (by decide) (by omega) (by omega)]

def bigIntegerSerdes : List BigIntegerSerde := [uInt64Serde, int64Serde, uIntSerde, intSerde]

theorem bigIntegerSerdes_lawful {s : BigIntegerSerde} (scalar : s ∈ bigIntegerSerdes) : Lawful s.serde := by
  simp only [bigIntegerSerdes, List.mem_cons, List.not_mem_nil, or_false] at scalar
  rcases scalar with same | same | same | same <;> subst same
  · exact BigIntegerSerde.serde_lawful (fun z low high => uInt_exact low high)
  · exact BigIntegerSerde.serde_lawful (fun z low high => int64_exact low high)
  · exact BigIntegerSerde.serde_lawful (fun z low high => uInt_exact low high)
  · exact BigIntegerSerde.serde_lawful (fun z low high => int64_exact low high)

theorem boolSerde_lawful : Lawful boolSerde := by
  intro value before result _
  refine ⟨[if value then 1 else 0], appendBytes_appends (by simp [Number.maxSafeInteger]), ?_⟩
  cases value <;> rfl

theorem bytesSerde_lawful : Lawful (bytesSerde unlimitedSerdeLimits) := by
  intro value before result accepted
  have within : ¬value.length > unlimitedSerdeLimits.maxBytes := by
    intro outside
    simp only [bytesSerde, if_pos outside] at accepted
    cases accepted
  simp only [bytesSerde, if_neg within] at accepted
  obtain ⟨safe, fits, writes⟩ := appendSized_appends accepted
  refine ⟨toBytes sizeBytes value.length ++ value, ?_, ?_⟩
  · intro before result
    rw [← writes before result]
    simp only [bytesSerde, if_neg within]
  · have reads := framed_reads fits (by decide) (.inl safe) "bytes length" "bytes" [] [] (by simp)
    apply bind_ok.mpr
    refine ⟨0, start_ok fits (by decide), ?_⟩
    obtain ⟨_, first, second⟩ := bind_ok.mp reads
    exact bind_ok.mpr ⟨_, first, bind_ok.mpr ⟨_, second, rfl⟩⟩

end Laws

end Serdes
