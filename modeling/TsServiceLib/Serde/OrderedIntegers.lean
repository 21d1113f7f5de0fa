import TsServiceLib.Serde.ScalarSerdes

/-!
The encodings of the integers as ordered keys. The word that is written is the
value less the minimum of its type: for the signed types the sign bit of the
two's complement is flipped, which adds the half of the range.
-/
namespace Serdes
open Numbers Framing BigEndian

/-- The encodings of the accepted values are all byte strings of the width, one
    each, and compare as the values do. -/
structure EmbedsOrder {T : Type} (s : Serde T) (accepted : T → Prop) (less : T → T → Prop) (width : Nat) : Prop where
  encodes : ∀ value, accepted value ↔ ∃ bytes, s.serialize value [] = .ok bytes
  length : ∀ value bytes, s.serialize value [] = .ok bytes → bytes.length = width
  order : ∀ v w a b, s.serialize v [] = .ok a → s.serialize w [] = .ok b → (a < b ↔ less v w)
  onto : ∀ bytes : Bytes, bytes.length = width → ∃! value, s.serialize value [] = .ok bytes

section Flip

theorem xor_two_pow {m k : Nat} (small : m < 2 ^ k) : m ^^^ 2 ^ k = 2 ^ k + m := by
  have quotient : (m ^^^ 2 ^ k) / 2 ^ k = 1 := by
    rw [Nat.xor_div_two_pow, Nat.div_eq_of_lt small, Nat.div_self (Nat.two_pow_pos k), Nat.zero_xor]
  have remainder : (m ^^^ 2 ^ k) % 2 ^ k = m := by
    rw [Nat.xor_mod_two_pow, Nat.mod_eq_of_lt small, Nat.mod_self, Nat.xor_zero]
  have whole := Nat.div_add_mod (m ^^^ 2 ^ k) (2 ^ k)
  rw [quotient, remainder] at whole
  omega

/-- Flipping the sign bit of the two's complement adds half of the range. -/
theorem flip_toNat {k : Nat} {z : Int} (low : -2 ^ k ≤ z) (high : z < 2 ^ k) :
    ((BitVec.ofInt (k + 1) z).toNat ^^^ 2 ^ k : Nat) = (z + 2 ^ k).toNat := by
  have double : (2 : Int) ^ (k + 1) = 2 * 2 ^ k := by rw [pow_succ]; ring
  have power : ((2 ^ k : Nat) : Int) = 2 ^ k := by norm_cast
  rw [BitVec.toNat_ofInt]
  push_cast
  rw [double]
  rcases Int.lt_or_le z 0 with negative | nonnegative
  · have wrapped : z % (2 * 2 ^ k) = z + 2 * 2 ^ k := by
      rw [← Int.add_emod_right, Int.emod_eq_of_lt (by omega) (by omega)]
    have shape : (z + 2 * 2 ^ k).toNat = 2 ^ k + (z + 2 ^ k).toNat := by omega
    have small : (z + 2 ^ k).toNat < 2 ^ k := by omega
    rw [wrapped, shape, ← xor_two_pow small, Nat.xor_assoc, Nat.xor_self, Nat.xor_zero]
  · have small : z.toNat < 2 ^ k := by omega
    rw [Int.emod_eq_of_lt nonnegative (by omega), xor_two_pow small]
    omega

end Flip

section Words
variable {T : Type} {s : Serde T} {width : Nat} {minimum maximum : Int} {write : Int → Int} {less : T → T → Prop}

theorem embedsOrder_of_words (of : Int → T) (compares : ∀ y z, less (of y) (of z) ↔ y < z)
    (serializes : ∀ v bytes, s.serialize v [] = .ok bytes ↔
      ∃ z, v = of z ∧ minimum ≤ z ∧ z ≤ maximum ∧ bytes = setUint width (write z))
    (word : ∀ z, minimum ≤ z → z ≤ maximum → (write z % 256 ^ width).toNat = (z - minimum).toNat)
    (span : maximum - minimum + 1 = 256 ^ width) :
    EmbedsOrder s (fun v => ∃ z, v = of z ∧ minimum ≤ z ∧ z ≤ maximum) less width := by
  have value : ∀ z, minimum ≤ z → z ≤ maximum → ofBytes (setUint width (write z)) = (z - minimum).toNat := by
    intro z low high
    rw [setUint_read, word z low high]
  have size : ∀ z, (setUint width (write z)).length = width := fun z => length_toBytes _ _
  constructor
  · intro v
    constructor
    · intro accepted
      obtain ⟨z, same, low, high⟩ := accepted
      exact ⟨_, (serializes v _).2 ⟨z, same, low, high, rfl⟩⟩
    · intro encoded
      obtain ⟨bytes, encoded⟩ := encoded
      obtain ⟨z, same, low, high, -⟩ := (serializes v bytes).1 encoded
      exact ⟨z, same, low, high⟩
  · intro v bytes encoded
    obtain ⟨z, -, -, -, rfl⟩ := (serializes v bytes).1 encoded
    exact size z
  · intro v w a b first second
    obtain ⟨y, rfl, lowY, highY, rfl⟩ := (serializes v a).1 first
    obtain ⟨z, rfl, lowZ, highZ, rfl⟩ := (serializes w b).1 second
    rw [lt_iff_ofBytes_lt (by rw [size, size]), value y lowY highY, value z lowZ highZ, compares]
    omega
  · intro bytes length
    have fits := ofBytes_lt bytes
    rw [length] at fits
    have within : (ofBytes bytes : Int) < 256 ^ width := by exact_mod_cast fits
    have low : minimum ≤ minimum + ofBytes bytes := by omega
    have high : minimum + ofBytes bytes ≤ maximum := by omega
    have same : bytes = setUint width (write (minimum + ofBytes bytes)) := by
      apply ofBytes_injective (by rw [size, length])
      rw [value _ low high]
      omega
    refine ⟨of (minimum + ofBytes bytes), (serializes _ bytes).2 ⟨_, rfl, low, high, same⟩, ?_⟩
    intro other encoded
    obtain ⟨z, rfl, lowZ, highZ, shape⟩ := (serializes other bytes).1 encoded
    have number := value z lowZ highZ
    rw [← shape] at number
    congr 1
    omega

end Words

theorem IntegerSerde.serialize_iff (s : IntegerSerde) (value : Number) (bytes : Bytes) : s.serde.serialize value [] = .ok bytes ↔
    ∃ z : Int, value = .finite z ∧ s.minimum ≤ z ∧ z ≤ s.maximum ∧ bytes = setUint s.width (s.write z) := by
  have writes : ∀ z : Int, appendBytes [] (setUint s.width (s.write (Number.finite z).toBigint)) = .ok bytes ↔
      bytes = setUint s.width (s.write z) := by
    intro z
    simp only [appendBytes, List.length_nil, if_true, Except.ok.injEq, Number.toBigint, Rat.num_intCast]
    exact eq_comm
  simp only [serde]
  constructor
  · intro accepted
    obtain ⟨_, valid, written⟩ := bind_ok.mp accepted
    obtain ⟨z, rfl, low, high⟩ := IntegerSerde.validate_ok.mp valid
    exact ⟨z, rfl, low, high, (writes z).1 written⟩
  · intro found
    obtain ⟨z, rfl, low, high, shape⟩ := found
    exact bind_ok.mpr ⟨(), IntegerSerde.validate_ok.mpr ⟨z, rfl, low, high⟩, (writes z).2 shape⟩

theorem BigIntegerSerde.serialize_iff (s : BigIntegerSerde) (value : Int) (bytes : Bytes) : s.serde.serialize value [] = .ok bytes ↔
    ∃ z : Int, value = z ∧ s.minimum ≤ z ∧ z ≤ s.maximum ∧ bytes = setUint 8 (s.encode z) := by
  simp only [serde]
  split
  · rename_i outside
    constructor
    · intro accepted
      cases accepted
    · rintro ⟨z, rfl, low, high, -⟩
      omega
  · rename_i inside
    simp only [appendBytes, List.length_nil, if_true, Except.ok.injEq]
    constructor
    · intro shape
      exact ⟨value, rfl, by omega, by omega, shape.symm⟩
    · rintro ⟨z, rfl, -, -, shape⟩
      exact shape.symm

def IntegerSerde.InRange (s : IntegerSerde) (value : Number) : Prop :=
  ∃ z : Int, value = .finite z ∧ s.minimum ≤ z ∧ z ≤ s.maximum

theorem IntegerSerde.embedsOrder (s : IntegerSerde)
    (word : ∀ z, s.minimum ≤ z → z ≤ s.maximum → (s.write z % 256 ^ s.width).toNat = (z - s.minimum).toNat)
    (span : s.maximum - s.minimum + 1 = 256 ^ s.width) :
    EmbedsOrder s.serde s.InRange (fun v w => v.lt w = true) s.width := by
  refine embedsOrder_of_words (fun z => Number.finite z) ?_ s.serialize_iff word span
  intro y z
  rw [Number.lt, decide_eq_true_eq]
  exact Rat.intCast_lt_intCast

/-- The bigints in the range of the type. -/
def BigIntegerSerde.InRange (s : BigIntegerSerde) (value : Int) : Prop := s.minimum ≤ value ∧ value ≤ s.maximum

theorem BigIntegerSerde.embedsOrder (s : BigIntegerSerde)
    (word : ∀ z, s.minimum ≤ z → z ≤ s.maximum → (s.encode z % 256 ^ 8).toNat = (z - s.minimum).toNat)
    (span : s.maximum - s.minimum + 1 = 256 ^ 8) : EmbedsOrder s.serde s.InRange (fun v w => v < w) 8 := by
  have embeds : EmbedsOrder s.serde (fun v => ∃ z, v = id z ∧ s.minimum ≤ z ∧ z ≤ s.maximum) (fun v w => v < w) 8 :=
    embedsOrder_of_words id (fun _ _ => Iff.rfl) s.serialize_iff word span
  refine ⟨?_, embeds.length, embeds.order, embeds.onto⟩
  intro value
  rw [← embeds.encodes value]
  simp [InRange]

section Shifts

theorem uInt_word {width : Nat} {z : Int} (low : 0 ≤ z) (high : z ≤ 256 ^ width - 1) :
    (z % 256 ^ width).toNat = (z - 0).toNat := by
  rw [Int.emod_eq_of_lt low (by omega), Int.sub_zero]

theorem int16_word {z : Int} (low : -0x8000 ≤ z) (high : z ≤ 0x7fff) :
    (int16Serde.write z % 256 ^ 2).toNat = (z - -0x8000).toNat := by
  have lower : (BitVec.ofInt 32 z).toNat % 2 ^ 16 = (BitVec.ofInt 16 z).toNat := by
    rw [BitVec.toNat_ofInt, BitVec.toNat_ofInt]
    omega
  have flipped := flip_toNat (k := 15) (z := z) (by omega) (by omega)
  simp only [int16Serde]
  rw [half_read, BitVec.toNat_xor, Nat.xor_mod_two_pow, lower]
  rw [show (0x8000#32).toNat % 2 ^ 16 = 2 ^ 15 from rfl, flipped]
  omega

theorem int32_word {z : Int} (low : -0x80000000 ≤ z) (high : z ≤ 0x7fffffff) :
    (int32Serde.write z % 256 ^ 4).toNat = (z - -0x80000000).toNat := by
  have four : (256 : Int) ^ 4 = 2 ^ 32 := by decide
  have flipped := flip_toNat (k := 31) (z := z) (by omega) (by omega)
  simp only [int32Serde]
  rw [four, word_read, BitVec.toNat_xor, show (0x80000000#32).toNat = 2 ^ 31 from rfl, flipped]
  omega

theorem int64_word {z : Int} (low : -2 ^ 63 ≤ z) (high : z ≤ 2 ^ 63 - 1) :
    (int64Serde.encode z % 256 ^ 8).toNat = (z - -2 ^ 63).toNat := by
  have eight : (256 : Int) ^ 8 = 2 ^ 64 := by decide
  have flipped := flip_toNat (k := 63) (z := z) (by omega) (by omega)
  simp only [int64Serde, BigIntegerSerde.encode, if_true]
  rw [eight, word_read, BitVec.toNat_xor, show (1#64 <<< 63).toNat = 2 ^ 63 from rfl, flipped]
  omega

end Shifts

/- The encodings of the values of each of the types are all the byte strings of
   its width, one each, and compare as the values do. -/
theorem integers_embed_order :
    EmbedsOrder int16Serde.serde int16Serde.InRange (fun v w => v.lt w = true) 2 ∧
      EmbedsOrder int32Serde.serde int32Serde.InRange (fun v w => v.lt w = true) 4 ∧
      EmbedsOrder int64Serde.serde int64Serde.InRange (fun v w => v < w) 8 ∧
      EmbedsOrder uInt16Serde.serde uInt16Serde.InRange (fun v w => v.lt w = true) 2 ∧
      EmbedsOrder uInt32Serde.serde uInt32Serde.InRange (fun v w => v.lt w = true) 4 ∧
      EmbedsOrder uInt64Serde.serde uInt64Serde.InRange (fun v w => v < w) 8 := by
  refine ⟨?_, ?_, ?_, ?_, ?_, ?_⟩
  · exact int16Serde.embedsOrder (fun z low high => int16_word low high) (by decide)
  · exact int32Serde.embedsOrder (fun z low high => int32_word low high) (by decide)
  · exact int64Serde.embedsOrder (fun z low high => int64_word low high) (by decide)
  · exact uInt16Serde.embedsOrder (fun z low high => uInt_word low high) (by decide)
  · exact uInt32Serde.embedsOrder (fun z low high => uInt_word low high) (by decide)
  · exact uInt64Serde.embedsOrder (fun z low high => uInt_word low high) (by decide)

end Serdes
