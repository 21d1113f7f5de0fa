import Mathlib.Data.List.Basic
import Mathlib.Data.UInt

/-!
Text as 16-bit code units and as bytes. A lone surrogate is no character: what
reads units puts the replacement character in its place, so that units survive
the way through the characters exactly where they are well formed.
-/
namespace Unicode

section Units

def isHigh (unit : UInt16) : Bool := decide (0xD800 ≤ unit.toNat ∧ unit.toNat < 0xDC00)

def isLow (unit : UInt16) : Bool := decide (0xDC00 ≤ unit.toNat ∧ unit.toNat < 0xE000)

def isSurrogate (unit : UInt16) : Bool := isHigh unit || isLow unit

def replacement : Char := '\uFFFD'

def ofPair (high low : UInt16) : Char :=
  Char.ofNat (0x10000 + (high.toNat - 0xD800) * 0x400 + (low.toNat - 0xDC00))

def ofUnit (unit : UInt16) : Char := if isSurrogate unit then replacement else Char.ofNat unit.toNat

/-- The characters of a sequence of code units. -/
def scalars : List UInt16 → List Char
  | [] => []
  | [unit] => [ofUnit unit]
  | first :: second :: rest =>
    if isHigh first && isLow second then ofPair first second :: scalars rest
    else ofUnit first :: scalars (second :: rest)

/-- Every surrogate belongs to a pair. -/
def wellFormed : List UInt16 → Bool
  | [] => true
  | [unit] => !isSurrogate unit
  | first :: second :: rest =>
    if isHigh first && isLow second then wellFormed rest
    else !isSurrogate first && wellFormed (second :: rest)

def units (c : Char) : List UInt16 :=
  if c.toNat < 0x10000 then [UInt16.ofNat c.toNat]
  else [UInt16.ofNat (0xD800 + (c.toNat - 0x10000) / 0x400), UInt16.ofNat (0xDC00 + (c.toNat - 0x10000) % 0x400)]

def utf16 (text : List Char) : List UInt16 := text.flatMap units

theorem valid_char (c : Char) : c.toNat < 0xD800 ∨ (0xDFFF < c.toNat ∧ c.toNat < 0x110000) := c.valid

theorem plain_unit {c : Char} (small : c.toNat < 0x10000) :
    isSurrogate (UInt16.ofNat c.toNat) = false ∧ ofUnit (UInt16.ofNat c.toNat) = c := by
  have value : (UInt16.ofNat c.toNat).toNat = c.toNat := UInt16.toNat_ofNat_of_lt' small
  have valid := valid_char c
  have plain : isSurrogate (UInt16.ofNat c.toNat) = false := by
    simp only [isSurrogate, isHigh, isLow, value, Bool.or_eq_false_iff, decide_eq_false_iff_not]
    omega
  refine ⟨plain, ?_⟩
  rw [ofUnit, plain, value]
  exact Char.ofNat_toNat c

theorem pair_units {c : Char} (large : ¬c.toNat < 0x10000) :
    isHigh (UInt16.ofNat (0xD800 + (c.toNat - 0x10000) / 0x400)) = true ∧
      isLow (UInt16.ofNat (0xDC00 + (c.toNat - 0x10000) % 0x400)) = true ∧
      ofPair (UInt16.ofNat (0xD800 + (c.toNat - 0x10000) / 0x400))
        (UInt16.ofNat (0xDC00 + (c.toNat - 0x10000) % 0x400)) = c := by
  have valid := valid_char c
  have high : (UInt16.ofNat (0xD800 + (c.toNat - 0x10000) / 0x400)).toNat = 0xD800 + (c.toNat - 0x10000) / 0x400 :=
    UInt16.toNat_ofNat_of_lt' (by show _ < 65536; omega)
  have low : (UInt16.ofNat (0xDC00 + (c.toNat - 0x10000) % 0x400)).toNat = 0xDC00 + (c.toNat - 0x10000) % 0x400 :=
    UInt16.toNat_ofNat_of_lt' (by show _ < 65536; omega)
  refine ⟨?_, ?_, ?_⟩
  · simp only [isHigh, high, decide_eq_true_eq]
    omega
  · simp only [isLow, low, decide_eq_true_eq]
    omega
  · have point : 0x10000 + (0xD800 + (c.toNat - 0x10000) / 0x400 - 0xD800) * 0x400 +
        (0xDC00 + (c.toNat - 0x10000) % 0x400 - 0xDC00) = c.toNat := by omega
    rw [ofPair, high, low, point]
    exact Char.ofNat_toNat c

theorem scalars_plain {unit : UInt16} {rest : List UInt16} (plain : isSurrogate unit = false) :
    scalars (unit :: rest) = ofUnit unit :: scalars rest := by
  have notHigh : isHigh unit = false := (Bool.or_eq_false_iff.mp plain).1
  cases rest with
  | nil => rfl
  | cons second rest => simp [scalars, notHigh]

theorem wellFormed_plain {unit : UInt16} {rest : List UInt16} (plain : isSurrogate unit = false) :
    wellFormed (unit :: rest) = wellFormed rest := by
  have notHigh : isHigh unit = false := (Bool.or_eq_false_iff.mp plain).1
  cases rest with
  | nil => simp [wellFormed, plain]
  | cons second rest => simp [wellFormed, notHigh, plain]

theorem scalars_pair {first second : UInt16} {rest : List UInt16} (high : isHigh first = true)
    (low : isLow second = true) : scalars (first :: second :: rest) = ofPair first second :: scalars rest := by
  simp [scalars, high, low]

theorem wellFormed_pair {first second : UInt16} {rest : List UInt16} (high : isHigh first = true)
    (low : isLow second = true) : wellFormed (first :: second :: rest) = wellFormed rest := by
  simp [wellFormed, high, low]

theorem scalars_utf16 (text : List Char) : scalars (utf16 text) = text := by
  induction text with
  | nil => rfl
  | cons c text ih =>
    unfold utf16 at ih ⊢
    rw [List.flatMap_cons, units]
    split
    · rename_i small
      obtain ⟨plain, char⟩ := plain_unit small
      rw [List.singleton_append, scalars_plain plain, char, ih]
    · rename_i large
      obtain ⟨high, low, char⟩ := pair_units large
      rw [List.cons_append, List.singleton_append, scalars_pair high low, char, ih]

theorem wellFormed_utf16 (text : List Char) : wellFormed (utf16 text) = true := by
  induction text with
  | nil => rfl
  | cons c text ih =>
    unfold utf16 at ih ⊢
    rw [List.flatMap_cons, units]
    split
    · rename_i small
      rw [List.singleton_append, wellFormed_plain (plain_unit small).1]
      exact ih
    · rename_i large
      obtain ⟨high, low, -⟩ := pair_units large
      rw [List.cons_append, List.singleton_append, wellFormed_pair high low]
      exact ih

theorem toNat_ofNat {n : Nat} (valid : n < 0xD800 ∨ (0xDFFF < n ∧ n < 0x110000)) : (Char.ofNat n).toNat = n := by
  have isChar : n.isValidChar := valid
  rw [Char.ofNat, dif_pos isChar]
  rfl

theorem units_plain {unit : UInt16} (plain : isSurrogate unit = false) : units (ofUnit unit) = [unit] := by
  have bound := UInt16.toNat_lt unit
  have value : (Char.ofNat unit.toNat).toNat = unit.toNat := by
    apply toNat_ofNat
    simp only [isSurrogate, isHigh, isLow, Bool.or_eq_false_iff, decide_eq_false_iff_not] at plain
    omega
  rw [ofUnit, plain, units]
  simp only [Bool.false_eq_true, if_false, value]
  rw [if_pos (by omega), UInt16.ofNat_toNat]

theorem units_pair {first second : UInt16} (high : isHigh first = true) (low : isLow second = true) :
    units (ofPair first second) = [first, second] := by
  simp only [isHigh, isLow, decide_eq_true_eq] at high low
  have value : (ofPair first second).toNat = 0x10000 + (first.toNat - 0xD800) * 0x400 + (second.toNat - 0xDC00) :=
    toNat_ofNat (by omega)
  have upper : 0xD800 + ((ofPair first second).toNat - 0x10000) / 0x400 = first.toNat := by
    rw [value]
    omega
  have lower : 0xDC00 + ((ofPair first second).toNat - 0x10000) % 0x400 = second.toNat := by
    rw [value]
    omega
  rw [units, if_neg (by omega), upper, lower, UInt16.ofNat_toNat, UInt16.ofNat_toNat]

/-- Units that are well formed are those of their characters. -/
theorem utf16_scalars {text : List UInt16} (ok : wellFormed text = true) : utf16 (scalars text) = text := by
  induction text using scalars.induct with
  | case1 => rfl
  | case2 unit =>
    have plain : isSurrogate unit = false := by simpa [wellFormed] using ok
    simp [utf16, scalars, units_plain plain]
  | case3 first second rest pair ih =>
    obtain ⟨high, low⟩ := Bool.and_eq_true_iff.mp pair
    rw [wellFormed_pair high low] at ok
    rw [scalars_pair high low, utf16, List.flatMap_cons, units_pair high low]
    have tail := ih ok
    unfold utf16 at tail
    rw [tail]
    rfl
  | case4 first second rest single ih =>
    simp only [wellFormed, single] at ok
    simp only [Bool.false_eq_true, if_false, Bool.and_eq_true, Bool.not_eq_true'] at ok
    have tail := ih ok.2
    unfold utf16 at tail ⊢
    rw [scalars_plain ok.1, List.flatMap_cons, units_plain ok.1, tail]
    rfl

theorem wellFormed_iff (text : List UInt16) : wellFormed text = true ↔ utf16 (scalars text) = text := by
  constructor
  · exact utf16_scalars
  · intro same
    rw [← same]
    exact wellFormed_utf16 _

end Units

section Bytes

def utf8 (text : List Char) : List UInt8 := text.flatMap String.utf8EncodeChar

/-- Nothing but the bytes of characters is accepted. -/
def utf8Decode (bytes : List UInt8) : Option (List Char) := (bytes.toByteArray.utf8Decode?).map Array.toList

def utf8Length (text : List Char) : Nat := (text.map Char.utf8Size).sum

theorem length_utf8 (text : List Char) : (utf8 text).length = utf8Length text := by
  simp [utf8, utf8Length, List.length_flatMap]

theorem utf8Decode_utf8 (text : List Char) : utf8Decode (utf8 text) = some text := by
  have decoded : text.utf8Encode.utf8Decode? = some text.toArray := List.utf8Decode?_utf8Encode
  have bytes : (utf8 text).toByteArray = text.utf8Encode := rfl
  rw [utf8Decode, bytes, decoded]
  rfl

def byteOrderMark : Char := '\uFEFF'

/-- The mark that says the order of the bytes is no part of the text. -/
def dropMark : List Char → List Char
  | [] => []
  | c :: rest => if c = byteOrderMark then rest else c :: rest

theorem dropMark_eq (text : List Char) : dropMark text = text ↔ text.head? ≠ some byteOrderMark := by
  cases text with
  | nil => simp [dropMark]
  | cons c rest =>
    by_cases mark : c = byteOrderMark
    · simp [dropMark, mark]
    · simp [dropMark, mark]

end Bytes

end Unicode
