import Mathlib.Data.List.TakeWhile
import TsServiceLib.Context.ContextDerivation

/-!
Numbers as the text of a header, and the text read back: `String` of a number
or of a bigint, `Number.parseInt` with radix ten, and `BigInt` of a text.
-/
namespace HeaderTexts
open Numbers ContextDerivations

/-- `String` of a number. How a number is written that is not a whole one below
    10^21 is left to `fraction`. -/
def numberText (fraction : ℚ → String) : Number → String
  | .nan => "NaN"
  | .posInfinity => "Infinity"
  | .negInfinity => "-Infinity"
  | .finite q => if q.den = 1 ∧ q.num.natAbs < 10 ^ 21 then toString q.num else fraction q

def signed : List Char → Int × List Char
  | '-' :: rest => (-1, rest)
  | '+' :: rest => (1, rest)
  | rest => (1, rest)

def parseInt (text : String) : Number :=
  let parts := signed (text.toList.dropWhile isTrimmed)
  match parts.2.takeWhile Char.isDigit with
  | [] => .nan
  | digits => .ofBigint (parts.1 * Nat.ofDigitChars 10 digits 0)

def trim (text : List Char) : List Char := ((text.dropWhile isTrimmed).reverse.dropWhile isTrimmed).reverse

/-- The radix that a letter behind a leading zero stands for. -/
def radixOf (letter : Char) : Option Nat :=
  if letter = 'x' ∨ letter = 'X' then some 16
  else if letter = 'o' ∨ letter = 'O' then some 8
  else if letter = 'b' ∨ letter = 'B' then some 2
  else none

def prefixed : List Char → Option (Nat × List Char)
  | '0' :: letter :: digits => (radixOf letter).map fun radix => (radix, digits)
  | _ => none

def radixDigits (radix : Nat) (digits : List Char) : Option Nat :=
  if digits = [] then none
  else digits.foldlM (fun value c => (hexValue c).bind fun digit =>
    if digit < radix then some (value * radix + digit) else none) 0

/-- `BigInt` of a text; it throws where there is none. -/
def parseBigint (text : String) : Option Int :=
  match trim text.toList with
  | [] => some 0
  | trimmed =>
    match prefixed trimmed with
    | some (radix, digits) => (radixDigits radix digits).map Int.ofNat
    | none =>
      let parts := signed trimmed
      if parts.2 ≠ [] ∧ parts.2.all Char.isDigit then some (parts.1 * Nat.ofDigitChars 10 parts.2 0) else none

theorem digit_range {c : Char} (digit : c.isDigit = true) : 48 ≤ c.toNat ∧ c.toNat ≤ 57 := by
  simp only [Char.isDigit, Bool.and_eq_true, decide_eq_true_eq] at digit
  exact ⟨digit.1, digit.2⟩

theorem digit_kept {c : Char} (digit : c.isDigit = true) : isTrimmed c = false := by
  obtain ⟨low, high⟩ := digit_range digit
  have first : ¬c.toNat ≤ 13 := by omega
  have second : ¬0x2000 ≤ c.toNat := by omega
  simp only [isTrimmed, Bool.or_eq_false_iff, Bool.and_eq_false_iff, decide_eq_false_iff_not, first, second,
    not_false_eq_true, or_true, true_or, true_and, List.contains_eq_mem, List.mem_cons, List.not_mem_nil, or_false, not_or]
  omega

theorem minus_kept : isTrimmed '-' = false := by decide

theorem int_text (n : Int) :
    (toString n).toList = (if n < 0 then ['-'] else []) ++ Nat.toDigits 10 n.natAbs := by
  cases n with
  | ofNat m => exact String.toList_ofList
  | negSucc m =>
    have negative : Int.negSucc m < 0 := Int.negSucc_lt_zero m
    rw [if_pos negative]
    change ("-" ++ Nat.repr (m + 1)).toList = _
    rw [String.toList_append, Nat.toList_repr]
    rfl

theorem digits_all (m : Nat) : ∀ c ∈ Nat.toDigits 10 m, c.isDigit = true := by
  intro c mem
  exact Nat.isDigit_of_mem_toDigits (by decide) (by decide) mem

theorem text_kept (n : Int) : ∀ c ∈ (toString n).toList, isTrimmed c = false := by
  intro c mem
  rw [int_text, List.mem_append] at mem
  rcases mem with sign | digit
  · split at sign
    · rw [List.mem_singleton.mp sign]
      exact minus_kept
    · cases sign
  · exact digit_kept (digits_all n.natAbs c digit)

theorem drop_kept {text : List Char} (kept : ∀ c ∈ text, isTrimmed c = false) : text.dropWhile isTrimmed = text := by
  cases text with
  | nil => rfl
  | cons c rest => exact List.dropWhile_cons_of_neg (by simp [kept c List.mem_cons_self])

theorem trim_kept {text : List Char} (kept : ∀ c ∈ text, isTrimmed c = false) : trim text = text := by
  have back : ∀ c ∈ text.reverse, isTrimmed c = false := fun c mem => kept c (List.mem_reverse.mp mem)
  rw [trim, drop_kept kept, drop_kept back, List.reverse_reverse]

theorem signed_digits {digits : List Char} (all : ∀ c ∈ digits, c.isDigit = true) : signed digits = (1, digits) := by
  cases digits with
  | nil => rfl
  | cons c rest =>
    have digit := all c List.mem_cons_self
    unfold signed
    split
    · rename_i same
      rw [(List.cons.inj same).1] at digit
      exact absurd digit (by decide)
    · rename_i same
      rw [(List.cons.inj same).1] at digit
      exact absurd digit (by decide)
    · rfl

theorem signed_text (n : Int) :
    ∃ sign, signed (toString n).toList = (sign, Nat.toDigits 10 n.natAbs) ∧ sign * (n.natAbs : Int) = n := by
  rw [int_text]
  by_cases negative : n < 0
  · rw [if_pos negative]
    refine ⟨-1, rfl, ?_⟩
    omega
  · rw [if_neg negative]
    refine ⟨1, signed_digits (digits_all n.natAbs), ?_⟩
    omega

theorem take_digits {digits : List Char} (all : ∀ c ∈ digits, c.isDigit = true) :
    digits.takeWhile Char.isDigit = digits := List.takeWhile_eq_self_iff.mpr all

theorem parseInt_text (n : Int) : parseInt (toString n) = .ofBigint n := by
  obtain ⟨sign, parts, value⟩ := signed_text n
  have digits := take_digits (digits_all n.natAbs)
  have some_digit : Nat.toDigits 10 n.natAbs ≠ [] := Nat.toDigits_ne_nil
  rw [parseInt, drop_kept (text_kept n), parts]
  dsimp only
  rw [digits]
  split
  · rename_i empty
    exact absurd empty some_digit
  · rw [Nat.ofDigitChars_ten_toDigits, value]

/-- No letter of another radix is among the signs and digits. -/
theorem text_plain (n : Int) : prefixed (toString n).toList = none := by
  rw [int_text]
  split
  · rfl
  · rw [List.nil_append]
    have all := digits_all n.natAbs
    unfold prefixed
    split
    · rename_i letter digits same
      rw [same] at all
      have digit := all letter (by simp)
      have letters : radixOf letter = none := by
        obtain ⟨low, high⟩ := digit_range digit
        have other : ∀ c : Char, 57 < c.toNat → letter ≠ c := by
          intro c above equal
          rw [equal] at high
          omega
        simp [radixOf, other 'x' (by decide), other 'X' (by decide), other 'o' (by decide), other 'O' (by decide),
          other 'b' (by decide), other 'B' (by decide)]
      rw [letters]
      rfl
    · rfl

theorem parseBigint_text (n : Int) : parseBigint (toString n) = some n := by
  obtain ⟨sign, parts, value⟩ := signed_text n
  have some_digit : Nat.toDigits 10 n.natAbs ≠ [] := Nat.toDigits_ne_nil
  have all : (Nat.toDigits 10 n.natAbs).all Char.isDigit = true := List.all_eq_true.mpr (digits_all n.natAbs)
  rw [parseBigint, trim_kept (text_kept n)]
  split
  · rename_i empty
    rw [empty] at parts
    exact absurd (congrArg Prod.snd parts).symm some_digit
  · rw [text_plain n]
    dsimp only
    rw [parts, if_pos ⟨some_digit, all⟩, Nat.ofDigitChars_ten_toDigits, value]

/-- A safe integer is written with its digits, and read back. -/
theorem parseInt_numberText (fraction : ℚ → String) {n : Number} (safe : n.isSafeInteger = true) :
    parseInt (numberText fraction n) = n := by
  cases n with
  | finite q =>
    simp only [Number.isSafeInteger, Bool.and_eq_true, decide_eq_true_eq] at safe
    obtain ⟨whole, bound⟩ := safe
    have short : q.num.natAbs < 10 ^ 21 := by
      unfold Number.maxSafeInteger at bound
      omega
    have value : (q.num : ℚ) = q := Rat.coe_int_num_of_den_eq_one whole
    rw [numberText, if_pos ⟨whole, short⟩, parseInt_text, Number.ofBigint_exact bound, value]
  | nan => cases safe
  | posInfinity => cases safe
  | negInfinity => cases safe

end HeaderTexts
