import Mathlib.Data.Rat.Defs
import Mathlib.Algebra.Order.Ring.Rat
import Mathlib.Order.WithBot

/-!
JavaScript numbers up to rounding: the finite doubles are rationals, the two
zeros are one value, and a comparison with NaN is false. Clock readings and
durations, which are never NaN, are counted in whole ticks of the smallest
double, with Infinity above them.
-/
namespace Numbers

inductive Number where
  | nan
  | negInfinity
  | posInfinity
  | finite (value : ℚ)
  deriving DecidableEq

namespace Number

def maxSafeInteger : Nat := 9007199254740991

def isNaN : Number → Bool
  | nan => true
  | _ => false

def isInteger : Number → Bool
  | finite q => decide (q.den = 1)
  | _ => false

def isSafeInteger : Number → Bool
  | finite q => decide (q.den = 1) && decide (q.num.natAbs ≤ maxSafeInteger)
  | _ => false

/-- The double nearest to a natural number, ties to the even significand. -/
def roundToDouble (n : Nat) : Nat :=
  let unit := 2 ^ (n.log2 - 52)
  let below := n / unit * unit
  if 2 * (n % unit) < unit ∨ (2 * (n % unit) = unit ∧ n / unit % 2 = 0) then below else below + unit

def ofBigint (n : Int) : Number :=
  let rounded := roundToDouble n.natAbs
  if n < 0 then if rounded.log2 < 1024 then finite (-(rounded : ℚ)) else negInfinity
  else if rounded.log2 < 1024 then finite rounded else posInfinity

/-- The exact value of a safe integer, as `BigInt` gives it. -/
def toBigint : Number → Int
  | finite q => q.num
  | _ => 0

/-- The operator `<`. -/
def lt : Number → Number → Bool
  | nan, _ => false
  | _, nan => false
  | finite p, finite q => decide (p < q)
  | negInfinity, negInfinity => false
  | negInfinity, _ => true
  | _, negInfinity => false
  | posInfinity, _ => false
  | finite _, posInfinity => true

/-- The operator `-`. A difference of whole doubles is rounded to a double, any
    other one of finite doubles is left exact. -/
def sub : Number → Number → Number
  | nan, _ => nan
  | _, nan => nan
  | finite p, finite q => if p.den = 1 ∧ q.den = 1 then ofBigint (p.num - q.num) else finite (p - q)
  | posInfinity, posInfinity => nan
  | negInfinity, negInfinity => nan
  | posInfinity, _ => posInfinity
  | negInfinity, _ => negInfinity
  | finite _, posInfinity => negInfinity
  | finite _, negInfinity => posInfinity

/-- The operator `||` on numbers: zero and NaN are falsy. -/
def orElse (a b : Number) : Number := if a = finite 0 ∨ a = nan then b else a

/-- Where a number lies from zero; NaN lies on neither side. -/
def sign (a : Number) : Int := if a.lt (finite 0) then -1 else if (finite 0).lt a then 1 else 0

/-- The place of a number on the extended line; NaN has none and is sent anywhere. -/
def place : Number → WithBot (WithTop ℚ)
  | nan => ⊥
  | negInfinity => ⊥
  | posInfinity => ((⊤ : WithTop ℚ) : WithBot (WithTop ℚ))
  | finite q => ((q : WithTop ℚ) : WithBot (WithTop ℚ))

theorem lt_iff_place {a b : Number} (ha : a.isNaN = false) (hb : b.isNaN = false) :
    a.lt b = true ↔ a.place < b.place := by
  cases a <;> cases b <;> simp_all [isNaN, lt, place]
  exact WithBot.coe_lt_coe.mpr (WithTop.coe_lt_top _)

theorem log2_safe {n : Nat} (safe : n ≤ maxSafeInteger) : n.log2 ≤ 52 := by
  rcases Nat.eq_zero_or_pos n with zero | positive
  · simp [zero]
  · have bound : n < 2 ^ 53 := by
      unfold maxSafeInteger at safe
      omega
    have := (Nat.log2_lt (by omega)).mpr bound
    omega

theorem roundToDouble_safe {n : Nat} (safe : n ≤ maxSafeInteger) : roundToDouble n = n := by
  have small := log2_safe safe
  have exact_unit : n.log2 - 52 = 0 := by omega
  simp [roundToDouble, exact_unit, Nat.mod_one]

theorem roundToDouble_unsafe {n : Nat} (above : maxSafeInteger < n) (sum : n ≤ 2 * maxSafeInteger) :
    maxSafeInteger < roundToDouble n := by
  unfold maxSafeInteger at above sum
  have exponent : n.log2 = 53 := (Nat.log2_eq_iff (by omega)).mpr ⟨by omega, by omega⟩
  have even : maxSafeInteger < n / 2 * 2 := by
    unfold maxSafeInteger
    omega
  simp only [roundToDouble, exponent]
  split
  · exact even
  · exact Nat.lt_of_lt_of_le even (Nat.le_add_right _ _)

theorem ofBigint_safe {n : Int} (low : 0 ≤ n) (high : n ≤ maxSafeInteger) : ofBigint n = finite n := by
  have safe : n.natAbs ≤ maxSafeInteger := by omega
  have back : ((n.natAbs : Nat) : ℚ) = (n : ℚ) := by
    have whole : ((n.natAbs : Nat) : Int) = n := Int.natAbs_of_nonneg low
    rw [← Int.cast_natCast, whole]
  have small := log2_safe safe
  have range : n.natAbs.log2 < 1024 := by omega
  have positive : ¬n < 0 := by omega
  simp only [ofBigint, roundToDouble_safe safe, positive, if_false, range, if_true, back]

theorem ofBigint_exact {n : Int} (safe : n.natAbs ≤ maxSafeInteger) : ofBigint n = finite n := by
  by_cases negative : n < 0
  · have small := log2_safe safe
    have range : n.natAbs.log2 < 1024 := by omega
    have back : ((n.natAbs : Nat) : Int) = -n := by omega
    have cast : ((n.natAbs : Nat) : ℚ) = -(n : ℚ) := by
      rw [← Int.cast_natCast, back, Int.cast_neg]
    simp only [ofBigint, roundToDouble_safe safe, negative, if_true, range, cast, neg_neg]
  · exact ofBigint_safe (by omega) (by omega)

theorem roundToDouble_pos {n : Nat} (positive : 0 < n) : 0 < roundToDouble n := by
  have below : 0 < n / 2 ^ (n.log2 - 52) * 2 ^ (n.log2 - 52) := by
    have power : 0 < 2 ^ (n.log2 - 52) := Nat.pow_pos (by omega)
    have least : 2 ^ n.log2 ≤ n := Nat.log2_self_le (by omega)
    have smaller : 2 ^ (n.log2 - 52) ≤ 2 ^ n.log2 := Nat.pow_le_pow_right (by omega) (by omega)
    exact Nat.mul_pos (Nat.div_pos (by omega) power) power
  simp only [roundToDouble]
  split
  · exact below
  · exact Nat.add_pos_left below _

theorem ofBigint_lt_zero (n : Int) : (ofBigint n).lt (finite 0) = true ↔ n < 0 := by
  have least : (0 : ℚ) ≤ roundToDouble n.natAbs := by exact_mod_cast Nat.zero_le _
  simp only [ofBigint]
  split
  · rename_i negative
    have positive : (0 : ℚ) < roundToDouble n.natAbs := by
      exact_mod_cast roundToDouble_pos (Int.natAbs_pos.mpr (by omega))
    split <;> simp [lt, negative, positive]
  · rename_i nonnegative
    split <;> simp [lt, nonnegative, least]

theorem zero_lt_ofBigint (n : Int) : (finite 0).lt (ofBigint n) = true ↔ 0 < n := by
  have least : (0 : ℚ) ≤ roundToDouble n.natAbs := by exact_mod_cast Nat.zero_le _
  simp only [ofBigint]
  split
  · rename_i negative
    have above : ¬0 < n := by omega
    split <;> simp [lt, above, least]
  · rename_i nonnegative
    split
    · rcases Int.lt_or_eq_of_le (Int.not_lt.mp nonnegative) with positive | zero
      · have rounded : (0 : ℚ) < roundToDouble n.natAbs := by
          exact_mod_cast roundToDouble_pos (Int.natAbs_pos.mpr (by omega))
        simp [lt, positive, rounded]
      · subst zero
        simp [lt, roundToDouble]
    · rename_i large
      have positive : 0 < n := by
        rcases Int.lt_or_eq_of_le (Int.not_lt.mp nonnegative) with positive | zero
        · exact positive
        · subst zero
          simp [roundToDouble] at large
      simp [lt, positive]

/-- A difference lies on the side of zero that a comparison says. -/
theorem sub_sides (a b : Number) :
    ((a.sub b).lt (finite 0) = true ↔ a.lt b = true) ∧ ((finite 0).lt (a.sub b) = true ↔ b.lt a = true) := by
  cases a <;> cases b
  case finite.finite p q =>
    simp only [sub]
    split
    · rename_i whole
      rw [ofBigint_lt_zero, zero_lt_ofBigint, lt, lt, decide_eq_true_iff, decide_eq_true_iff, Rat.lt_iff, Rat.lt_iff,
        whole.1, whole.2]
      omega
    · simp [lt]
  all_goals simp [sub, lt]

/-- Numbers on neither side of zero are the falsy ones. -/
theorem orElse_eq (a b : Number) :
    a.orElse b = if a.lt (finite 0) = true ∨ (finite 0).lt a = true then a else b := by
  unfold orElse
  cases a with
  | finite q =>
    rcases lt_trichotomy q 0 with below | zero | above
    · simp [lt, below, ne_of_lt below]
    · simp [lt, zero]
    · simp [lt, above, ne_of_gt above]
  | nan => simp [lt]
  | negInfinity => simp [lt]
  | posInfinity => simp [lt]

theorem sign_finite (q : ℚ) : (finite q).sign = if q < 0 then -1 else if 0 < q then 1 else 0 := by
  simp only [sign, lt, decide_eq_true_eq]

end Number

inductive Ticks where
  | finite (count : Int)
  | infinity
  deriving DecidableEq, Inhabited

namespace Ticks

instance : Coe Int Ticks := ⟨finite⟩

instance (n : Nat) : OfNat Ticks n := ⟨finite n⟩

def add : Ticks → Ticks → Ticks
  | finite m, finite n => finite (m + n)
  | _, _ => infinity

instance : Add Ticks := ⟨add⟩

/-- The time from a clock reading to this one. -/
def since : Ticks → Int → Ticks
  | finite m, n => finite (m - n)
  | infinity, _ => infinity

def le : Ticks → Ticks → Bool
  | _, infinity => true
  | infinity, finite _ => false
  | finite m, finite n => decide (m ≤ n)

instance : LinearOrder Ticks where
  le a b := a.le b = true
  le_refl a := by cases a <;> simp [le]
  le_trans a b c ab bc := by
    cases a <;> cases b <;> cases c <;> simp_all [le]
    omega
  le_antisymm a b ab ba := by
    cases a <;> cases b <;> simp_all [le]
    omega
  le_total a b := by
    cases a <;> cases b <;> simp [le]
    omega
  toDecidableLE a b := inferInstanceAs (Decidable (a.le b = true))

theorem finite_le_finite {m n : Int} (h : m ≤ n) : (finite m : Ticks) ≤ finite n := by
  have := decide_eq_true h
  exact this

end Ticks

end Numbers
