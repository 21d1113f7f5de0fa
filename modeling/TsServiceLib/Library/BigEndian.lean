import Mathlib.Algebra.Order.Group.Nat
import Mathlib.Data.List.Induction
import Mathlib.Tactic.Ring

/-!
Natural numbers as bytes of a fixed width, the most significant byte first.
-/
namespace BigEndian

def toBytes : Nat → Nat → List UInt8
  | 0, _ => []
  | width + 1, n => toBytes width (n / 256) ++ [UInt8.ofNat n]

def ofBytes (bytes : List UInt8) : Nat := bytes.foldl (fun n byte => n * 256 + byte.toNat) 0

@[simp] theorem length_toBytes (width n : Nat) : (toBytes width n).length = width := by
  induction width generalizing n with
  | zero => rfl
  | succ width ih => simp [toBytes, ih]

theorem ofBytes_concat (bytes : List UInt8) (byte : UInt8) :
    ofBytes (bytes ++ [byte]) = ofBytes bytes * 256 + byte.toNat := by
  simp [ofBytes]

/-- Reading what was written gives the number up to the width. -/
theorem ofBytes_toBytes (width n : Nat) : ofBytes (toBytes width n) = n % 256 ^ width := by
  induction width generalizing n with
  | zero => simp [toBytes, ofBytes, Nat.mod_one]
  | succ width ih =>
    have byte : (UInt8.ofNat n).toNat = n % 256 := UInt8.toNat_ofNat'
    rw [toBytes, ofBytes_concat, ih, byte, Nat.pow_succ', Nat.mod_mul]
    ring

theorem ofBytes_toBytes_of_lt {width n : Nat} (fits : n < 256 ^ width) : ofBytes (toBytes width n) = n := by
  rw [ofBytes_toBytes, Nat.mod_eq_of_lt fits]

theorem ofBytes_cons (byte : UInt8) (bytes : List UInt8) :
    ofBytes (byte :: bytes) = byte.toNat * 256 ^ bytes.length + ofBytes bytes := by
  induction bytes using List.reverseRecOn with
  | nil => simp [ofBytes]
  | append_singleton bytes last ih =>
    rw [← List.cons_append, ofBytes_concat, ofBytes_concat, ih, List.length_append, List.length_singleton, Nat.pow_succ]
    ring

theorem ofBytes_lt (bytes : List UInt8) : ofBytes bytes < 256 ^ bytes.length := by
  induction bytes with
  | nil => simp [ofBytes]
  | cons byte bytes ih =>
    have small : byte.toNat < 256 := byte.toNat_lt
    have room : byte.toNat * 256 ^ bytes.length + 256 ^ bytes.length ≤ 256 * 256 ^ bytes.length := by
      rw [← Nat.succ_mul]
      exact Nat.mul_le_mul_right _ small
    rw [ofBytes_cons, List.length_cons, Nat.pow_succ']
    omega

theorem ofBytes_injective {a b : List UInt8} (length : a.length = b.length) (same : ofBytes a = ofBytes b) : a = b := by
  induction a generalizing b with
  | nil => exact (List.eq_nil_of_length_eq_zero length.symm).symm
  | cons x a ih =>
    cases b with
    | nil => cases length
    | cons y b =>
      have size : a.length = b.length := by simpa using length
      have first := ofBytes_lt a
      have second := ofBytes_lt b
      rw [ofBytes_cons, ofBytes_cons, size] at same
      rw [size] at first
      have positive : 0 < 256 ^ b.length := Nat.pow_pos (by decide)
      have heads : x.toNat = y.toNat := by
        have left := Nat.mul_add_div positive x.toNat (ofBytes a)
        have right := Nat.mul_add_div positive y.toNat (ofBytes b)
        rw [Nat.div_eq_of_lt first, Nat.mul_comm] at left
        rw [Nat.div_eq_of_lt second, Nat.mul_comm] at right
        rw [← same] at right
        omega
      rw [heads] at same
      rw [UInt8.toNat_inj.mp heads, ih size (by omega)]

/-- Byte strings of one length compare as the numbers they stand for. -/
theorem lt_iff_ofBytes_lt {a b : List UInt8} (length : a.length = b.length) : a < b ↔ ofBytes a < ofBytes b := by
  induction a generalizing b with
  | nil =>
    rw [List.eq_nil_of_length_eq_zero length.symm]
    simp
  | cons x a ih =>
    cases b with
    | nil => cases length
    | cons y b =>
      have size : a.length = b.length := by simpa using length
      have first := ofBytes_lt a
      have second := ofBytes_lt b
      rw [List.cons_lt_cons_iff, ih size, ofBytes_cons, ofBytes_cons, size]
      rw [size] at first
      rcases Nat.lt_trichotomy x.toNat y.toNat with below | same | above
      · have room : x.toNat * 256 ^ b.length + 256 ^ b.length ≤ y.toNat * 256 ^ b.length := by
          rw [← Nat.succ_mul]
          exact Nat.mul_le_mul_right _ below
        have less : x < y := UInt8.lt_iff_toNat_lt.mpr below
        simp only [less, true_or, true_iff]
        omega
      · rw [UInt8.toNat_inj.mp same]
        simp
      · have room : y.toNat * 256 ^ b.length + 256 ^ b.length ≤ x.toNat * 256 ^ b.length := by
          rw [← Nat.succ_mul]
          exact Nat.mul_le_mul_right _ above
        have greater : ¬x < y := by
          rw [UInt8.lt_iff_toNat_lt]
          omega
        have apart : x ≠ y := by
          intro same
          rw [same] at above
          omega
        simp only [greater, apart, false_and, or_self, false_iff]
        omega

end BigEndian
