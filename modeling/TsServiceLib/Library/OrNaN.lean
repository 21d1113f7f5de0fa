import Mathlib

/-!
Values of an ordered type, or NaN. Every comparison with NaN is false, also
that of NaN with itself, so the negation of one comparison is not the other:
`¬ a < b` lets a value through that is not a number. Where none of the values
is NaN the comparisons are those of the type.
-/
namespace Numbers

inductive OrNaN (α : Type*) where
  | num (value : α)
  | nan
  deriving DecidableEq, Inhabited

namespace OrNaN
variable {α β : Type*}

instance : Coe α (OrNaN α) := ⟨num⟩

instance {n : Nat} [OfNat α n] : OfNat (OrNaN α) n := ⟨num (OfNat.ofNat n)⟩

/-- Arithmetic with NaN gives NaN. -/
def map (f : α → β) : OrNaN α → OrNaN β
  | num a => num (f a)
  | nan => nan

/-- The value in the place of a number, and another one in that of NaN. -/
def valueOr (fallback : α) : OrNaN α → α
  | num a => a
  | nan => fallback

theorem num_ne_nan (a : α) : num a ≠ nan := by
  intro same
  cases same

theorem eq_of_values {a b : OrNaN α} {fallback : α} (number : a ≠ nan) (number' : b ≠ nan)
    (same : a.valueOr fallback = b.valueOr fallback) : a = b := by
  cases a with
  | nan => exact absurd rfl number
  | num a =>
    cases b with
    | nan => exact absurd rfl number'
    | num b => exact congrArg num same

section Order
variable [LinearOrder α]

def lt : OrNaN α → OrNaN α → Bool
  | num a, num b => decide (a < b)
  | _, _ => false

def le : OrNaN α → OrNaN α → Bool
  | num a, num b => decide (a ≤ b)
  | _, _ => false

instance : LT (OrNaN α) := ⟨fun a b => a.lt b = true⟩

instance : LE (OrNaN α) := ⟨fun a b => a.le b = true⟩

instance (a b : OrNaN α) : Decidable (a < b) := inferInstanceAs (Decidable (a.lt b = true))

instance (a b : OrNaN α) : Decidable (a ≤ b) := inferInstanceAs (Decidable (a.le b = true))

@[simp] theorem num_lt {a b : α} : num a < num b ↔ a < b := decide_eq_true_iff

@[simp] theorem num_le {a b : α} : num a ≤ num b ↔ a ≤ b := decide_eq_true_iff

theorem not_lt_nan (a : OrNaN α) : ¬ a < nan := by
  cases a <;> exact Bool.false_ne_true

theorem not_nan_le (a : OrNaN α) : ¬ nan ≤ a := Bool.false_ne_true

/-- Numbers are compared by their values, whatever stands for NaN. -/
theorem lt_iff_values {a b : OrNaN α} (number : a ≠ nan) (number' : b ≠ nan) (fallback : α) :
    a < b ↔ a.valueOr fallback < b.valueOr fallback := by
  cases a with
  | nan => exact absurd rfl number
  | num a =>
    cases b with
    | nan => exact absurd rfl number'
    | num b => exact num_lt

theorem lt_of_le {a b c : OrNaN α} (first : a ≤ b) (second : b < c) : a < c := by
  cases a with
  | nan => exact absurd first (not_nan_le b)
  | num a =>
    cases b with
    | nan => exact absurd second Bool.false_ne_true
    | num b =>
      cases c with
      | nan => exact absurd second (not_lt_nan _)
      | num c => exact num_lt.mpr (lt_of_le_of_lt (num_le.mp first) (num_lt.mp second))

/-- A number that is not below another one is at least that. -/
theorem le_of_not_lt {a b : OrNaN α} (number : a ≠ nan) (number' : b ≠ nan) (above : ¬ a < b) : b ≤ a := by
  cases a with
  | nan => exact absurd rfl number
  | num a =>
    cases b with
    | nan => exact absurd rfl number'
    | num b => exact num_le.mpr (not_lt.mp fun below => above (num_lt.mpr below))

end Order

end OrNaN

end Numbers
