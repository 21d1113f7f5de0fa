import Mathlib.Data.List.Basic

/-!
Computations on a state that may throw, and then leave what they have changed
so far. What holds between the states before and after each part of one holds
between those before and after the whole, wherever it stops.
-/
namespace Effects
variable {S X A B : Type}

/-- The state that is left, with a result or with an error. -/
def final : EStateM.Result X S A → S
  | .ok _ s => s
  | .error _ s => s

def Moves (R : S → S → Prop) (m : EStateM X S A) : Prop := ∀ s, R s (final (m s))

variable {R : S → S → Prop}

theorem moves_pure (refl : ∀ s, R s s) (a : A) : Moves R (pure a : EStateM X S A) := refl

theorem moves_throw (refl : ∀ s, R s s) (x : X) : Moves R (throw x : EStateM X S A) := refl

theorem moves_bind (trans : ∀ s t u, R s t → R t u → R s u) {m : EStateM X S A} {next : A → EStateM X S B}
    (first : Moves R m) (later : ∀ a, Moves R (next a)) : Moves R (m >>= next) := by
  intro s
  have here := first s
  change R s (final (EStateM.bind m next s))
  unfold EStateM.bind
  cases run : m s with
  | ok a t =>
    rw [run] at here
    exact trans _ _ _ here (later a t)
  | error x t =>
    rw [run] at here
    exact here

theorem moves_forM (refl : ∀ s, R s s) (trans : ∀ s t u, R s t → R t u → R s u) {items : List A}
    {each : A → EStateM X S Unit} (one : ∀ a ∈ items, Moves R (each a)) : Moves R (items.forM each) := by
  induction items with
  | nil => exact refl
  | cons a rest ih =>
    have first := one a List.mem_cons_self
    have later := ih fun b mem => one b (List.mem_cons_of_mem a mem)
    exact moves_bind trans first fun _ => later

theorem moves_get (refl : ∀ s, R s s) : Moves R (get : EStateM X S S) := refl

end Effects
