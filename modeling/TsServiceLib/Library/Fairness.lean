import Mathlib.Order.WellFounded
import Mathlib.Data.Nat.Init
import TsServiceLib.Library.Transitions

/-!
Endless runs and weak fairness. A duty is a class of actions, such as the start
of one waiting job; a fair run performs every duty that stays enabled. The rule
below is the one used for progress: every state short of the goal names a duty,
performing it lowers a rank, and no other step raises the rank or, leaving the
rank as it is, changes the duty.
-/
namespace Transitions
variable {State Action Duty : Type*}

structure Run (step : State → Action → Option State) (ok : State → Action → Prop) where
  state : Nat → State
  action : Nat → Action
  admitted : ∀ n, ok (state n) (action n)
  next : ∀ n, step (state n) (action n) = some (state (n + 1))

def Enabled (step : State → Action → Option State) (performs : Duty → Action → Prop) (s : State)
    (d : Duty) : Prop :=
  ∃ a t, performs d a ∧ step s a = some t

section Fair
variable {step : State → Action → Option State} {ok : State → Action → Prop}

theorem enabled_of_isSome {performs : Duty → Action → Prop} {s : State} {d : Duty} {a : Action} (does : performs d a)
    (some : (step s a).isSome = true) : Enabled step performs s d := by
  obtain ⟨t, next⟩ := Option.isSome_iff_exists.mp some
  exact ⟨a, t, does, next⟩

def Run.Fair (run : Run step ok) (performs : Duty → Action → Prop) : Prop :=
  ∀ d n, (∀ m, n ≤ m → Enabled step performs (run.state m) d) →
    ∃ m, n ≤ m ∧ performs d (run.action m)

theorem Run.steps (run : Run step ok) (n : Nat) : Steps step ok (run.state 0) (run.state n) := by
  induction n with
  | zero => exact .refl _
  | succ n ih => exact .tail ih (run.admitted n) (run.next n)

theorem stays_until_lower {Rank : Type*} [LT Rank] {rank : State → Rank} {duty : State → Duty}
    {state : Nat → State}
    (unhelpful : ∀ m, rank (state (m + 1)) < rank (state m) ∨
      (rank (state (m + 1)) = rank (state m) ∧ duty (state (m + 1)) = duty (state m)))
    {n : Nat} (never : ∀ m, n ≤ m → ¬ rank (state m) < rank (state n)) (k : Nat) :
    rank (state (n + k)) = rank (state n) ∧ duty (state (n + k)) = duty (state n) := by
  induction k with
  | zero => exact ⟨rfl, rfl⟩
  | succ k ih =>
    rcases unhelpful (n + k) with lower | ⟨same, kept⟩
    · rw [ih.1] at lower
      exact absurd lower (never (n + k + 1) (by omega))
    · exact ⟨same.trans ih.1, kept.trans ih.2⟩

theorem fair_reaches {Rank : Type*} [LT Rank] [WellFoundedLT Rank] {performs : Duty → Action → Prop}
    (Inv Goal : State → Prop) (rank : State → Rank) (duty : State → Duty)
    (preserved : ∀ s a t, Inv s → ¬ Goal s → ok s a → step s a = some t → Goal t ∨ Inv t)
    (enabled : ∀ s, Inv s → ¬ Goal s → Enabled step performs s (duty s))
    (helpful : ∀ s a t, Inv s → ¬ Goal s → ok s a → step s a = some t → performs (duty s) a →
      Goal t ∨ rank t < rank s)
    (others : ∀ s a t, Inv s → ¬ Goal s → ok s a → step s a = some t →
      Goal t ∨ rank t < rank s ∨ (rank t = rank s ∧ duty t = duty s))
    (run : Run step ok) (fair : run.Fair performs) (start : Inv (run.state 0)) :
    ∃ n, Goal (run.state n) := by
  by_contra missed
  have short : ∀ n, ¬ Goal (run.state n) := fun n reached => missed ⟨n, reached⟩
  have inv : ∀ n, Inv (run.state n) := by
    intro n
    induction n with
    | zero => exact start
    | succ n ih =>
      exact (preserved _ _ _ ih (short n) (run.admitted n) (run.next n)).resolve_left (short (n + 1))
  have unhelpful : ∀ m, rank (run.state (m + 1)) < rank (run.state m) ∨
      (rank (run.state (m + 1)) = rank (run.state m) ∧
        duty (run.state (m + 1)) = duty (run.state m)) := by
    intro m
    exact (others _ _ _ (inv m) (short m) (run.admitted m) (run.next m)).resolve_left (short (m + 1))
  have drops : ∀ n, ∃ m, n ≤ m ∧ rank (run.state m) < rank (run.state n) := by
    intro n
    by_contra stuck
    have never : ∀ m, n ≤ m → ¬ rank (run.state m) < rank (run.state n) :=
      fun m le lower => stuck ⟨m, le, lower⟩
    have stays := stays_until_lower unhelpful never
    obtain ⟨m, le, performed⟩ := fair (duty (run.state n)) n (by
      intro m le
      obtain ⟨k, rfl⟩ := Nat.exists_eq_add_of_le le
      rw [← (stays k).2]
      exact enabled _ (inv _) (short _))
    obtain ⟨k, rfl⟩ := Nat.exists_eq_add_of_le le
    rw [← (stays k).2] at performed
    have lower := (helpful _ _ _ (inv _) (short _) (run.admitted _) (run.next _) performed).resolve_left
      (short (n + k + 1))
    rw [(stays k).1] at lower
    exact never (n + k + 1) (by omega) lower
  -- no well-founded rank drops for ever
  have endless : ∀ r n, rank (run.state n) = r → False := by
    intro r
    induction r using WellFoundedLT.induction with
    | ind r ih =>
      intro n here
      obtain ⟨m, _, lower⟩ := drops n
      exact ih _ (here ▸ lower) m rfl
  exact endless _ 0 rfl

end Fair

end Transitions
