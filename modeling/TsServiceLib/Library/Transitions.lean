import Mathlib.Data.List.Basic

/-!
Runs of a partial step function. An action that is not enabled in a state has
no successor. Every rule below carries a side condition on the steps of the
run, so that one induction serves both the unrestricted runs of a system and
the runs whose environment keeps some promise.
-/
namespace Transitions
variable {State Action : Type*}

/-- Zero or more steps, each of them enabled and admitted by `ok`. -/
inductive Steps (step : State → Action → Option State) (ok : State → Action → Prop) :
    State → State → Prop where
  | refl (s : State) : Steps step ok s s
  | tail {s t u : State} {a : Action} (run : Steps step ok s t) (admitted : ok t a)
      (next : step t a = some u) : Steps step ok s u

/-- The side condition that admits every step. -/
def Any (_ : State) (_ : Action) : Prop := True

def exec (step : State → Action → Option State) : State → List Action → Option State
  | s, [] => some s
  | s, a :: rest => (step s a).bind fun t => exec step t rest

/-- Execute actions each of which must pass a check where it is taken. -/
def execWhere (step : State → Action → Option State) (check : State → Action → Bool) :
    State → List Action → Option State
  | s, [] => some s
  | s, a :: rest => if check s a then (step s a).bind fun t => execWhere step check t rest else none

section Runs
variable {step : State → Action → Option State} {ok : State → Action → Prop}

theorem steps_single {s t : State} {a : Action} (admitted : ok s a) (next : step s a = some t) :
    Steps step ok s t :=
  .tail (.refl s) admitted next

theorem steps_trans {s t u : State} (first : Steps step ok s t) (second : Steps step ok t u) :
    Steps step ok s u := by
  induction second with
  | refl => exact first
  | tail _ admitted next ih => exact .tail ih admitted next

theorem steps_mono {weak : State → Action → Prop} (implied : ∀ s a, ok s a → weak s a)
    {s t : State} (run : Steps step ok s t) : Steps step weak s t := by
  induction run with
  | refl => exact .refl _
  | tail _ admitted next ih => exact .tail ih (implied _ _ admitted) next

theorem steps_invariant (Inv : State → Prop)
    (preserved : ∀ s a t, Inv s → ok s a → step s a = some t → Inv t)
    {s t : State} (run : Steps step ok s t) (start : Inv s) : Inv t := by
  induction run with
  | refl => exact start
  | tail _ admitted next ih => exact preserved _ _ _ ih admitted next

theorem exec_steps_of {s t : State} {actions : List Action}
    (admitted : ∀ s, ∀ a ∈ actions, ok s a) (run : exec step s actions = some t) :
    Steps step ok s t := by
  induction actions generalizing s with
  | nil =>
    cases run
    exact .refl _
  | cons a rest ih =>
    obtain ⟨u, next, tail⟩ := Option.bind_eq_some_iff.mp run
    have first := admitted s a List.mem_cons_self
    have later : ∀ s, ∀ a ∈ rest, ok s a := fun s a mem => admitted s a (List.mem_cons_of_mem _ mem)
    exact steps_trans (steps_single first next) (ih later tail)

theorem exec_steps {s t : State} {actions : List Action} (run : exec step s actions = some t) :
    Steps step Any s t :=
  exec_steps_of (fun _ _ _ => trivial) run

theorem execWhere_steps {check : State → Action → Bool} (sound : ∀ s a, check s a = true → ok s a)
    {s t : State} {actions : List Action} (run : execWhere step check s actions = some t) :
    Steps step ok s t := by
  induction actions generalizing s with
  | nil =>
    cases run
    exact .refl _
  | cons a rest ih =>
    simp only [execWhere] at run
    split at run
    · rename_i passed
      obtain ⟨u, next, tail⟩ := Option.bind_eq_some_iff.mp run
      exact steps_trans (steps_single (sound s a passed) next) (ih tail)
    · cases run

/-- The simulation rule: a relation that every step keeps, a run keeps. The
    invariant is what the simulated states are known to satisfy. -/
theorem exec_simulation {State' : Type*} {step' : State' → Action → Option State'}
    (Inv : State → Prop) (R : State → State' → Prop)
    (kept : ∀ s a t, Inv s → step s a = some t → Inv t)
    (matched : ∀ s s' a t, Inv s → R s s' → step s a = some t → ∃ t', step' s' a = some t' ∧ R t t')
    {s t : State} {s' : State'} {actions : List Action} (held : Inv s) (related : R s s')
    (run : exec step s actions = some t) : ∃ t', exec step' s' actions = some t' ∧ R t t' := by
  induction actions generalizing s s' with
  | nil =>
    cases run
    exact ⟨s', rfl, related⟩
  | cons a rest ih =>
    obtain ⟨u, next, tail⟩ := Option.bind_eq_some_iff.mp run
    obtain ⟨u', next', follows⟩ := matched s s' a u held related next
    obtain ⟨t', run', ends⟩ := ih (kept s a u held next) follows tail
    refine ⟨t', ?_, ends⟩
    simp only [exec, next', Option.bind_some]
    exact run'

end Runs

end Transitions
