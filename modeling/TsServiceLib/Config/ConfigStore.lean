import Mathlib.Data.List.Basic

/-!
The store of the current configuration. Validators run before a candidate is
swapped in and observers after it, and any of them may throw, so a publication
can end in three places. How the registered callbacks answer a call is given
with the call: a callback that fails now may have no fault at the next one.
-/
namespace ConfigStores

/-- Callbacks are referred to by number, in the order of their sets. -/
structure RuntimeConfigStore (C : Type) where
  current : C
  validators : List Nat := []
  listeners : List Nat := []

/-- What each callback throws when it is called, if it throws. -/
structure Responses (C E : Type) where
  validator : Nat → C → C → Option E
  listener : Nat → C → Option E

variable {C E : Type}

def subscribe (s : RuntimeConfigStore C) (listener : Nat) : RuntimeConfigStore C :=
  if listener ∈ s.listeners then s else { s with listeners := s.listeners ++ [listener] }

def unsubscribe (s : RuntimeConfigStore C) (listener : Nat) : RuntimeConfigStore C :=
  { s with listeners := s.listeners.filter (· ≠ listener) }

def validate (s : RuntimeConfigStore C) (validator : Nat) : RuntimeConfigStore C :=
  if validator ∈ s.validators then s else { s with validators := s.validators ++ [validator] }

def removeValidator (s : RuntimeConfigStore C) (validator : Nat) : RuntimeConfigStore C :=
  { s with validators := s.validators.filter (· ≠ validator) }

/-- How a call of `publish` ended: `error` is what it threw, `observed` the
    listeners that were called with the candidate. -/
structure Publication (C E : Type) where
  store : RuntimeConfigStore C
  error : Option E
  observed : List Nat

/-- The first error of the validators, in order. -/
def runValidators (r : Responses C E) (config current : C) (validators : List Nat) : Option E :=
  validators.findSome? fun validator => r.validator validator config current

/-- The loop over the listeners; the first that throws ends it. -/
def notify (r : Responses C E) (config : C) : List Nat → List Nat × Option E
  | [] => ([], none)
  | listener :: rest =>
    match r.listener listener config with
    | some error => ([listener], some error)
    | none => (listener :: (notify r config rest).1, (notify r config rest).2)

def publish (r : Responses C E) (s : RuntimeConfigStore C) (config : C) : Publication C E :=
  match runValidators r config s.current s.validators with
  | some error => ⟨s, some error, []⟩
  | none =>
    let notified := notify r config s.listeners
    ⟨{ s with current := config }, notified.2, notified.1⟩

/-- How a call of `reload` settled: with a boolean, or with what `onRejected` threw. -/
inductive Reload (E : Type) where
  | returned (published : Bool)
  | rejected (error : E)
  deriving DecidableEq

def rejectedWith (onRejected : E → Option E) (error : E) : Reload E :=
  match onRejected error with
  | some other => .rejected other
  | none => .returned false

/-- `load` is what the loader promised; the hooks return what they throw. -/
def reload (r : Responses C E) (s : RuntimeConfigStore C) (load : Except E C) (onPublished : C → Option E)
    (onRejected : E → Option E) : Reload E × RuntimeConfigStore C :=
  match load with
  | .error error => (rejectedWith onRejected error, s)
  | .ok candidate =>
    let published := publish r s candidate
    match published.error.or (if published.error.isSome then none else onPublished candidate) with
    | some error => (rejectedWith onRejected error, published.store)
    | none => (.returned true, published.store)

/-- The publication has taken place for everybody, or for nobody. -/
def Atomic (s : RuntimeConfigStore C) (config : C) (p : Publication C E) : Prop :=
  (p.error = none ∧ p.store.current = config ∧ p.observed = s.listeners) ∨
    (p.error ≠ none ∧ p.store.current = s.current ∧ p.observed = [])

def TurnedDown (r : Responses C E) (s : RuntimeConfigStore C) (config : C) : Prop :=
  ∃ validator ∈ s.validators, r.validator validator config s.current ≠ none

/-- The first error thrown after the swap, by a listener or by the hook. -/
def afterSwap (r : Responses C E) (s : RuntimeConfigStore C) (onPublished : C → Option E) (config : C) : Option E :=
  (s.listeners.findSome? fun listener => r.listener listener config).or (onPublished config)

section Laws
variable {r : Responses C E} {s : RuntimeConfigStore C} {config : C}

theorem runValidators_none :
    runValidators r config s.current s.validators = none ↔ ¬TurnedDown r s config := by
  simp [runValidators, TurnedDown]

theorem notify_error (listeners : List Nat) :
    (notify r config listeners).2 = listeners.findSome? fun listener => r.listener listener config := by
  induction listeners with
  | nil => rfl
  | cons listener rest ih =>
    simp only [notify, List.findSome?_cons]
    cases r.listener listener config with
    | none => exact ih
    | some error => rfl

/-- A loop that no listener ends has called them all. -/
theorem notify_all {listeners : List Nat} (quiet : (notify r config listeners).2 = none) :
    (notify r config listeners).1 = listeners := by
  induction listeners with
  | nil => rfl
  | cons listener rest ih =>
    simp only [notify] at quiet ⊢
    cases here : r.listener listener config with
    | none =>
      rw [here] at quiet
      simp only at quiet ⊢
      rw [ih quiet]
    | some error =>
      rw [here] at quiet
      cases quiet

theorem notify_some {listeners : List Nat} (failed : (notify r config listeners).2 ≠ none) :
    (notify r config listeners).1 ≠ [] := by
  cases listeners with
  | nil => exact absurd rfl failed
  | cons listener rest =>
    simp only [notify]
    cases r.listener listener config <;> nofun

theorem publish_turnedDown (down : TurnedDown r s config) :
    (publish r s config).store = s ∧ (publish r s config).error ≠ none ∧ (publish r s config).observed = [] := by
  unfold publish
  cases found : runValidators r config s.current s.validators with
  | none => exact absurd down (runValidators_none.mp found)
  | some error => exact ⟨rfl, nofun, rfl⟩

theorem publish_swapped (passed : ¬TurnedDown r s config) :
    publish r s config = ⟨{ s with current := config }, (notify r config s.listeners).2, (notify r config s.listeners).1⟩ := by
  unfold publish
  rw [runValidators_none.mpr passed]

theorem publish_atomic :
    Atomic s config (publish r s config) ↔
      TurnedDown r s config ∨ ∀ listener ∈ s.listeners, r.listener listener config = none := by
  have silent : (notify r config s.listeners).2 = none ↔ ∀ listener ∈ s.listeners, r.listener listener config = none := by
    rw [notify_error, List.findSome?_eq_none_iff]
  by_cases down : TurnedDown r s config
  · obtain ⟨store, error, observed⟩ := publish_turnedDown down
    exact iff_of_true (.inr ⟨error, by rw [store], observed⟩) (.inl down)
  · rw [publish_swapped down, ← silent, or_iff_right down]
    constructor
    · intro atomic
      rcases atomic with ⟨quiet, _, _⟩ | ⟨failed, _, unseen⟩
      · exact quiet
      · exact absurd unseen (notify_some failed)
    · intro quiet
      exact .inl ⟨quiet, rfl, notify_all quiet⟩

theorem rejectedWith_false {onRejected : E → Option E} {error : E} :
    rejectedWith onRejected error = .returned false ↔ onRejected error = none := by
  unfold rejectedWith
  cases onRejected error <;> simp

theorem reload_swapped {onPublished : C → Option E} {onRejected : E → Option E} (passed : ¬TurnedDown r s config) :
    reload r s (.ok config) onPublished onRejected =
      (match afterSwap r s onPublished config with
        | some error => rejectedWith onRejected error
        | none => .returned true, { s with current := config }) := by
  simp only [reload, publish_swapped passed, notify_error, afterSwap]
  cases s.listeners.findSome? fun listener => r.listener listener config with
  | some error => rfl
  | none => cases onPublished config <;> rfl

end Laws

/- A publication is atomic exactly if a validator turns the candidate down or no
   listener throws. A reload that reports a rejection has left the current
   configuration alone exactly if nothing throws after the swap, unless the
   candidate was current already or the hook for rejections throws too. -/
theorem publication_atomic (r : Responses C E) (s : RuntimeConfigStore C) (config : C) (load : Except E C)
    (onPublished : C → Option E) (onRejected : E → Option E) :
    (Atomic s config (publish r s config) ↔
      TurnedDown r s config ∨ ∀ listener ∈ s.listeners, r.listener listener config = none) ∧
    (((reload r s load onPublished onRejected).1 = .returned false →
        (reload r s load onPublished onRejected).2.current = s.current) ↔
      ∀ candidate error, load = .ok candidate → ¬TurnedDown r s candidate →
        afterSwap r s onPublished candidate = some error → candidate = s.current ∨ onRejected error ≠ none) := by
  refine ⟨publish_atomic, ?_⟩
  cases load with
  | error failure => exact iff_of_true (fun _ => rfl) nofun
  | ok candidate =>
    by_cases down : TurnedDown r s candidate
    · obtain ⟨store, failed, _⟩ := publish_turnedDown down
      obtain ⟨error, thrown⟩ := Option.ne_none_iff_exists'.mp failed
      apply iff_of_true
      · intro _
        simp only [reload, thrown, Option.some_or, store]
      · intro other error same passed
        cases same
        exact absurd down passed
    · rw [reload_swapped down]
      cases thrown : afterSwap r s onPublished candidate with
      | none =>
        apply iff_of_true
        · nofun
        · intro other error same _ found
          cases same
          rw [thrown] at found
          cases found
      | some error =>
        simp only [rejectedWith_false]
        constructor
        · intro kept other error' same _ found
          cases same
          rw [thrown] at found
          cases found
          by_cases accepted : onRejected error = none
          · exact .inl (kept accepted)
          · exact .inr accepted
        · intro condition accepted
          rcases condition candidate error rfl down thrown with same | refused
          · exact same
          · exact absurd accepted refused

/-- A listener throws: the candidate is current and the next listener has not
    seen it, yet the reload is reported as rejected. -/
theorem publication_torn :
    ∃ (r : Responses Nat String) (s : RuntimeConfigStore Nat),
      s = subscribe (subscribe { current := 1 } 0) 1 ∧ ¬Atomic s 2 (publish r s 2) ∧
      (publish r s 2).observed = [0] ∧
      reload r s (.ok 2) (fun _ => none) (fun _ => none) = (.returned false, { s with current := 2 }) := by
  let r : Responses Nat String :=
    ⟨fun _ _ _ => none, fun listener _ => if listener = 0 then some "resize failed" else none⟩
  refine ⟨r, _, rfl, ?_, by rfl, by rfl⟩
  intro atomic
  rcases publish_atomic.mp atomic with ⟨validator, mem, _⟩ | silent
  · cases mem
  · exact absurd (silent 0 (by decide)) (by decide)

end ConfigStores
