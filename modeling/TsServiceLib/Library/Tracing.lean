import Mathlib.Data.List.Basic

/-!
Computations that may fail and leave a record of what they did, also where they
fail. What such a computation gives is that of the same one without the record.
-/
namespace Tracing
variable {Event Error α β : Type}

structure Traced (Event Error α : Type) where
  result : Except Error α
  events : List Event

instance : Monad (Traced Event Error) where
  pure x := ⟨.ok x, []⟩
  bind x f :=
    match x.result with
    | .error failure => ⟨.error failure, x.events⟩
    | .ok a => ⟨(f a).result, x.events ++ (f a).events⟩

def emit (event : Event) : Traced Event Error Unit := ⟨.ok (), [event]⟩

/-- A step that leaves nothing on the record. -/
def lift (result : Except Error α) : Traced Event Error α := ⟨result, []⟩

section Laws
variable {x : Traced Event Error α} {f : α → Traced Event Error β}

@[simp] theorem result_pure (a : α) : (pure a : Traced Event Error α).result = .ok a := rfl

@[simp] theorem result_lift (result : Except Error α) : (lift result : Traced Event Error α).result = result := rfl

@[simp] theorem events_lift (result : Except Error α) : (lift result : Traced Event Error α).events = [] := rfl

@[simp] theorem result_bind : (x >>= f).result = x.result >>= fun a => (f a).result := by
  obtain ⟨result, events⟩ := x
  cases result with
  | error failure => rfl
  | ok a => rfl

theorem events_ok {a : α} (done : x.result = .ok a) : (x >>= f).events = x.events ++ (f a).events := by
  obtain ⟨result, events⟩ := x
  subst done
  rfl

theorem events_error {failure : Error} (failed : x.result = .error failure) : (x >>= f).events = x.events := by
  obtain ⟨result, events⟩ := x
  subst failed
  rfl

/-- What is made of a result at once is made without a record. -/
theorem events_pure_bind (g : α → β) : (x >>= fun a => pure (g a)).events = x.events := by
  obtain ⟨result, events⟩ := x
  cases result with
  | error failure => rfl
  | ok a => exact List.append_nil events

end Laws

end Tracing
