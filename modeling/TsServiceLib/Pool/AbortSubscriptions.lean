import TsServiceLib.Library.Transitions
import TsServiceLib.Library.EventLog
import Mathlib.Logic.Function.Basic
import Mathlib.Algebra.GroupWithZero.Nat

/-!
`subscribeAbort` for one signal. The callbacks that are subscribed share a record
with one listener on the signal; the record is dropped when the last of them is
gone, and the next subscription makes a new one. The listener goes through the
callbacks while these may unsubscribe one another: what has been deleted before
its turn is passed over. An `advance` is one turn of the abort event.
-/
namespace Pools.AbortSubscriptions
open Transitions EventLogs Function

inductive Entry (C : Type) where
  | subscribed (c : C)
  | unsubscribed (c : C)
  | aborted
  | notified (c : C)
  deriving DecidableEq

/-- An abort event in progress: the listeners to call, and for the one at work
    the callbacks of its record that it has not come to. -/
structure Dispatch (C : Type) where
  queue : List Nat
  notifying : Option (Nat × List C) := none
  deriving DecidableEq

/-- A record is named by its number, and so is its listener. An unsubscribe function
    closes over a record and a callback. -/
structure State (C : Type) where
  aborted : Bool := false
  subscription : Option Nat := none
  records : Nat → List C := fun _ => []
  made : Nat := 0
  listeners : List Nat := []
  dispatch : Option (Dispatch C) := none
  handed : List (Option Nat × C) := []
  log : List (Entry C) := []

section Operations
variable {C : Type} [DecidableEq C] (s : State C)

/-- `current.callbacks.add(callback)` -/
def State.join (record : Nat) (c : C) : State C :=
  { s with
    records := update s.records record
      (if c ∈ s.records record then s.records record else s.records record ++ [c])
    handed := (some record, c) :: s.handed
    log := .subscribed c :: s.log }

def subscribeAbort (c : C) : State C :=
  if s.aborted then
    -- the callback is called at once, and the function returned does nothing
    { s with handed := (none, c) :: s.handed, log := .notified c :: .subscribed c :: s.log }
  else
    match s.subscription with
    | some record => s.join record c
    | none =>
      ({ s with
          subscription := some s.made
          made := s.made + 1
          records := update s.records s.made []
          listeners := s.listeners ++ [s.made] } : State C).join s.made c

/-- An element that is deleted from a set is not come to any more. -/
def Dispatch.forget (d : Dispatch C) (record : Nat) (c : C) : Dispatch C :=
  { d with notifying := d.notifying.map fun n => if n.1 = record then (n.1, n.2.erase c) else n }

/-- A listener that is removed is not called any more. -/
def Dispatch.skip (d : Dispatch C) (record : Nat) : Dispatch C := { d with queue := d.queue.filter (· ≠ record) }

/-- The function returned by `subscribeAbort`. -/
def unsubscribe : Option Nat → C → State C
  | none, c => { s with log := .unsubscribed c :: s.log }
  | some record, c =>
    let deleted : State C :=
      { s with
        records := update s.records record ((s.records record).erase c)
        dispatch := s.dispatch.map (·.forget record c)
        log := .unsubscribed c :: s.log }
    if (s.records record).erase c = [] then
      { deleted with
        listeners := s.listeners.filter (· ≠ record)
        dispatch := deleted.dispatch.map (·.skip record)
        subscription := if s.subscription = some record then none else s.subscription }
    else deleted

def abort : State C :=
  { s with aborted := true, dispatch := some { queue := s.listeners }, log := .aborted :: s.log }

/-- One turn of the event: a listener is called and removed, a callback is called, the
    set is cleared at the end, and the event is over. -/
def advance : Option (State C) :=
  match s.dispatch with
  | none => none
  | some { queue, notifying := some (record, c :: rest) } =>
    some { s with dispatch := some { queue, notifying := some (record, rest) }, log := .notified c :: s.log }
  | some { queue, notifying := some (record, []) } =>
    some { s with dispatch := some { queue }, records := update s.records record [] }
  | some { queue := record :: queue, notifying := none } =>
    some { s with
           listeners := s.listeners.filter (· ≠ record)
           subscription := none
           dispatch := some { queue, notifying := some (record, s.records record) } }
  | some { queue := [], notifying := none } => some { s with dispatch := none }

end Operations

inductive Action (C : Type) where
  | subscribe (c : C)
  | unsubscribe (record : Option Nat) (c : C)
  | abort
  | advance

section Model
variable {C : Type} [DecidableEq C]

def step (s : State C) : Action C → Option (State C)
  | .subscribe c => some (subscribeAbort s c)
  | .unsubscribe record c => if (record, c) ∈ s.handed then some (unsubscribe s record c) else none
  | .abort => if s.aborted then none else some (abort s)
  | .advance => advance s

/-- No callback is subscribed a second time. -/
def Distinct (s : State C) : Action C → Prop
  | .subscribe c => .subscribed c ∉ s.log
  | _ => True

instance (s : State C) : (a : Action C) → Decidable (Distinct s a)
  | .subscribe c => inferInstanceAs (Decidable (.subscribed c ∉ s.log))
  | .unsubscribe _ _ => inferInstanceAs (Decidable True)
  | .abort => inferInstanceAs (Decidable True)
  | .advance => inferInstanceAs (Decidable True)

def Reached (s : State C) : Prop := Steps step Distinct {} s

/-- The subscription has been made, and not been given up. -/
def Live (s : State C) (c : C) : Prop := .subscribed c ∈ s.log ∧ .unsubscribed c ∉ s.log

instance (s : State C) (c : C) : Decidable (Live s c) :=
  inferInstanceAs (Decidable (.subscribed c ∈ s.log ∧ .unsubscribed c ∉ s.log))

/-- The callbacks that the event has still to come to. -/
def ahead (s : State C) : List C :=
  match s.dispatch with
  | none => []
  | some d => (d.notifying.elim [] Prod.snd) ++ d.queue.flatMap s.records

/-- A bound on the turns that the event has still to take. -/
def work (s : State C) : Nat :=
  match s.dispatch with
  | none => 0
  | some d =>
    1 + 2 * d.queue.length + (d.queue.map fun record => (s.records record).length).sum +
      match d.notifying with
      | none => 0
      | some (_, waiting) => 1 + waiting.length

end Model

end Pools.AbortSubscriptions
