import TsServiceLib.Library.Transitions
import TsServiceLib.Library.EventLog
import Mathlib.Logic.Function.Basic

/-!
The result of a Kafka or custom request and the callbacks that its handler sets
under message ids. `consumeResult` fetches the callback of a message id and awaits
it; several of them may have fetched one callback, and the handler may set another
under the id meanwhile. A callback that returns true is to be removed, by its
identity. A callback is whatever tells two functions apart.
-/
namespace Sources.ResultCallbacks
open Transitions EventLogs Function

/-- The two sources differ in the events of the span. -/
inductive Kind where
  | kafka | custom
  deriving DecidableEq

/-- A `consumeResult` that awaits the callback it has fetched. -/
structure Call (Id F : Type) where
  number : Nat
  messageId : Id
  callback : F
  deriving DecidableEq

/-- What a result is seen to do; `completed` says what the callback has returned and
    what `remove` has. -/
inductive Entry (Id F : Type) where
  | registered (messageId : Id) (callback : F)
  | fetched (c : Call Id F)
  | completed (c : Call Id F) (returned removed : Bool)
  | failed (c : Call Id F)
  | lateResult
  | unknownMessageId (messageId : Id)
  | duplicateMessageId (c : Call Id F)
  | spanEvent (name : String) (messageId : Option Id)
  deriving DecidableEq

structure Result (Id F : Type) where
  callbacks : Id → Option F := fun _ => none
  retiring : Bool := false
  activeCallbacks : Nat := 0
  running : List (Call Id F) := []
  calls : Nat := 0
  log : List (Entry Id F) := []

inductive Action (Id F : Type) where
  | setResultCallback (messageId : Id) (callback : F)
  | consumeResult (messageId : Option Id)
  | settles (c : Call Id F) (returned : Option Bool)
  | retire

section Operations
variable {Id F : Type} [DecidableEq Id] [DecidableEq F] (kind : Kind)

namespace Result

def note (r : Result Id F) (e : Entry Id F) : Result Id F := { r with log := e :: r.log }

def addEvent (r : Result Id F) (name : String) (messageId : Option Id) : Result Id F :=
  match kind with
  | .kafka => r.note (.spanEvent name messageId)
  | .custom => r

def setResultCallback (r : Result Id F) (messageId : Id) (callback : F) : Result Id F :=
  { r.note (.registered messageId callback) with callbacks := update r.callbacks messageId (some callback) }

def remove (r : Result Id F) (messageId : Id) (callback : F) : Result Id F × Bool :=
  if r.callbacks messageId ≠ some callback then (r, false)
  else ({ r with callbacks := update r.callbacks messageId none }, true)

def beginCallback (r : Result Id F) : Option (Result Id F) :=
  if r.retiring then none else some { r with activeCallbacks := r.activeCallbacks + 1 }

def endCallback (r : Result Id F) : Result Id F := { r with activeCallbacks := r.activeCallbacks - 1 }

def retire (r : Result Id F) : Result Id F := { r with retiring := true }

/-- `consumeResult` of a pending result, until it awaits the callback; there is no
    message id when `getMessageId` throws. -/
def consumeResult (r : Result Id F) (messageId : Option Id) : Result Id F :=
  match r.beginCallback with
  | none => (r.note .lateResult).addEvent kind "late_result" none
  | some begun =>
    match messageId with
    | none => begun.endCallback
    | some id =>
      match begun.callbacks id with
      | none => ((begun.note (.unknownMessageId id)).addEvent kind "unknown_message_id" (some id)).endCallback
      | some callback =>
        let c : Call Id F := ⟨begun.calls, id, callback⟩
        { begun.note (.fetched c) with running := c :: begun.running, calls := begun.calls + 1 }

/-- What follows a callback that has returned true. -/
def finishes (r : Result Id F) (c : Call Id F) : Result Id F :=
  match r.remove c.messageId c.callback with
  | (r, true) => r.note (.completed c true true)
  | (r, false) =>
    ((r.note (.completed c true false)).note (.duplicateMessageId c)).addEvent kind "duplicate_message_id"
      (some c.messageId)

/-- The rest of `consumeResult`; the callback returns nothing when it throws. -/
def settles (r : Result Id F) (c : Call Id F) (returned : Option Bool) : Option (Result Id F) :=
  if c ∈ r.running then
    let resumed : Result Id F := { r with running := r.running.erase c }
    match returned with
    | none => some (resumed.note (.failed c)).endCallback
    | some true => some ((resumed.finishes kind c).addEvent kind "result_consumed" (some c.messageId)).endCallback
    | some false =>
      some ((resumed.note (.completed c false false)).addEvent kind "result_consumed" (some c.messageId)).endCallback
  else none

end Result

def step (r : Result Id F) : Action Id F → Option (Result Id F)
  | .setResultCallback messageId callback => some (r.setResultCallback messageId callback)
  | .consumeResult messageId => some (r.consumeResult kind messageId)
  | .settles c returned => r.settles kind c returned
  | .retire => some r.retire

/-- No callback is set a second time under a message id. -/
def Distinct (r : Result Id F) : Action Id F → Prop
  | .setResultCallback messageId callback => .registered messageId callback ∉ r.log
  | _ => True

instance (r : Result Id F) : (a : Action Id F) → Decidable (Distinct r a)
  | .setResultCallback messageId callback => inferInstanceAs (Decidable (.registered messageId callback ∉ r.log))
  | .consumeResult _ => inferInstanceAs (Decidable True)
  | .settles _ _ => inferInstanceAs (Decidable True)
  | .retire => inferInstanceAs (Decidable True)

def Reached (r : Result Id F) : Prop := Steps (step kind) Distinct {} r

end Operations

section Registrations
variable {Id F : Type}

/-- Nothing has been set under the message id since the callback was. -/
def Newest (log : List (Entry Id F)) (messageId : Id) (callback : F) : Prop :=
  .registered messageId callback ∈ log ∧
    ∀ other, ¬Follows (.registered messageId other) (.registered messageId callback) log

/-- The callback has not returned true from any call that found it under the message id. -/
def Unfinished (log : List (Entry Id F)) (messageId : Id) (callback : F) : Prop :=
  ∀ number removed, .completed ⟨number, messageId, callback⟩ true removed ∉ log

/-- The callback is the one registered under the message id. -/
def Standing (log : List (Entry Id F)) (messageId : Id) (callback : F) : Prop :=
  Newest log messageId callback ∧ Unfinished log messageId callback

end Registrations

end Sources.ResultCallbacks
