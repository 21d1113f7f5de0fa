import TsServiceLib.Store.JoinLedger

/-!
The join operators over their storage, `JoinStream` and `MultiJoinStream`. The
storage calls the operator back with the values of a group; the operator calls
the user's function or, when a side that it needs is empty, answers false at
once. The join type is read from the live configuration at every callback.
Values are erased, as in the storage: the left ones are in slot zero.
-/
namespace JoinStreams
open JoinStorage TailChain Numbers Function

inductive JoinType where
  | inner
  | left
  | right
  | outer
  deriving DecidableEq

section Gates
variable {V : Type}

/-- `canCall` of `JoinStream.callFunction`. -/
def canCall (joinType : JoinType) (values : List (List V)) : Bool :=
  let left := slot values 0
  let right := slot values 1
  (joinType = .inner && 0 < left.length && 0 < right.length) ||
    (joinType = .left && 0 < left.length) ||
    (joinType = .right && 0 < right.length) ||
    joinType = .outer

/-- What an operator asks before it calls its function. -/
inductive Gate where
  | join (joinType : JoinType)
  | multiJoin

def Gate.opens : Gate → List (List V) → Bool
  | .join joinType, values => canCall joinType values
  | .multiJoin, values => decide ((slot values 0).length ≠ 0)

/-- The slots whose values the function of the operator is to see together with
    the left ones. -/
def Gate.joins : Gate → Nat → Prop
  | .join _, index => index = 1
  | .multiJoin, _ => True

theorem opens_of_both {gate : Gate} {values : List (List V)} {index : Nat} (joined : gate.joins index)
    (left : 0 < (slot values 0).length) (right : 0 < (slot values index).length) :
    gate.opens values = true := by
  cases gate with
  | join joinType =>
    have second : index = 1 := joined
    subst index
    cases joinType <;> simp [Gate.opens, canCall, left, right]
  | multiJoin =>
    have given : (slot values 0).length ≠ 0 := by omega
    simp [Gate.opens, given]

end Gates

/-- A call of the user's function: the storage operation that made it, its
    group, the key of the closure, and the values as they were. -/
structure FunctionCall (K V : Type) where
  operation : Nat
  item : Nat
  key : K
  gate : Gate
  values : List (List V)

/-- `called` tells of an operation in its callback whether the function was
    called there. The newest call of the function is the first. -/
structure State (K V : Type) where
  storage : JoinStorage.State K V
  gate : Gate
  linkCount : Nat
  called : Nat → Bool := fun _ => false
  functionCalls : List (FunctionCall K V) := []

inductive Action (K V : Type) where
  | consume (context : Context) (key : K) (value : V)
  | consumeRight (context : Context) (index : Nat) (key : K) (value : V)
  | bindMultiJoinRight
  | configure (joinType : JoinType)
  | functionSettles (operation : Nat) (outcome : CallbackOutcome)
  | functionSkipped (operation : Nat)
  | startOperation (operation : Nat)
  | storage (action : JoinStorage.Action K V)

/-- What goes on in the storage without a message and without a callback. -/
def internal {K V : Type} : JoinStorage.Action K V → Bool
  | .joinValue .. | .startOperation _ | .callbackReturns .. => false
  | _ => true

section Steps
variable {K V : Type} [DecidableEq K]

def capturedKey (storage : JoinStorage.State K V) (operation : Nat) : K :=
  match (storage.operations operation).body with
  | .join call => (storage.calls call).key
  | .expire _ => (storage.items (storage.chain.lane operation)).key

/-- The storage calls back: `callFunction`, or the closure of the multi-join. -/
def enterCallback (s : State K V) (storage : JoinStorage.State K V) (operation : Nat) : State K V :=
  let item := storage.chain.lane operation
  let values := (storage.items item).values
  let opened := s.gate.opens values
  { s with
    storage := storage
    called := update s.called operation opened
    functionCalls :=
      if opened then ⟨operation, item, capturedKey storage operation, s.gate, values⟩ :: s.functionCalls
      else s.functionCalls }

def startOperation (s : State K V) (operation : Nat) : Option (State K V) :=
  (JoinStorage.step s.storage (.startOperation operation)).map fun storage =>
    if (storage.operations operation).stage = .inCallback then enterCallback s storage operation
    else { s with storage := storage }

/-- A step of the storage that the operator does not take part in. -/
def inStorage (s : State K V) (action : JoinStorage.Action K V) : Option (State K V) :=
  (JoinStorage.step s.storage action).map fun storage => { s with storage := storage }

/-- A `JoinStream` has one right link, with index one. The right links of a
    `MultiJoinStream` are bound one after the other. -/
def step (s : State K V) : Action K V → Option (State K V)
  | .consume context key value => inStorage s (.joinValue context key (.finite 0) value)
  | .consumeRight context index key value =>
    if 1 ≤ index ∧ index ≤ s.linkCount then inStorage s (.joinValue context key (.finite index) value) else none
  | .bindMultiJoinRight =>
    match s.gate with
    | .multiJoin => some { s with linkCount := s.linkCount + 1 }
    | .join _ => none
  | .configure joinType =>
    match s.gate with
    | .join _ => some { s with gate := .join joinType }
    | .multiJoin => none
  | .functionSettles operation outcome =>
    if s.called operation then inStorage s (.callbackReturns operation outcome) else none
  | .functionSkipped operation =>
    if s.called operation then none else inStorage s (.callbackReturns operation (.returned false))
  | .startOperation operation => startOperation s operation
  | .storage action => if internal action then inStorage s action else none

/-- An operator just made, with the storage it was given. -/
def initial (storage : JoinStorage.State K V) : Option JoinType → State K V
  | some joinType => { storage := storage, gate := .join joinType, linkCount := 1 }
  | none => { storage := storage, gate := .multiJoin, linkCount := 0 }

def Reached [Inhabited K] [Inhabited V] (s : State K V) : Prop :=
  ∃ storage joinType, JoinStorage.Initial storage ∧ Transitions.Steps step Transitions.Any (initial storage joinType) s

end Steps

end JoinStreams
