import TsServiceLib.Library.Number
import TsServiceLib.Library.OrNaN
import TsServiceLib.Library.OrderedMap
import TsServiceLib.Library.TailChain
import TsServiceLib.Library.Transitions

/-!
The event-loop join storage, `HashMapJoinStorage`. A group is an item of the
heap; `joinValue` calls, item operations and deadline registrations are
records of their own, because their closures outlive the maps that hold the
item. One action is one synchronous piece of JavaScript: the interleavings of
the storage are the runs of `step`.

Both clocks are moved by the environment, and a timer may fire at any moment,
early ones included. User callbacks do not write to the arrays they are given.
-/
namespace JoinStorage
open OrderedMaps TailChain Numbers Function

abbrev Ms := Ticks

/-- A time or a duration that a context gives. A context takes any number for its
    deadline, NaN too. -/
abbrev Reading := OrNaN Ms

/-- `ttl > 0 ? Date.now() + ttl : undefined` -/
def Reading.deadlineAt (now : Int) : Reading → Option Ms
  | .num ttl => if 0 < ttl then some ((now : Ms) + ttl) else none
  | .nan => none

theorem reading_pos {ttl : Ms} : (0 : Reading) < .num ttl ↔ 0 < ttl := OrNaN.num_lt

theorem deadlineAt_none {now : Int} {ttl : Reading} (late : ¬ 0 < ttl) : ttl.deadlineAt now = none := by
  cases ttl with
  | num ttl => exact if_neg fun above => late (reading_pos.mpr above)
  | nan => rfl

theorem deadlineAt_isSome {now : Int} {ttl : Reading} (positive : 0 < ttl) : (ttl.deadlineAt now).isSome = true := by
  cases ttl with
  | num ttl => simp [Reading.deadlineAt, reading_pos.mp positive]
  | nan => exact absurd positive (OrNaN.not_lt_nan 0)

/-- The part of a `MessageContext` that the storage reads. -/
structure Context where
  signal : Nat
  deadline : Option Reading
  deriving Inhabited

/-- `Math.max(0, deadline - contextNow())` of a deadline; NaN of NaN. -/
def Context.remainingMs (contextNow : Int) (context : Context) : Option Reading :=
  context.deadline.map (OrNaN.map fun d => max 0 (d.since contextNow))

inductive Location where
  | current
  | previous
  deriving DecidableEq

inductive JoinError where
  | indexRange
  | arrayLength
  | callbackFailed
  deriving DecidableEq

inductive CallbackOutcome where
  | returned (processed : Bool)
  | threw
  deriving DecidableEq

/-- The settlement of the promise a `joinValue` call awaits in its loop. -/
inductive OperationResult where
  | value (joined : Bool)
  | rejected (error : JoinError)
  deriving DecidableEq

inductive Phase where
  | entering
  | awaiting (operation : Nat)
  | resuming (result : OperationResult)
  | returned
  | rejected (error : JoinError)
  deriving DecidableEq, Inhabited

/-- One `joinValue` call. `configuredTTL` and `iterations` are history: the
    value `ttlMs()` had when the call was made, and the passes of its loop. -/
structure Call (K V : Type) where
  context : Context
  key : K
  index : Nat
  value : V
  ttl : Reading
  renewTTL : Bool
  phase : Phase
  configuredTTL : Ms
  iterations : Nat
  deriving Inhabited

/-- A group. Its `tail` is kept in the chain of operations, under the lane of
    the item; `key` is what the closures over the item captured. -/
structure Item (K V : Type) where
  key : K
  values : List (List V)
  deadlineCallback : Nat
  deadline : Option Ms
  processed : Bool
  cancelDeadline : Option Nat
  deriving Inhabited

/-- The variables of one `armDeadline` call: a timer, or an abort listener when
    the context has a deadline, and the `retired` flag of its closures. -/
structure Arm (K : Type) where
  context : Context
  key : K
  item : Nat
  armed : Bool
  retired : Bool
  deriving Inhabited

inductive Body where
  | join (call : Nat)
  | expire (arm : Nat)
  deriving DecidableEq

/-- Where a running operation stands: inside its callback, or past it with the
    continuation of the `await` still to run. -/
inductive Stage where
  | idle
  | inCallback
  | returned (outcome : CallbackOutcome)
  deriving DecidableEq

structure Operation where
  body : Body
  stage : Stage

inductive Event (V : Type) where
  | appended (call item index : Nat) (value : V) (deadline : Option Ms) (now : Int)
  | joinStarted (operation item : Nat)
  | joinReturned (operation item : Nat) (outcome : CallbackOutcome)
  | deadlineStarted (operation item : Nat)
  | deadlineReturned (operation item : Nat) (outcome : CallbackOutcome)

structure State (K V : Type) where
  current : OrderedMap K Nat
  previous : OrderedMap K Nat
  items : Nat → Item K V
  nextItem : Nat
  arms : Nat → Arm K
  nextArm : Nat
  operations : Nat → Operation
  chain : Chain Nat
  calls : Nat → Call K V
  nextCall : Nat
  aborted : Nat → Bool
  now : Int
  contextNow : Int
  ttlMs : Ms
  renewTTL : Bool
  metricsEnabled : Bool
  count : Int
  evictionsTotal : Nat
  highWaterMark : Nat
  rotationTimer : Bool
  started : Bool
  stopped : Bool
  activeTTLJoins : Int
  /-- `some true` once the promise of `stop` has resolved. -/
  stopCompletion : Option Bool
  releaseStop : Bool
  /-- Newest event first. -/
  history : List (Event V)

def shrinkFactor : Nat := 4

/-- The largest length of a JavaScript array. -/
def maxArrayLength : Nat := 4294967295

/-- `Number.isSafeInteger(index) && index >= 0`, with the slot it selects. -/
def slotIndex : Number → Option Nat
  | .finite q => if (Number.finite q).isSafeInteger && decide (0 ≤ q.num) then some q.num.toNat else none
  | _ => none

namespace State
variable {K V : Type} [DecidableEq K]

def size (s : State K V) : Nat := s.current.size + s.previous.size

def effectiveTTL (s : State K V) (context : Context) : Reading :=
  (context.remainingMs s.contextNow).getD s.ttlMs

def expired (s : State K V) (item : Nat) : Bool :=
  match (s.items item).deadline with
  | none => false
  | some deadline => decide (deadline ≤ s.now)

def findLive (s : State K V) (key : K) : Option Nat :=
  match s.current.get key with
  | some item => if s.expired item then none else some item
  | none =>
    match s.previous.get key with
    | some item => if s.expired item then none else some item
    | none => none

def locate (s : State K V) (key : K) (item : Nat) : Option Location :=
  if s.current.get key = some item then some .current
  else if s.previous.get key = some item then some .previous
  else none

/-- `item.tail = item.tail.then(operation)`. -/
def enqueue (s : State K V) (item : Nat) (body : Body) : State K V :=
  { s with
    operations := update s.operations s.chain.next ⟨body, .idle⟩
    chain := s.chain.attach item }

/-- The registration behind `item.cancelDeadline` is retired, unless it already was. -/
def cancelledArms (s : State K V) (item : Nat) : Nat → Arm K :=
  match (s.items item).cancelDeadline with
  | none => s.arms
  | some arm =>
    if (s.arms arm).retired then s.arms
    else update s.arms arm { s.arms arm with armed := false, retired := true }

/-- `item.cancelDeadline()`: the closure that the last `armDeadline` installed. -/
def cancelDeadline (s : State K V) (item : Nat) : State K V :=
  { s with arms := s.cancelledArms item }

/-- The `expire` closure of one `armDeadline` call. -/
def expire (s : State K V) (arm : Nat) : State K V :=
  if (s.arms arm).retired then s
  else (s.cancelDeadline (s.arms arm).item).enqueue (s.arms arm).item (.expire arm)

/-- What both branches of `armDeadline` install. The delay of the timer is left
    out, since timers fire when the environment says so. -/
def register (s : State K V) (context : Context) (key : K) (item : Nat) : State K V :=
  { s with
    arms := update s.arms s.nextArm ⟨context, key, item, true, false⟩
    nextArm := s.nextArm + 1
    items := update s.items item { s.items item with cancelDeadline := some s.nextArm } }

def armDeadline (s : State K V) (context : Context) (key : K) (item : Nat) : State K V :=
  if context.deadline.isSome && s.aborted context.signal then
    (s.register context key item).expire s.nextArm
  else s.register context key item

def generation (s : State K V) : Location → OrderedMap K Nat
  | .current => s.current
  | .previous => s.previous

def removeAt (s : State K V) (key : K) (item : Nat) (location : Location) (evict : Bool) :
    State K V :=
  if (s.generation location).get key = some item then
    { s with
      current := if location = .current then s.current.delete key else s.current
      previous := if location = .previous then s.previous.delete key else s.previous
      count := if s.metricsEnabled then s.count - 1 else s.count
      evictionsTotal := if s.metricsEnabled && evict then s.evictionsTotal + 1 else s.evictionsTotal }
  else s

def setPhase (s : State K V) (call : Nat) (phase : Phase) : State K V :=
  { s with calls := update s.calls call { s.calls call with phase := phase } }

/-- The new item of a call whose key has no live group. -/
def newItem (s : State K V) (call : Nat) : Item K V where
  key := (s.calls call).key
  values := List.replicate ((s.calls call).index + 1) []
  deadlineCallback := call
  deadline := (s.calls call).ttl.deadlineAt s.now
  processed := false
  cancelDeadline := none

def insertItem (s : State K V) (call : Nat) : State K V :=
  let key := (s.calls call).key
  { s with
    items := update s.items s.nextItem (s.newItem call)
    nextItem := s.nextItem + 1
    previous := s.previous.delete key
    current := s.current.set key s.nextItem
    count := if s.metricsEnabled then
        s.count - (if s.previous.has key then 1 else 0) + (if s.current.has key then 0 else 1)
      else s.count }

/-- The item created is `s.nextItem`. -/
def createItem (s : State K V) (call : Nat) : State K V :=
  if 0 < (s.calls call).ttl then
    (s.insertItem call).armDeadline (s.calls call).context (s.calls call).key s.nextItem
  else s.insertItem call

/-- The body of the loop from `item.tail.then` to the `await`. -/
def joinItem (s : State K V) (call item : Nat) : State K V :=
  let queued := s.enqueue item (.join call)
  { queued with
    calls := update s.calls call
      { s.calls call with
        phase := .awaiting s.chain.next
        iterations := (s.calls call).iterations + 1 } }

/-- The `finally` block of a call with a TTL; the last one releases a pending `stop`. -/
def endTTLJoin (s : State K V) : State K V :=
  let active := s.activeTTLJoins - 1
  { s with
    activeTTLJoins := active
    stopCompletion := if active = 0 ∧ s.releaseStop = true then some true else s.stopCompletion
    releaseStop := if active = 0 then false else s.releaseStop }

def leave (s : State K V) (call : Nat) (phase : Phase) : State K V :=
  if 0 < (s.calls call).ttl then (s.setPhase call phase).endTTLJoin else s.setPhase call phase

/-- One pass of the retry loop. `Array.from` refuses a group that would need
    more slots than an array can have. -/
def iterate (s : State K V) (call : Nat) : State K V :=
  match s.findLive (s.calls call).key with
  | some item => s.joinItem call item
  | none =>
    if maxArrayLength < (s.calls call).index + 1 then s.leave call (.rejected .arrayLength)
    else (s.createItem call).joinItem call s.nextItem

def setActive (s : State K V) (active : Int) : State K V := { s with activeTTLJoins := active }

/-- The record of a new call, with what it reads before its loop. -/
def enterCall (s : State K V) (context : Context) (key : K) (slot : Nat) (value : V)
    (phase : Phase) : State K V :=
  { s with
    calls := update s.calls s.nextCall
      { context := context, key := key, index := slot, value := value
        ttl := s.effectiveTTL context, renewTTL := s.renewTTL, phase := phase
        configuredTTL := s.ttlMs, iterations := 0 }
    nextCall := s.nextCall + 1 }

def joinValue (s : State K V) (context : Context) (key : K) (index : Number) (value : V) :
    State K V :=
  match slotIndex index with
  | none => s.enterCall context key 0 value (.rejected .indexRange)
  | some slot =>
    let entered := s.enterCall context key slot value .entering
    if 0 < s.effectiveTTL context then
      if s.stopCompletion.isSome then entered
      else (entered.setActive (s.activeTTLJoins + 1)).iterate s.nextCall
    else entered.iterate s.nextCall

/-- A call that met a `stop` goes on when the promise of that `stop` resolves. -/
def enter (s : State K V) (call : Nat) : Option (State K V) :=
  if call < s.nextCall ∧ (s.calls call).phase = .entering ∧ s.stopCompletion = some true then
    some ((s.setActive (s.activeTTLJoins + 1)).iterate call)
  else none

def setItem (s : State K V) (item : Nat) (content : Item K V) : State K V :=
  { s with items := update s.items item content }

def setStage (s : State K V) (operation : Nat) (stage : Stage) : State K V :=
  { s with operations := update s.operations operation { s.operations operation with stage := stage } }

def record (s : State K V) (event : Event V) : State K V :=
  { s with history := event :: s.history }

def begin (s : State K V) (operation : Nat) : State K V :=
  { s with chain := s.chain.start operation }

def settle (s : State K V) (operation : Nat) : State K V :=
  { s with chain := s.chain.settle operation }

def settleJoin (s : State K V) (operation call : Nat) (result : OperationResult) : State K V :=
  (s.settle operation).setPhase call (.resuming result)

/-- `while (values.length <= index) values.push([])`, as far as an array grows. -/
def padValues (values : List (List V)) (index : Nat) : List (List V) :=
  values ++ List.replicate (min (index + 1) maxArrayLength - values.length) []

def pushValue (values : List (List V)) (index : Nat) (value : V) : List (List V) :=
  (padValues values index).modify index (· ++ [value])

def setValues (s : State K V) (item : Nat) (values : List (List V)) : State K V :=
  s.setItem item { s.items item with values := values }

def setProcessed (s : State K V) (item : Nat) (processed : Bool) : State K V :=
  s.setItem item { s.items item with processed := processed }

/-- `item.processed || this.expired(item) || currentLocation === undefined` -/
def refuses (s : State K V) (call item : Nat) : Bool :=
  (s.items item).processed || s.expired item || (s.locate (s.calls call).key item).isNone

/-- The value goes into its slot and the callback of the call is entered. -/
def appendValue (s : State K V) (operation call item : Nat) : State K V :=
  ((((s.begin operation).setValues item
    (pushValue (s.items item).values (s.calls call).index (s.calls call).value)).setStage
      operation .inCallback).record
        (.appended call item (s.calls call).index (s.calls call).value (s.items item).deadline
          s.now)).record (.joinStarted operation item)

def startJoin (s : State K V) (operation call item : Nat) : State K V :=
  if s.refuses call item then (s.begin operation).settleJoin operation call (.value false)
  else if maxArrayLength ≤ (s.calls call).index then
    ((s.begin operation).setValues item
      (padValues (s.items item).values (s.calls call).index)).settleJoin operation call
        (.rejected .arrayLength)
  else s.appendValue operation call item

/-- An early wake-up of a renewed item arms again for the time that remains;
    a deadline of the context is absolute. -/
def wakesEarly (s : State K V) (arm item : Nat) : Bool :=
  (s.arms arm).context.deadline.isNone &&
    (s.items item).deadline.any fun deadline => decide ((s.now : Ms) < deadline)

def rearm (s : State K V) (arm item : Nat) : State K V :=
  (s.cancelDeadline item).armDeadline (s.arms arm).context (s.arms arm).key item

/-- The group is processed and its deadline callback is entered. -/
def enterDeadline (s : State K V) (operation item : Nat) : State K V :=
  (((s.begin operation).setProcessed item true).setStage operation .inCallback).record
    (.deadlineStarted operation item)

def startExpire (s : State K V) (operation arm item : Nat) : State K V :=
  if (s.items item).processed then (s.begin operation).settle operation
  else if s.wakesEarly arm item then ((s.begin operation).rearm arm item).settle operation
  else s.enterDeadline operation item

def startOperation (s : State K V) (operation : Nat) : Option (State K V) :=
  if s.chain.ready operation then
    match (s.operations operation).body with
    | .join call => some (s.startJoin operation call (s.chain.lane operation))
    | .expire arm => some (s.startExpire operation arm (s.chain.lane operation))
  else none

/-- The promise of the callback settles; its continuation has yet to run. -/
def callbackReturns (s : State K V) (operation : Nat) (outcome : CallbackOutcome) :
    Option (State K V) :=
  let item := s.chain.lane operation
  if operation < s.chain.next ∧ s.chain.status operation = .running ∧
      (s.operations operation).stage = .inCallback then
    match (s.operations operation).body with
    | .join _ => some ((s.setStage operation (.returned outcome)).record
        (.joinReturned operation item outcome))
    | .expire _ => some ((s.setStage operation (.returned outcome)).record
        (.deadlineReturned operation item outcome))
  else none

def republish (s : State K V) (call item : Nat) (location : Location) : State K V :=
  let renewing := s.calls call
  { s with
    previous := if location = .previous then s.previous.delete renewing.key else s.previous
    items := update s.items item
      { s.items item with deadline := renewing.ttl.deadlineAt s.now }
    current := s.current.set renewing.key item }

def renew (s : State K V) (call item : Nat) (location : Location) : State K V :=
  ((s.republish call item location).cancelDeadline item).armDeadline (s.calls call).context
    (s.calls call).key item

/-- What the join operation does with its item after `await callback(item.values)`. -/
def concludeJoin (s : State K V) (call item : Nat) (processed : Bool) : State K V :=
  match s.locate (s.calls call).key item with
  | none => s
  | some location =>
    if processed then
      (s.cancelDeadline item).removeAt (s.calls call).key item location false
    else if (s.calls call).renewTTL && decide (0 < (s.calls call).ttl) then
      s.renew call item location
    else s

def continueJoin (s : State K V) (operation call item : Nat) (processed : Bool) : State K V :=
  ((s.setProcessed item processed).concludeJoin call item processed).settleJoin operation call
    (.value true)

/-- The `finally` block of the expiry operation. -/
def concludeExpire (s : State K V) (arm item : Nat) : State K V :=
  match s.locate (s.arms arm).key item with
  | none => s
  | some location => s.removeAt (s.arms arm).key item location true

def continueExpire (s : State K V) (operation arm item : Nat) : State K V :=
  (s.concludeExpire arm item).settle operation

def continueOperation (s : State K V) (operation : Nat) : Option (State K V) :=
  let item := s.chain.lane operation
  if operation < s.chain.next ∧ s.chain.status operation = .running then
    match (s.operations operation).stage, (s.operations operation).body with
    | .returned (.returned processed), .join call =>
      some (s.continueJoin operation call item processed)
    | .returned .threw, .join call =>
      some (s.settleJoin operation call (.rejected .callbackFailed))
    | .returned _, .expire arm => some (s.continueExpire operation arm item)
    | _, _ => none
  else none

/-- The `joinValue` call goes on after `await operation`. -/
def resume (s : State K V) (call : Nat) : Option (State K V) :=
  if call < s.nextCall then
    match (s.calls call).phase with
    | .resuming (.value true) => some (s.leave call .returned)
    | .resuming (.value false) => some (s.iterate call)
    | .resuming (.rejected error) => some (s.leave call (.rejected error))
    | _ => none
  else none

def disarm (s : State K V) (arm : Nat) : State K V :=
  { s with arms := update s.arms arm { s.arms arm with armed := false } }

/-- A timer fires, or the dispatch of an abort reaches a listener. -/
def fire (s : State K V) (arm : Nat) : Option (State K V) :=
  if arm < s.nextArm ∧ (s.arms arm).armed = true ∧ ((s.arms arm).context.deadline.isSome = true →
      s.aborted (s.arms arm).context.signal = true) then some ((s.disarm arm).expire arm)
  else none

def armRotation (s : State K V) : State K V :=
  { s with rotationTimer := !s.stopped && decide (0 < s.ttlMs) }

/-- The entries of the previous generation whose key is not in the current one. -/
def rescued (s : State K V) : List (K × Nat) :=
  s.previous.entries.filter fun e => !s.current.has e.1

def shouldRotate (s : State K V) : Bool :=
  decide (s.highWaterMark = 0) || decide (s.size * shrinkFactor < s.highWaterMark)

def evicted (s : State K V) : Nat := s.previous.size - s.rescued.length

def swapGenerations (s : State K V) : State K V :=
  { s with
    highWaterMark := s.size
    previous := s.current.setAll s.rescued
    current := .empty
    count := if s.metricsEnabled && decide (0 < s.evicted) then s.count - s.evicted else s.count
    evictionsTotal :=
      if s.metricsEnabled && decide (0 < s.evicted) then s.evictionsTotal + s.evicted
      else s.evictionsTotal }

def rotate (s : State K V) : State K V :=
  if s.shouldRotate then s.swapGenerations
  else { s with highWaterMark := max s.highWaterMark s.size }

/-- A second `start`, or one after `stop`, throws and changes nothing. -/
def start (s : State K V) : State K V :=
  if s.stopped || s.started then s else { s with started := true }.armRotation

def stop (s : State K V) : State K V :=
  if s.stopCompletion.isSome then s
  else
    { s with
      stopped := true
      rotationTimer := false
      stopCompletion := some (decide (s.activeTTLJoins = 0))
      releaseStop := decide (s.activeTTLJoins ≠ 0) }

end State

inductive Action (K V : Type) where
  | joinValue (context : Context) (key : K) (index : Number) (value : V)
  | enter (call : Nat)
  | startOperation (operation : Nat)
  | callbackReturns (operation : Nat) (outcome : CallbackOutcome)
  | continueOperation (operation : Nat)
  | resume (call : Nat)
  | fire (arm : Nat)
  | abort (signal : Nat)
  | clock (now contextNow : Int)
  | configure (ttlMs : Ms) (renewTTL : Bool)
  | start
  | stop
  | rotationTimer

section Runs
variable {K V : Type} [DecidableEq K]

def step (s : State K V) : Action K V → Option (State K V)
  | .joinValue context key index value => some (s.joinValue context key index value)
  | .enter call => s.enter call
  | .startOperation operation => s.startOperation operation
  | .callbackReturns operation outcome => s.callbackReturns operation outcome
  | .continueOperation operation => s.continueOperation operation
  | .resume call => s.resume call
  | .fire arm => s.fire arm
  | .abort signal => some { s with aborted := update s.aborted signal true }
  | .clock now contextNow => some { s with now := now, contextNow := contextNow }
  | .configure ttlMs renewTTL => some { s with ttlMs := ttlMs, renewTTL := renewTTL }
  | .start => some s.start
  | .stop => some s.stop
  | .rotationTimer => if s.rotationTimer then some s.rotate.armRotation else none

/-- A storage just constructed, under any configuration, clocks and signals. -/
def initial [Inhabited K] [Inhabited V] (ttlMs : Ms) (renewTTL metricsEnabled : Bool)
    (now contextNow : Int) (aborted : Nat → Bool) : State K V where
  current := .empty
  previous := .empty
  items := fun _ => default
  nextItem := 0
  arms := fun _ => default
  nextArm := 0
  operations := fun _ => ⟨.join 0, .idle⟩
  chain := .empty 0
  calls := fun _ => default
  nextCall := 0
  aborted := aborted
  now := now
  contextNow := contextNow
  ttlMs := ttlMs
  renewTTL := renewTTL
  metricsEnabled := metricsEnabled
  count := 0
  evictionsTotal := 0
  highWaterMark := 0
  rotationTimer := false
  started := false
  stopped := false
  activeTTLJoins := 0
  stopCompletion := none
  releaseStop := false
  history := []

def Initial [Inhabited K] [Inhabited V] (s : State K V) : Prop :=
  ∃ ttlMs renewTTL metricsEnabled now contextNow aborted,
    s = initial ttlMs renewTTL metricsEnabled now contextNow aborted

/-- Reached from a fresh storage by steps that the condition admits. -/
def ReachableWith [Inhabited K] [Inhabited V] (ok : State K V → Action K V → Prop)
    (s : State K V) : Prop :=
  ∃ s₀, Initial s₀ ∧ Transitions.Steps step ok s₀ s

abbrev Reachable [Inhabited K] [Inhabited V] (s : State K V) : Prop :=
  ReachableWith Transitions.Any s

end Runs

end JoinStorage
