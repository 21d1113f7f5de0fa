import Mathlib.Algebra.Order.Floor.Ring
import Mathlib.Data.Rat.Floor
import TsServiceLib.Library.Number

/-!
Abort signals, the timers that abort them, and the two ways to make a signal
from others. An abort event goes through the listeners that a signal had when
it was aborted, one after the other, and one that has been removed meanwhile is
passed over. A listener may abort another signal, whose event is then gone
through first, so the events in progress form a stack. Times are in
milliseconds; sums and differences of times are left exact.
-/
namespace AbortSignals
open Numbers

/-- Why a signal was aborted: the timer of the signal `child` fired, which made
    a `ContextDeadlineExceededError`, or the owner of a controller gave a reason. -/
inductive Reason (E : Type) where
  | exceeded (child : Nat)
  | given (reason : E)
  deriving DecidableEq

inductive Origin where
  | root
  | composed (parent : Nat) (deadline : Number) (due : ℚ)
  | combined (sources : List Nat)
  deriving DecidableEq

def Origin.sources : Origin → List Nat
  | .root => []
  | .composed parent _ _ => [parent]
  | .combined sources => sources

/-- A listener is named by the signal that it aborts. `armed` is whether the
    timer of the signal is running. Two fields are history: `born` is the source
    that was found aborted when the signal was made, and `wave` counts the
    aborts of controllers by their owners and by timers, up to the one that
    aborted this signal. -/
structure Signal (E : Type) where
  origin : Origin
  reason : Option (Reason E) := none
  armed : Bool := false
  listeners : List Nat := []
  born : Option Nat := none
  wave : Nat := 0
  deriving DecidableEq

/-- What is left to do of an abort in progress: listeners to call, or the
    listeners of a combined signal to remove. -/
inductive Frame where
  | dispatch (signal : Nat) (remaining : List Nat)
  | cleanup (child : Nat)
  deriving DecidableEq

structure World (E : Type) where
  now : ℚ := 0
  count : Nat := 0
  signal : Nat → Signal E := fun _ => { origin := .root }
  stack : List Frame := []
  waves : Nat := 0

/-- The longest timeout that the platform takes; it puts 1 for any other. -/
def timeoutMax : ℚ := 2147483647

def platformDelay : Number → ℚ
  | .finite delay => if 1 ≤ delay ∧ delay ≤ timeoutMax then delay else 1
  | _ => 1

/-- `Math.max(0, Math.ceil(deadline - contextNow()))` -/
def timeUntil : Number → ℚ → Number
  | .finite deadline, now => .finite (max 0 ⌈deadline - now⌉)
  | .posInfinity, _ => .posInfinity
  | .negInfinity, _ => .finite 0
  | .nan, _ => .nan

section Operations
variable {E : Type} (w : World E)

def World.aborted (signal : Nat) : Bool := (w.signal signal).reason.isSome

def World.sources (signal : Nat) : List Nat := (w.signal signal).origin.sources

def World.update (signal : Nat) (change : Signal E → Signal E) : World E :=
  { w with signal := Function.update w.signal signal (change (w.signal signal)) }

/-- A new signal; its number is the count before. -/
def create (signal : Signal E) : World E :=
  { w with signal := Function.update w.signal w.count signal, count := w.count + 1 }

def addListener (signal child : Nat) : World E :=
  w.update signal fun s => { s with listeners := s.listeners ++ [child] }

def removeListener (signal child : Nat) : World E :=
  w.update signal fun s => { s with listeners := s.listeners.filter (· ≠ child) }

def removeListeners (signals : List Nat) (child : Nat) : World E :=
  signals.foldl (fun w signal => removeListener w signal child) w

def clearTimer (child : Nat) : World E := w.update child fun s => { s with armed := false }

/-- The abort of a signal that has not been aborted. -/
def abortWith (child : Nat) (reason : Reason E) (wave : Nat) : World E :=
  let aborted := w.update child fun s => { s with reason := some reason, wave }
  match (w.signal child).listeners with
  | [] => aborted
  | listeners => { aborted with stack := .dispatch child listeners :: w.stack }

/-- `controller.abort(signal.reason)`, for the controller of `child`. -/
def abortLike (child signal : Nat) : World E :=
  match (w.signal signal).reason with
  | some reason => if w.aborted child then w else abortWith w child reason (w.signal signal).wave
  | none => w

/-- The abort of a controller by its owner or by a timer. -/
def abortFirst (child : Nat) (reason : Reason E) : World E :=
  if w.aborted child then w else abortWith { w with waves := w.waves + 1 } child reason w.waves

/-- The listener that `composeSignal` puts on the parent. -/
def abortFromParent (child signal : Nat) : World E :=
  abortLike (removeListener (clearTimer w child) signal child) child signal

def composeSignal (signal : Nat) (deadline : Option Number) : Nat × World E :=
  match deadline with
  | none => (signal, w)
  | some deadline =>
    let child := w.count
    let made := create w
      { origin := .composed signal deadline (w.now + platformDelay (timeUntil deadline w.now))
        armed := true
        born := if w.aborted signal then some signal else none }
    let listening := addListener made signal child
    (child, if w.aborted signal then abortFromParent listening child signal else listening)

/-- The loop of `combineAbortSignals`; `listened` are the signals that a listener was put on. -/
def combineLoop (child : Nat) : World E → List Nat → List Nat → World E
  | w, [], _ => w
  | w, signal :: rest, listened =>
    if signal ∈ listened then combineLoop child w rest listened
    else if w.aborted signal then removeListeners (abortLike w child signal) listened child
    else combineLoop child (addListener w signal child) rest (listened ++ [signal])

def combineAbortSignals (signals : List Nat) : Nat × World E :=
  match signals with
  | [] => (w.count, create w { origin := .root })
  | [first] => (first, w)
  | signals =>
    let made := create w { origin := .combined signals, born := signals.find? w.aborted }
    (w.count, combineLoop w.count made signals [])

/-- The listener that `combineAbortSignals` puts on a signal: the abort, and
    below it on the stack the loop that removes the listeners. -/
def abortCombined (child signal : Nat) : World E :=
  abortLike { w with stack := .cleanup child :: w.stack } child signal

/-- The listener of `child` on `signal` is called. -/
def notify (child signal : Nat) : World E :=
  match (w.signal child).origin with
  | .composed _ _ _ => abortFromParent w child signal
  | _ => abortCombined w child signal

/-- The event on top of the stack goes one listener further. -/
def advance : Option (World E) :=
  match w.stack with
  | [] => none
  | .dispatch _ [] :: below => some { w with stack := below }
  | .dispatch signal (child :: rest) :: below =>
    let here := { w with stack := .dispatch signal rest :: below }
    if child ∈ (w.signal signal).listeners then some (notify (removeListener here signal child) child signal)
    else some here
  | .cleanup child :: below => some (removeListeners { w with stack := below } (w.sources child) child)

/-- The timer of `child` fires: not before it is due, and not while anything else runs. -/
def fire (child : Nat) : Option (World E) :=
  match (w.signal child).origin, w.stack with
  | .composed parent _ due, [] =>
    if (w.signal child).armed = true ∧ due ≤ w.now then
      some (abortFirst (removeListener (clearTimer w child) parent child) child (.exceeded child))
    else none
  | _, _ => none

end Operations

end AbortSignals
