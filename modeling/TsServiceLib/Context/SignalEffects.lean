import TsServiceLib.Context.SignalGrowth

/-!
What a step leaves alone. Apart from the making of a signal and the abort by an
owner or a timer, every operation only carries reasons from one signal to
others. A derivation gives the context a deadline and at most one new signal,
which is a composition, a combination or detached.
-/
namespace AbortSignals
open Numbers

section Spreading
variable {E : Type} {u v w : World E}

/-- Signals stay what they were made as, and a reason is that of some signal before. -/
structure Spread (v w : World E) : Prop where
  now : w.now = v.now
  count : w.count = v.count
  waves : w.waves = v.waves
  origin : ∀ k, (w.signal k).origin = (v.signal k).origin
  born : ∀ k, (w.signal k).born = (v.signal k).born
  reason : ∀ k r, (w.signal k).reason = some r →
    ∃ source, (v.signal source).reason = some r ∧ (v.signal source).wave = (w.signal k).wave

theorem spread_refl (w : World E) : Spread w w where
  now := rfl
  count := rfl
  waves := rfl
  origin _ := rfl
  born _ := rfl
  reason k _ aborted := ⟨k, aborted, rfl⟩

theorem spread_trans (first : Spread u v) (second : Spread v w) : Spread u w where
  now := second.now.trans first.now
  count := second.count.trans first.count
  waves := second.waves.trans first.waves
  origin k := (second.origin k).trans (first.origin k)
  born k := (second.born k).trans (first.born k)
  reason := by
    intro k r aborted
    obtain ⟨middle, reason, wave⟩ := second.reason k r aborted
    obtain ⟨source, reason', wave'⟩ := first.reason middle r reason
    exact ⟨source, reason', wave'.trans wave⟩

theorem stack_spread (w : World E) (stack : List Frame) : Spread w { w with stack } :=
  { spread_refl w with }

theorem update_spread (w : World E) (k : Nat) (change : Signal E → Signal E)
    (origin : (change (w.signal k)).origin = (w.signal k).origin)
    (born : (change (w.signal k)).born = (w.signal k).born)
    (reason : ∀ r, (change (w.signal k)).reason = some r →
      ∃ source, (w.signal source).reason = some r ∧ (w.signal source).wave = (change (w.signal k)).wave) :
    Spread w (w.update k change) := by
  refine ⟨rfl, rfl, rfl, ?_, ?_, ?_⟩
  · intro n
    rcases eq_or_ne n k with rfl | other
    · simpa [World.update] using origin
    · simp [World.update, other]
  · intro n
    rcases eq_or_ne n k with rfl | other
    · simpa [World.update] using born
    · simp [World.update, other]
  · intro n r aborted
    rcases eq_or_ne n k with rfl | other
    · simp only [World.update, Function.update_self] at aborted ⊢
      exact reason r aborted
    · simp only [World.update, Function.update_of_ne other] at aborted ⊢
      exact ⟨n, aborted, rfl⟩

theorem addListener_spread (w : World E) (signal child : Nat) : Spread w (addListener w signal child) :=
  update_spread w signal _ rfl rfl fun _ aborted => ⟨signal, aborted, rfl⟩

theorem removeListener_spread (w : World E) (signal child : Nat) : Spread w (removeListener w signal child) :=
  update_spread w signal _ rfl rfl fun _ aborted => ⟨signal, aborted, rfl⟩

theorem removeListeners_spread (w : World E) (signals : List Nat) (child : Nat) :
    Spread w (removeListeners w signals child) := by
  induction signals generalizing w with
  | nil => exact spread_refl w
  | cons signal rest ih => exact spread_trans (removeListener_spread w signal child) (ih _)

theorem clearTimer_spread (w : World E) (child : Nat) : Spread w (clearTimer w child) :=
  update_spread w child _ rfl rfl fun _ aborted => ⟨child, aborted, rfl⟩

theorem abortLike_spread (w : World E) (child signal : Nat) : Spread w (abortLike w child signal) := by
  unfold abortLike
  split
  · rename_i reason found
    split
    · exact spread_refl w
    · have aborted := update_spread w child
        (fun s => { s with reason := some reason, wave := (w.signal signal).wave }) rfl rfl fun r same => by
          cases same
          exact ⟨signal, found, rfl⟩
      unfold abortWith
      dsimp only
      split
      · exact aborted
      · exact spread_trans aborted (stack_spread _ _)
  · exact spread_refl w

theorem abortFromParent_spread (w : World E) (child signal : Nat) : Spread w (abortFromParent w child signal) :=
  spread_trans (clearTimer_spread w child) (spread_trans (removeListener_spread _ signal child) (abortLike_spread _ child signal))

theorem combineLoop_spread (child : Nat) (w : World E) (signals listened : List Nat) :
    Spread w (combineLoop child w signals listened) := by
  induction signals generalizing w listened with
  | nil => exact spread_refl w
  | cons signal rest ih =>
    simp only [combineLoop]
    split
    · exact ih w listened
    · split
      · exact spread_trans (abortLike_spread w child signal) (removeListeners_spread _ listened child)
      · exact spread_trans (addListener_spread w signal child) (ih _ _)

theorem notify_spread (w : World E) (child signal : Nat) : Spread w (notify w child signal) := by
  unfold notify
  split
  · exact abortFromParent_spread w child signal
  · exact spread_trans (stack_spread w _) (abortLike_spread _ child signal)

theorem advance_spread (next : advance v = some w) : Spread v w := by
  unfold advance at next
  split at next
  · cases next
  · cases next
    exact stack_spread v _
  · dsimp only at next
    split at next
    · cases next
      exact spread_trans (stack_spread v _) (spread_trans (removeListener_spread _ _ _) (notify_spread _ _ _))
    · cases next
      exact stack_spread v _
  · cases next
    exact spread_trans (stack_spread v _) (removeListeners_spread _ _ _)

/-- The signal that `composeSignal` makes. -/
def composition (w : World E) (signal : Nat) (deadline : Number) : Signal E :=
  { origin := .composed signal deadline (w.now + platformDelay (timeUntil deadline w.now))
    armed := true
    born := if w.aborted signal then some signal else none }

/-- The signal that `combineAbortSignals` makes of two or more. -/
def combination (w : World E) (signals : List Nat) : Signal E :=
  { origin := .combined signals, born := signals.find? w.aborted }

theorem composeSignal_eq (w : World E) (signal : Nat) (deadline : Number) :
    composeSignal w signal (some deadline) =
      (w.count,
        if w.aborted signal then
          abortFromParent (addListener (create w (composition w signal deadline)) signal w.count) w.count signal
        else addListener (create w (composition w signal deadline)) signal w.count) := rfl

theorem composeSignal_made (w : World E) (signal : Nat) (deadline : Number) :
    (composeSignal w signal (some deadline)).1 = w.count ∧
      Spread (create w (composition w signal deadline)) (composeSignal w signal (some deadline)).2 := by
  have listening := addListener_spread (create w (composition w signal deadline)) signal w.count
  simp only [composeSignal_eq]
  constructor
  · trivial
  · split
    · exact spread_trans listening (abortFromParent_spread _ w.count signal)
    · exact listening

theorem combineAbortSignals_made (w : World E) (first second : Nat) :
    (combineAbortSignals w [first, second]).1 = w.count ∧
      Spread (create w (combination w [first, second])) (combineAbortSignals w [first, second]).2 :=
  ⟨rfl, combineLoop_spread _ _ _ _⟩

theorem create_signal (w : World E) (signal : Signal E) (k : Nat) :
    (create w signal).signal k = if k = w.count then signal else w.signal k := by
  simp only [create, Function.update_apply]

theorem abortFirst_now (w : World E) (child : Nat) (reason : Reason E) : (abortFirst w child reason).now = w.now := by
  unfold abortFirst abortWith
  dsimp only
  split
  · rfl
  · split <;> rfl

theorem abortFirst_reason {child : Nat} (live : w.aborted child = false) (reason : Reason E) :
    ((abortFirst w child reason).signal child).reason = some reason := by
  simp only [abortFirst, live, Bool.false_eq_true, if_false, abortWith]
  split <;> simp [World.update]

theorem fire_cases {child : Nat} (next : fire v child = some w) :
    ∃ parent deadline due, (v.signal child).origin = .composed parent deadline due ∧ v.stack = [] ∧
      (v.signal child).armed = true ∧ due ≤ v.now ∧
      w = abortFirst (removeListener (clearTimer v child) parent child) child (.exceeded child) := by
  unfold fire at next
  split at next
  · rename_i parent deadline due origin empty
    split at next
    · rename_i elapsed
      cases next
      exact ⟨parent, deadline, due, origin, empty, elapsed.1, elapsed.2, rfl⟩
    · cases next
  · cases next

end Spreading

end AbortSignals

namespace ContextDerivations
open Numbers AbortSignals Transitions

section Effects
variable {E : Type} {w : World E}

def effectiveDeadline (now : ℚ) (context : AnyContext) : Derivation → Option Number
  | .withDeadline deadline => childDeadline context.deadline deadline
  | .bounded timeoutMs => childDeadline context.deadline (some (boundedDeadline now context.deadline timeoutMs))
  | .withoutCancellation => none
  | _ => context.deadline

/-- What a derivation does to the signals: nothing, or one new signal, which is
    composed of the signal of the context and the deadline, combined of the
    signal of the context and the joined one, or detached. -/
inductive Effect (w : World E) (context : AnyContext) (d : Derivation) (result : AnyContext) : World E → Prop where
  | kept (attached : d ≠ .withoutCancellation) (joined : ∀ other, joinedBy d = some other → other = context.signal)
      (deadline : result.deadline = context.deadline) (signal : result.signal = context.signal) :
      Effect w context d result w
  | composed (limit : Number) (attached : d ≠ .withoutCancellation) (alone : joinedBy d = none)
      (deadline : result.deadline = some limit) (signal : result.signal = w.count) :
      Effect w context d result (composeSignal w context.signal (some limit)).2
  | combined (other : Nat) (joins : d = .withExternalCancellation other) (foreign : other ≠ context.signal)
      (deadline : result.deadline = context.deadline) (signal : result.signal = w.count) :
      Effect w context d result (combineAbortSignals w [context.signal, other]).2
  | detached (parts : d = .withoutCancellation) (deadline : result.deadline = none)
      (signal : result.signal = w.count) : Effect w context d result (create w { origin := .root })

theorem strictlyEqual_eq {a b : Option Number} (same : strictlyEqual a b = true) : a = b := by
  cases a with
  | none =>
    cases b with
    | none => rfl
    | some b => cases same
  | some a =>
    cases b with
    | none => cases same
    | some b =>
      simp only [strictlyEqual, Bool.and_eq_true, beq_iff_eq] at same
      rw [same.2]

theorem childDeadline_some {current requested : Option Number}
    (changed : strictlyEqual (childDeadline current requested) current = false) :
    ∃ limit, childDeadline current requested = some limit := by
  cases requested with
  | none =>
    cases current with
    | none => cases changed
    | some current => exact ⟨current, rfl⟩
  | some requested => cases current <;> exact ⟨_, rfl⟩

theorem Context.withDeadline_effect (state : ContextState) (requested : Option Number) {d : Derivation}
    (attached : d ≠ .withoutCancellation) (alone : joinedBy d = none) :
    (Context.withDeadline w state requested).1.deadline = childDeadline state.deadline requested ∧
      Effect w (.context state) d (.context (Context.withDeadline w state requested).1)
        (Context.withDeadline w state requested).2 := by
  have nothing : ∀ other, joinedBy d = some other → other = state.signal := by
    intro other joins
    rw [alone] at joins
    cases joins
  unfold Context.withDeadline
  dsimp only
  split
  · rename_i same
    exact ⟨(strictlyEqual_eq same).symm, .kept attached nothing rfl rfl⟩
  · rename_i changed
    obtain ⟨limit, effective⟩ := childDeadline_some (Bool.eq_false_iff.mpr changed)
    rw [effective]
    exact ⟨rfl, .composed limit attached alone rfl rfl⟩

theorem MessageContext.withDeadline_effect (base : ContextState) (state : MessageContextState)
    (requested : Option Number) {d : Derivation} (attached : d ≠ .withoutCancellation) (alone : joinedBy d = none) :
    (keepsThis base state (MessageContext.withDeadline w state requested)).1.deadline =
        childDeadline state.deadline requested ∧
      Effect w (.messageContext base state) d (keepsThis base state (MessageContext.withDeadline w state requested)).1
        (keepsThis base state (MessageContext.withDeadline w state requested)).2 := by
  have nothing : ∀ other, joinedBy d = some other → other = state.signal := by
    intro other joins
    rw [alone] at joins
    cases joins
  unfold MessageContext.withDeadline
  dsimp only
  split
  · rename_i same
    exact ⟨(strictlyEqual_eq same).symm, .kept attached nothing rfl rfl⟩
  · rename_i changed
    obtain ⟨limit, effective⟩ := childDeadline_some (Bool.eq_false_iff.mpr changed)
    rw [effective]
    exact ⟨rfl, .composed limit attached alone rfl rfl⟩

theorem Context.withExternalCancellation_effect (state : ContextState) (other : Nat) :
    (Context.withExternalCancellation w state other).1.deadline = state.deadline ∧
      Effect w (.context state) (.withExternalCancellation other)
        (.context (Context.withExternalCancellation w state other).1)
        (Context.withExternalCancellation w state other).2 := by
  unfold Context.withExternalCancellation
  split
  · rename_i same
    refine ⟨rfl, .kept (by intro parts; cases parts) ?_ rfl rfl⟩
    intro joined joins
    cases joins
    exact same
  · rename_i foreign
    exact ⟨rfl, .combined other rfl foreign rfl rfl⟩

theorem MessageContext.withExternalCancellation_effect (base : ContextState) (state : MessageContextState) (other : Nat) :
    (keepsThis base state (MessageContext.withExternalCancellation w state other)).1.deadline = state.deadline ∧
      Effect w (.messageContext base state) (.withExternalCancellation other)
        (keepsThis base state (MessageContext.withExternalCancellation w state other)).1
        (keepsThis base state (MessageContext.withExternalCancellation w state other)).2 := by
  unfold MessageContext.withExternalCancellation
  split
  · rename_i same
    refine ⟨rfl, .kept (by intro parts; cases parts) ?_ rfl rfl⟩
    intro joined joins
    cases joins
    exact same
  · rename_i foreign
    exact ⟨rfl, .combined other rfl foreign rfl rfl⟩

theorem MessageContext.fromContext_effect (context : AnyContext) :
    (MessageContext.fromContext w context).1.deadline = context.deadline ∧
      Effect w context .fromContext (MessageContext.fromMessageState (MessageContext.fromContext w context).1)
        (MessageContext.fromContext w context).2 := by
  unfold MessageContext.fromContext MessageContext.withDeadline
  cases deadline : context.deadline with
  | none =>
    exact ⟨rfl, .kept (by intro parts; cases parts) (by intro other joins; cases joins) deadline.symm rfl⟩
  | some limit =>
    exact ⟨rfl, .composed limit (by intro parts; cases parts) rfl rfl rfl⟩

theorem derive_effect {d : Derivation} {context : AnyContext} {result : AnyContext × World E}
    (derived : derive w d context = some result) :
    result.1.deadline = effectiveDeadline w.now context d ∧ Effect w context d result.1 result.2 := by
  cases context with
  | context state =>
    cases d <;> cases derived
    · exact Context.withDeadline_effect state _ (by intro parts; cases parts) rfl
    · exact Context.withDeadline_effect state _ (by intro parts; cases parts) rfl
    · exact Context.withExternalCancellation_effect state _
    · exact ⟨rfl, .detached rfl rfl rfl⟩
    · exact ⟨rfl, .kept (by intro parts; cases parts) (by intro other joins; cases joins) rfl rfl⟩
    · exact MessageContext.fromContext_effect (.context state)
  | messageContext base state =>
    cases d <;> cases derived
    · exact MessageContext.withDeadline_effect base state _ (by intro parts; cases parts) rfl
    · exact MessageContext.withDeadline_effect base state _ (by intro parts; cases parts) rfl
    · exact MessageContext.withExternalCancellation_effect base state _
    · exact ⟨rfl, .detached rfl rfl rfl⟩
    · exact ⟨rfl, .kept (by intro parts; cases parts) (by intro other joins; cases joins) rfl rfl⟩
    · exact MessageContext.fromContext_effect (.messageContext base state)
    all_goals exact ⟨rfl, .kept (by intro parts; cases parts) (by intro other joins; cases joins) rfl rfl⟩

end Effects

end ContextDerivations
