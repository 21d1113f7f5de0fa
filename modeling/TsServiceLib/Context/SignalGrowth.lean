import TsServiceLib.Context.ContextDerivation

/-!
What no step takes back. Time goes on, signals are added and stay what they
were made as, and a signal that has been aborted keeps its reason. The contexts
made so far are not changed, since a derivation makes a new one.
-/
namespace AbortSignals
open Numbers

section Growth
variable {E : Type} {u v w : World E}

structure Grown (v w : World E) : Prop where
  now : v.now ≤ w.now
  count : v.count ≤ w.count
  waves : v.waves ≤ w.waves
  origin : ∀ k, k < v.count → (w.signal k).origin = (v.signal k).origin
  born : ∀ k, k < v.count → (w.signal k).born = (v.signal k).born
  reason : ∀ k r, k < v.count → (v.signal k).reason = some r →
    (w.signal k).reason = some r ∧ (w.signal k).wave = (v.signal k).wave

theorem grown_refl (w : World E) : Grown w w where
  now := le_refl _
  count := Nat.le_refl _
  waves := Nat.le_refl _
  origin _ _ := rfl
  born _ _ := rfl
  reason _ _ _ aborted := ⟨aborted, rfl⟩

theorem grown_trans (first : Grown u v) (second : Grown v w) : Grown u w where
  now := le_trans first.now second.now
  count := Nat.le_trans first.count second.count
  waves := Nat.le_trans first.waves second.waves
  origin k known := (second.origin k (Nat.lt_of_lt_of_le known first.count)).trans (first.origin k known)
  born k known := (second.born k (Nat.lt_of_lt_of_le known first.count)).trans (first.born k known)
  reason := by
    intro k r known aborted
    have middle := first.reason k r known aborted
    have last := second.reason k r (Nat.lt_of_lt_of_le known first.count) middle.1
    exact ⟨last.1, last.2.trans middle.2⟩

theorem update_grown (w : World E) (k : Nat) (change : Signal E → Signal E)
    (origin : (change (w.signal k)).origin = (w.signal k).origin)
    (born : (change (w.signal k)).born = (w.signal k).born)
    (reason : ∀ r, (w.signal k).reason = some r →
      (change (w.signal k)).reason = some r ∧ (change (w.signal k)).wave = (w.signal k).wave) :
    Grown w (w.update k change) := by
  refine ⟨le_refl _, Nat.le_refl _, Nat.le_refl _, ?_, ?_, ?_⟩
  · intro n _
    rcases eq_or_ne n k with rfl | other
    · simpa [World.update] using origin
    · simp [World.update, other]
  · intro n _
    rcases eq_or_ne n k with rfl | other
    · simpa [World.update] using born
    · simp [World.update, other]
  · intro n r _ aborted
    rcases eq_or_ne n k with rfl | other
    · simpa [World.update] using reason r aborted
    · simpa [World.update, other] using aborted

theorem create_grown (w : World E) (signal : Signal E) : Grown w (create w signal) := by
  have same : ∀ k, k < w.count → (create w signal).signal k = w.signal k := by
    intro k known
    simp only [create, Function.update_of_ne (Nat.ne_of_lt known)]
  refine ⟨le_refl _, Nat.le_succ _, Nat.le_refl _, ?_, ?_, ?_⟩
  · intro k known
    rw [same k known]
  · intro k known
    rw [same k known]
  · intro k r known aborted
    rw [same k known]
    exact ⟨aborted, rfl⟩

theorem stack_grown (w : World E) (stack : List Frame) : Grown w { w with stack } :=
  { grown_refl w with }

theorem addListener_grown (w : World E) (signal child : Nat) : Grown w (addListener w signal child) :=
  update_grown w signal _ rfl rfl fun _ aborted => ⟨aborted, rfl⟩

theorem removeListener_grown (w : World E) (signal child : Nat) : Grown w (removeListener w signal child) :=
  update_grown w signal _ rfl rfl fun _ aborted => ⟨aborted, rfl⟩

theorem removeListeners_grown (w : World E) (signals : List Nat) (child : Nat) :
    Grown w (removeListeners w signals child) := by
  induction signals generalizing w with
  | nil => exact grown_refl w
  | cons signal rest ih => exact grown_trans (removeListener_grown w signal child) (ih _)

theorem clearTimer_grown (w : World E) (child : Nat) : Grown w (clearTimer w child) :=
  update_grown w child _ rfl rfl fun _ aborted => ⟨aborted, rfl⟩

theorem abortWith_grown {child : Nat} (reason : Reason E) (wave : Nat) (before : (w.signal child).reason = none) :
    Grown w (abortWith w child reason wave) := by
  have aborted := update_grown w child (fun s => { s with reason := some reason, wave }) rfl rfl fun r found => by
    rw [before] at found
    cases found
  unfold abortWith
  dsimp only
  split
  · exact aborted
  · exact grown_trans aborted (stack_grown _ _)

theorem abortLike_grown (w : World E) (child signal : Nat) : Grown w (abortLike w child signal) := by
  unfold abortLike
  split
  · split
    · exact grown_refl w
    · rename_i open_
      exact abortWith_grown _ _ (by simpa [World.aborted] using open_)
  · exact grown_refl w

theorem abortFirst_grown (w : World E) (child : Nat) (reason : Reason E) : Grown w (abortFirst w child reason) := by
  unfold abortFirst
  split
  · exact grown_refl w
  · rename_i open_
    have counted : Grown w { w with waves := w.waves + 1 } := { grown_refl w with waves := Nat.le_succ _ }
    exact grown_trans counted (abortWith_grown _ _ (by simpa [World.aborted] using open_))

theorem abortFromParent_grown (w : World E) (child signal : Nat) : Grown w (abortFromParent w child signal) :=
  grown_trans (clearTimer_grown w child) (grown_trans (removeListener_grown _ signal child) (abortLike_grown _ child signal))

theorem composeSignal_grown (w : World E) (signal : Nat) (deadline : Option Number) :
    Grown w (composeSignal w signal deadline).2 := by
  unfold composeSignal
  split
  · exact grown_refl w
  · dsimp only
    split
    · exact grown_trans (create_grown w _) (grown_trans (addListener_grown _ signal w.count) (abortFromParent_grown _ _ _))
    · exact grown_trans (create_grown w _) (addListener_grown _ signal w.count)

theorem combineLoop_grown (child : Nat) (w : World E) (signals listened : List Nat) :
    Grown w (combineLoop child w signals listened) := by
  induction signals generalizing w listened with
  | nil => exact grown_refl w
  | cons signal rest ih =>
    simp only [combineLoop]
    split
    · exact ih w listened
    · split
      · exact grown_trans (abortLike_grown w child signal) (removeListeners_grown _ listened child)
      · exact grown_trans (addListener_grown w signal child) (ih _ _)

theorem combineAbortSignals_grown (w : World E) (signals : List Nat) : Grown w (combineAbortSignals w signals).2 := by
  unfold combineAbortSignals
  split
  · exact create_grown w _
  · exact grown_refl w
  · exact grown_trans (create_grown w _) (combineLoop_grown _ _ _ _)

theorem notify_grown (w : World E) (child signal : Nat) : Grown w (notify w child signal) := by
  unfold notify
  split
  · exact abortFromParent_grown w child signal
  · exact grown_trans (stack_grown w _) (abortLike_grown _ child signal)

theorem advance_grown (next : advance v = some w) : Grown v w := by
  unfold advance at next
  split at next
  · cases next
  · cases next
    exact stack_grown v _
  · dsimp only at next
    split at next
    · cases next
      exact grown_trans (stack_grown v _) (grown_trans (removeListener_grown _ _ _) (notify_grown _ _ _))
    · cases next
      exact stack_grown v _
  · cases next
    exact grown_trans (stack_grown v _) (removeListeners_grown _ _ _)

theorem fire_grown {child : Nat} (next : fire v child = some w) : Grown v w := by
  unfold fire at next
  split at next
  · split at next
    · cases next
      exact grown_trans (clearTimer_grown v child) (grown_trans (removeListener_grown _ _ child) (abortFirst_grown _ child _))
    · cases next
  · cases next

end Growth

end AbortSignals

namespace ContextDerivations
open Numbers AbortSignals Transitions

section Growth
variable {E : Type} {w : World E} {s t : System E}

theorem Context.withDeadline_grown (state : ContextState) (deadline : Option Number) :
    Grown w (Context.withDeadline w state deadline).2 := by
  unfold Context.withDeadline
  dsimp only
  split
  · exact grown_refl w
  · exact composeSignal_grown w _ _

theorem Context.withExternalCancellation_grown (state : ContextState) (signal : Nat) :
    Grown w (Context.withExternalCancellation w state signal).2 := by
  unfold Context.withExternalCancellation
  split
  · exact grown_refl w
  · exact combineAbortSignals_grown w _

theorem MessageContext.withDeadline_grown (state : MessageContextState) (deadline : Option Number) :
    Grown w (MessageContext.withDeadline w state deadline).2 := by
  unfold MessageContext.withDeadline
  dsimp only
  split
  · exact grown_refl w
  · exact composeSignal_grown w _ _

theorem MessageContext.withExternalCancellation_grown (state : MessageContextState) (signal : Nat) :
    Grown w (MessageContext.withExternalCancellation w state signal).2 := by
  unfold MessageContext.withExternalCancellation
  split
  · exact grown_refl w
  · exact combineAbortSignals_grown w _

theorem derive_grown {d : Derivation} {context : AnyContext} {result : AnyContext × World E}
    (derived : derive w d context = some result) : Grown w result.2 := by
  cases context with
  | context state =>
    cases d <;> cases derived
    · exact Context.withDeadline_grown state _
    · exact Context.withDeadline_grown state _
    · exact Context.withExternalCancellation_grown state _
    · exact create_grown w _
    · exact grown_refl w
    · exact MessageContext.withDeadline_grown _ _
  | messageContext base state =>
    cases d <;> cases derived
    · exact MessageContext.withDeadline_grown state _
    · exact MessageContext.withDeadline_grown state _
    · exact MessageContext.withExternalCancellation_grown state _
    · exact create_grown w _
    · exact grown_refl w
    · exact MessageContext.withDeadline_grown _ _
    all_goals exact grown_refl w

theorem step_grown {a : Action E} (next : step s a = some t) : Grown s.world t.world := by
  cases a with
  | newSignal =>
    cases next
    exact create_grown _ _
  | newContext message signal =>
    simp only [step] at next
    split at next <;> cases next
    exact grown_refl _
  | abort signal reason =>
    simp only [step] at next
    split at next <;> cases next
    exact abortFirst_grown _ _ _
  | derive c d =>
    simp only [step] at next
    split at next
    · split at next
      · obtain ⟨result, derived, same⟩ := Option.map_eq_some_iff.mp next
        cases same
        exact derive_grown derived
      · cases next
    · cases next
  | elapse time =>
    simp only [step] at next
    split at next
    · rename_i positive
      cases next
      exact { grown_refl s.world with now := le_add_of_nonneg_right positive }
    · cases next
  | fire child =>
    obtain ⟨w, fired, same⟩ := Option.map_eq_some_iff.mp next
    cases same
    exact fire_grown fired
  | advance =>
    obtain ⟨w, advanced, same⟩ := Option.map_eq_some_iff.mp next
    cases same
    exact advance_grown advanced

end Growth

section Known
variable {E : Type} {w : World E} {s t : System E}

theorem composeSignal_known {signal : Nat} (known : signal < w.count) (deadline : Option Number) :
    (composeSignal w signal deadline).1 < (composeSignal w signal deadline).2.count := by
  unfold composeSignal
  split
  · exact known
  · dsimp only
    split
    · exact Nat.lt_of_lt_of_le (Nat.lt_succ_self w.count)
        (grown_trans (addListener_grown (create w _) signal w.count) (abortFromParent_grown _ w.count signal)).count
    · exact Nat.lt_of_lt_of_le (Nat.lt_succ_self w.count) (addListener_grown (create w _) signal w.count).count

theorem combineAbortSignals_known (first second : Nat) :
    (combineAbortSignals w [first, second]).1 < (combineAbortSignals w [first, second]).2.count :=
  (combineLoop_grown _ (create w _) _ _).count

theorem messageDeadline_known {base : ContextState} {state : MessageContextState} (known : state.signal < w.count)
    (deadline : Option Number) :
    (keepsThis base state (MessageContext.withDeadline w state deadline)).1.signal <
      (keepsThis base state (MessageContext.withDeadline w state deadline)).2.count := by
  unfold MessageContext.withDeadline
  dsimp only
  split
  · exact known
  · exact composeSignal_known known _

theorem messageExternal_known {base : ContextState} {state : MessageContextState} (known : state.signal < w.count)
    (signal : Nat) :
    (keepsThis base state (MessageContext.withExternalCancellation w state signal)).1.signal <
      (keepsThis base state (MessageContext.withExternalCancellation w state signal)).2.count := by
  unfold MessageContext.withExternalCancellation
  split
  · exact known
  · exact combineAbortSignals_known _ _

theorem derive_known {d : Derivation} {context : AnyContext} {result : AnyContext × World E}
    (known : context.signal < w.count) (derived : derive w d context = some result) :
    result.1.signal < result.2.count := by
  have deadline : ∀ (state : ContextState) (requested : Option Number), state.signal < w.count →
      (Context.withDeadline w state requested).1.signal < (Context.withDeadline w state requested).2.count := by
    intro state requested own
    unfold Context.withDeadline
    dsimp only
    split
    · exact own
    · exact composeSignal_known own _
  have fresh : (MessageContext.fromContext w context).1.signal < (MessageContext.fromContext w context).2.count := by
    unfold MessageContext.fromContext MessageContext.withDeadline
    dsimp only
    split
    · exact known
    · exact composeSignal_known known _
  cases context with
  | context state =>
    cases d <;> cases derived
    · exact deadline state _ known
    · exact deadline state _ known
    · unfold Context.withExternalCancellation
      split
      · exact known
      · exact combineAbortSignals_known _ _
    · exact Nat.lt_succ_self w.count
    · exact known
    · exact fresh
  | messageContext base state =>
    cases d <;> cases derived
    · exact messageDeadline_known known _
    · exact messageDeadline_known known _
    · exact messageExternal_known known _
    · exact Nat.lt_succ_self w.count
    · exact known
    · exact fresh
    all_goals exact known

def Reachable (s : System E) : Prop := Steps step Any {} s

/-- The signals of the contexts have been made. -/
def Known (s : System E) : Prop := ∀ derived ∈ s.contexts, derived.context.signal < s.world.count

theorem step_known {a : Action E} (known : Known s) (next : step s a = some t) : Known t := by
  have grown := (step_grown next).count
  have old : ∀ derived ∈ s.contexts, derived.context.signal < t.world.count := fun derived mem =>
    Nat.lt_of_lt_of_le (known derived mem) grown
  cases a with
  | newContext message signal =>
    simp only [step] at next
    split at next
    · rename_i made
      cases next
      intro derived mem
      rcases List.mem_append.mp mem with before | new
      · exact known derived before
      · rw [List.mem_singleton] at new
        subst new
        cases message <;> exact made
    · cases next
  | derive c d =>
    simp only [step] at next
    split at next
    · rename_i of found
      split at next
      · obtain ⟨result, derived, same⟩ := Option.map_eq_some_iff.mp next
        cases same
        intro other mem
        rcases List.mem_append.mp mem with before | new
        · exact old other before
        · rw [List.mem_singleton] at new
          subst new
          exact derive_known (known of (List.mem_of_getElem? found)) derived
      · cases next
    · cases next
  | newSignal =>
    cases next
    exact old
  | abort signal reason =>
    simp only [step] at next
    split at next <;> cases next
    exact old
  | elapse time =>
    simp only [step] at next
    split at next <;> cases next
    exact old
  | fire child =>
    obtain ⟨w, fired, same⟩ := Option.map_eq_some_iff.mp next
    cases same
    exact old
  | advance =>
    obtain ⟨w, advanced, same⟩ := Option.map_eq_some_iff.mp next
    cases same
    exact old

theorem reachable_known (reach : Reachable s) : Known s :=
  steps_invariant Known (fun _ _ _ known _ next => step_known known next) reach fun derived mem => by cases mem

end Known

end ContextDerivations
