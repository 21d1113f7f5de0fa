import TsServiceLib.Context.AbortOrder

/-!
When a timer is right to abort. The platform waits as long as it is told to
only up to a longest timeout; the timer of a deadline farther away fires after
one millisecond. And a signal hands on the error of any deadline upstream of
it, also to a context that was given the signal but not the deadline. In runs
that keep clear of both, a context is aborted by a deadline only when its own
has been reached.
-/
namespace AbortSignals
open Numbers

section Timers
variable {E : Type} {v w : World E}

/-- The comparison of `cancelled`. -/
def reached (now : ℚ) : Option Number → Bool
  | some (.finite deadline) => decide (deadline ≤ now)
  | some .negInfinity => true
  | _ => false

/-- What is left of the time is not more than the longest timeout. -/
def withinReach (now : ℚ) : Option Number → Bool
  | some (.finite deadline) => decide (deadline - now ≤ timeoutMax)
  | some .posInfinity => false
  | some .nan => false
  | _ => true

theorem reached_later {now later : ℚ} {deadline : Option Number} (after : now ≤ later)
    (before : reached now deadline = true) : reached later deadline = true := by
  cases deadline with
  | none => exact before
  | some deadline =>
    cases deadline with
    | finite q =>
      simp only [reached, decide_eq_true_eq] at before ⊢
      exact le_trans before after
    | _ => exact before

theorem due_reached {now : ℚ} {deadline : Number} (near : withinReach now (some deadline) = true) :
    reached (now + platformDelay (timeUntil deadline now)) (some deadline) = true := by
  cases deadline with
  | finite q =>
    simp only [withinReach, decide_eq_true_eq] at near
    simp only [reached, timeUntil, platformDelay]
    apply decide_eq_true
    have above : q - now ≤ (⌈q - now⌉ : ℚ) := Int.le_ceil _
    have bound : (⌈q - now⌉ : ℚ) ≤ timeoutMax := by
      have whole : ⌈q - now⌉ ≤ 2147483647 := Int.ceil_le.mpr (by simpa [timeoutMax] using near)
      unfold timeoutMax
      exact_mod_cast whole
    split
    · rename_i accepted
      have waits : (⌈q - now⌉ : ℚ) ≤ max 0 (⌈q - now⌉ : ℚ) := le_max_right _ _
      linarith
    · rename_i refused
      have small : (⌈q - now⌉ : ℚ) < 1 := by
        by_contra large
        have large := not_lt.mp large
        apply refused
        rw [max_eq_right (by linarith)]
        exact ⟨large, bound⟩
      linarith
  | negInfinity => rfl
  | posInfinity => cases near
  | nan => cases near

/-- A timeout out of reach ends before the deadline. -/
theorem due_early {now : ℚ} {deadline : Number} (far : withinReach now (some deadline) = false) :
    platformDelay (timeUntil deadline now) = 1 ∧ reached (now + 1) (some deadline) = false := by
  cases deadline with
  | finite q =>
    simp only [withinReach, decide_eq_false_iff_not, not_le] at far
    have above : q - now ≤ (⌈q - now⌉ : ℚ) := Int.le_ceil _
    have waits : (⌈q - now⌉ : ℚ) ≤ max 0 (⌈q - now⌉ : ℚ) := le_max_right _ _
    constructor
    · simp only [timeUntil, platformDelay]
      apply if_neg
      rintro ⟨-, accepted⟩
      linarith
    · simp only [reached, decide_eq_false_iff_not, not_le]
      unfold timeoutMax at far
      linarith
  | negInfinity => cases far
  | posInfinity => exact ⟨rfl, rfl⟩
  | nan => exact ⟨rfl, rfl⟩

/-- A deadline upstream of a signal, whose timer can abort it. -/
inductive Carries (w : World E) : Nat → Number → Prop where
  | own {k parent : Nat} {deadline : Number} {due : ℚ} (origin : (w.signal k).origin = .composed parent deadline due) :
      Carries w k deadline
  | source {k source : Nat} {deadline : Number} (link : source ∈ w.sources k) (rest : Carries w source deadline) :
      Carries w k deadline

theorem composed_source {k parent : Nat} {deadline : Number} {due : ℚ}
    (origin : (w.signal k).origin = .composed parent deadline due) : parent ∈ w.sources k := by
  rw [World.sources, origin]
  exact List.mem_singleton_self parent

theorem carries_same (origin : ∀ k, (w.signal k).origin = (v.signal k).origin) {k : Nat} {deadline : Number}
    (carries : Carries v k deadline) : Carries w k deadline := by
  induction carries with
  | own timer => exact .own ((origin _).trans timer)
  | @source k s deadline link rest ih =>
    have same : w.sources k = v.sources k := by rw [World.sources, origin, World.sources]
    exact .source (same ▸ link) ih

/-- What is upstream of a signal is settled when the signal is made. -/
theorem carries_later (woven : Woven v none) (grown : Grown v w) {k : Nat} {deadline : Number}
    (carries : Carries v k deadline) : Carries w k deadline := by
  induction carries with
  | @own k parent deadline due timer =>
    exact .own ((grown.origin k (woven_made woven (composed_source timer))).trans timer)
  | @source k s deadline link rest ih =>
    have same : w.sources k = v.sources k := by rw [World.sources, grown.origin k (woven_made woven link), World.sources]
    exact .source (same ▸ link) ih

theorem carries_earlier (woven : Woven v none) (grown : Grown v w) {k : Nat} {deadline : Number} (known : k < v.count)
    (carries : Carries w k deadline) : Carries v k deadline := by
  induction carries with
  | @own k parent deadline due timer => exact .own ((grown.origin k known).symm.trans timer)
  | @source k s deadline link rest ih =>
    rw [World.sources, grown.origin k known] at link
    exact .source link (ih (Nat.lt_trans (woven.older k s link) known))

/-- Timers are due when their deadlines are reached, and a signal is aborted
    only by such a timer upstream of it that was due. -/
structure Punctual (w : World E) : Prop where
  due : ∀ k parent deadline due, (w.signal k).origin = .composed parent deadline due →
    reached due (some deadline) = true
  fired : ∀ k j, (w.signal k).reason = some (.exceeded j) →
    ∃ parent deadline due, (w.signal j).origin = .composed parent deadline due ∧ due ≤ w.now ∧ Carries w k deadline

theorem still_punctual (punctual : Punctual v) (still : Still v w) (now : v.now ≤ w.now) : Punctual w := by
  constructor
  · intro k parent deadline due origin
    rw [still.origin] at origin
    exact punctual.due k parent deadline due origin
  · intro k j reason
    rw [still.reason] at reason
    obtain ⟨parent, deadline, due, origin, past, carries⟩ := punctual.fired k j reason
    exact ⟨parent, deadline, due, (still.origin j).trans origin, le_trans past now, carries_same still.origin carries⟩

theorem marks_punctual {child wave : Nat} {reason : Reason E} (punctual : Punctual v) (marks : Marks v w child reason wave)
    (now : w.now = v.now) (because : ∀ j, reason = .exceeded j → ∃ parent deadline due,
      (v.signal j).origin = .composed parent deadline due ∧ due ≤ v.now ∧ Carries v child deadline) : Punctual w := by
  constructor
  · intro k parent deadline due origin
    rw [marks.origin] at origin
    exact punctual.due k parent deadline due origin
  · intro k j aborted
    have old : ∃ parent deadline due, (v.signal j).origin = .composed parent deadline due ∧ due ≤ v.now ∧
        Carries v k deadline := by
      rw [marks.reason] at aborted
      split at aborted
      · rename_i here
        rw [here]
        exact because j (Option.some.inj aborted)
      · exact punctual.fired k j aborted
    obtain ⟨parent, deadline, due, origin, past, carries⟩ := old
    exact ⟨parent, deadline, due, (marks.origin j).trans origin, by rwa [now], carries_same marks.origin carries⟩

theorem abortFirst_punctual (punctual : Punctual w) {child : Nat} {reason : Reason E}
    (because : ∀ j, reason = .exceeded j → ∃ parent deadline due,
      (w.signal j).origin = .composed parent deadline due ∧ due ≤ w.now ∧ Carries w child deadline) :
    Punctual (abortFirst w child reason) := by
  cases before : w.aborted child with
  | true =>
    simp only [abortFirst, before, if_true]
    exact punctual
  | false => exact marks_punctual punctual (abortFirst_stack reason before).1 (abortFirst_now w child reason) because

/-- A new signal is aborted only like one of its sources. -/
theorem made_punctual (punctual : Punctual v) (woven : Woven v none) (grown : Grown v w) (made : Made v w)
    (now : w.now = v.now) (timed : ∀ parent deadline due, (w.signal v.count).origin = .composed parent deadline due →
      reached due (some deadline) = true) : Punctual w := by
  have held : ∀ k j, (v.signal k).reason = some (.exceeded j) → ∃ parent deadline due,
      (w.signal j).origin = .composed parent deadline due ∧ due ≤ w.now ∧ Carries w k deadline := by
    intro k j reason
    obtain ⟨parent, deadline, due, origin, past, carries⟩ := punctual.fired k j reason
    have same := made.origin j (Nat.ne_of_lt (woven_made woven (composed_source origin)))
    exact ⟨parent, deadline, due, same.trans origin, by rwa [now], carries_later woven grown carries⟩
  constructor
  · intro k parent deadline due origin
    by_cases here : k = v.count
    · exact timed parent deadline due (here ▸ origin)
    · rw [made.origin k here] at origin
      exact punctual.due k parent deadline due origin
  · intro k j aborted
    by_cases here : k = v.count
    · subst here
      rcases made.new with ⟨live, -⟩ | ⟨found, -, link, -, reason, -⟩
      · rw [World.aborted, aborted] at live
        cases live
      · rw [reason] at aborted
        obtain ⟨parent, deadline, due, origin, past, carries⟩ := held found j aborted
        exact ⟨parent, deadline, due, origin, past, .source link carries⟩
    · rw [made.reason k here] at aborted
      exact held k j aborted

theorem root_punctual (punctual : Punctual w) (woven : Woven w none) : Punctual (create w { origin := .root }) := by
  apply made_punctual punctual woven (create_grown w _) (made_root w) rfl
  intro parent deadline due origin
  rw [create_signal, if_pos rfl] at origin
  cases origin

theorem advance_punctual (punctual : Punctual v) (woven : Woven v none) (next : advance v = some w) : Punctual w := by
  have now := (advance_spread next).now
  obtain ⟨-, ⟨still, -⟩ | ⟨signal, child, reason, -, link, -, found, marks, -⟩⟩ := advance_marks woven next
  · exact still_punctual punctual still now.ge
  · refine marks_punctual punctual marks now ?_
    intro j same
    subst same
    obtain ⟨parent, deadline, due, origin, past, carries⟩ := punctual.fired signal j found
    exact ⟨parent, deadline, due, origin, past, .source link carries⟩

theorem fire_punctual {child : Nat} (punctual : Punctual v) (fired : fire v child = some w) : Punctual w := by
  obtain ⟨parent, deadline, due, origin, -, -, past, rfl⟩ := fire_cases fired
  have kept := still_trans (still_clearTimer v child) (still_removeListener (clearTimer v child) parent child)
  apply abortFirst_punctual (still_punctual punctual kept (le_refl _))
  intro j same
  cases same
  have own := (kept.origin child).trans origin
  exact ⟨parent, deadline, due, own, past, .own own⟩

end Timers

end AbortSignals

namespace ContextDerivations
open Numbers AbortSignals Transitions

section Honesty
variable {E : Type} {s t : System E}

/-- A derivation leads to a deadline within reach, and joins no signal that
    carries an earlier one. A context is begun with a signal that carries none. -/
def Timely (s : System E) : Action E → Prop
  | .derive c d => ∀ of, s.contexts[c]? = some of →
      withinReach s.world.now (effectiveDeadline s.world.now of.context d) = true ∧
      ∀ signal, joinedBy d = some signal → ∀ deadline, Carries s.world signal deadline →
        Within of.context.deadline (some deadline)
  | .newContext _ signal => ∀ deadline, ¬Carries s.world signal deadline
  | _ => True

/-- A check that passes only what has no signals upstream of it. -/
def timely (s : System E) : Action E → Bool
  | .derive c d =>
    (s.contexts[c]?).all fun of =>
      withinReach s.world.now (effectiveDeadline s.world.now of.context d) &&
        (joinedBy d).all fun signal => (s.world.signal signal).origin = .root
  | .newContext _ signal => (s.world.signal signal).origin = .root
  | _ => true

theorem root_bare {w : World E} {k : Nat} (root : (w.signal k).origin = .root) (deadline : Number) :
    ¬Carries w k deadline := by
  intro carries
  cases carries with
  | own origin =>
    rw [root] at origin
    cases origin
  | source link rest =>
    rw [World.sources, root] at link
    cases link

theorem timely_sound {a : Action E} (passed : timely s a = true) : Timely s a := by
  cases a with
  | derive c d =>
    intro of found
    simp only [timely, found, Option.all_some, Bool.and_eq_true, Option.all_eq_true, decide_eq_true_eq] at passed
    refine ⟨passed.1, ?_⟩
    intro signal joins deadline carries
    exact absurd carries (root_bare (passed.2 signal joins) deadline)
  | newContext message signal =>
    intro deadline
    exact root_bare (of_decide_eq_true passed) deadline
  | _ => trivial

/-- Deadlines are honest: none upstream of a context is before its own. -/
structure Honest (s : System E) : Prop where
  punctual : Punctual s.world
  covered : ∀ derived ∈ s.contexts, ∀ deadline, Carries s.world derived.context.signal deadline →
    Within derived.context.deadline (some deadline)
  number : ∀ derived ∈ s.contexts, derived.context.deadline ≠ some .nan

theorem effect_punctual {w w' : World E} {of result : AnyContext} {d : Derivation} (punctual : Punctual w)
    (woven : Woven w none) (known : of.signal < w.count) (joinable : ∀ other, joinedBy d = some other → other < w.count)
    (deadline : result.deadline = effectiveDeadline w.now of d)
    (near : withinReach w.now (effectiveDeadline w.now of d) = true) (effect : Effect w of d result w') :
    Punctual w' := by
  cases effect with
  | kept => exact punctual
  | composed limit attached alone same signal =>
    have spread := (composeSignal_made w of.signal limit).2
    apply made_punctual punctual woven (composeSignal_grown w of.signal (some limit)) (made_composeSignal known limit)
      spread.now
    intro parent bound due origin
    rw [spread.origin, create_signal, if_pos rfl] at origin
    cases origin
    rw [← deadline, same] at near
    exact due_reached near
  | combined other joins foreign same signal =>
    have spread := (combineAbortSignals_made w of.signal other).2
    apply made_punctual punctual woven (combineAbortSignals_grown w [of.signal, other])
      (made_combineAbortSignals known (joinable other (by rw [joins]; rfl))) spread.now
    intro parent bound due origin
    rw [spread.origin, create_signal, if_pos rfl] at origin
    cases origin
  | detached => exact root_punctual punctual woven

/-- A deadline upstream of the new signal is the new one, or was upstream of the
    signal of the context or of the one joined to it. -/
theorem effect_covered {w w' : World E} {of result : AnyContext} {d : Derivation} (woven : Woven w none)
    (known : of.signal < w.count) (joinable : ∀ other, joinedBy d = some other → other < w.count)
    (covered : ∀ deadline, Carries w of.signal deadline → Within of.deadline (some deadline))
    (joined : ∀ signal, joinedBy d = some signal → ∀ deadline, Carries w signal deadline →
      Within of.deadline (some deadline))
    (effective : result.deadline = effectiveDeadline w.now of d) (effect : Effect w of d result w') {deadline : Number}
    (carries : Carries w' result.signal deadline) : Within result.deadline (some deadline) := by
  cases effect with
  | kept attached joins same signal =>
    rw [signal] at carries
    rw [same]
    exact covered deadline carries
  | composed limit attached alone same signal =>
    have made := (composeSignal_made w of.signal limit).2.origin w.count
    rw [create_signal, if_pos rfl] at made
    have nearer := effectiveDeadline_within w.now of attached
    rw [← effective] at nearer
    rw [signal] at carries
    cases carries with
    | own origin =>
      rw [made] at origin
      cases origin
      rw [same]
      exact within_refl _
    | source link rest =>
      rw [World.sources, made] at link
      rw [List.mem_singleton.mp link] at rest
      exact within_trans nearer
        (covered deadline (carries_earlier woven (composeSignal_grown w of.signal (some limit)) known rest))
  | combined other joins foreign same signal =>
    have made := (combineAbortSignals_made w of.signal other).2.origin w.count
    rw [create_signal, if_pos rfl] at made
    have grown := combineAbortSignals_grown w [of.signal, other]
    have joins' : joinedBy d = some other := by rw [joins]; rfl
    rw [signal] at carries
    rw [same]
    cases carries with
    | own origin =>
      rw [made] at origin
      cases origin
    | source link rest =>
      rw [World.sources, made] at link
      rcases List.mem_pair.mp link with here | here
      · rw [here] at rest
        exact covered deadline (carries_earlier woven grown known rest)
      · rw [here] at rest
        exact joined other joins' deadline (carries_earlier woven grown (joinable other joins') rest)
  | detached parts same signal =>
    rw [signal] at carries
    exact absurd carries (root_bare (by rw [create_signal, if_pos rfl]) deadline)

theorem step_punctual {a : Action E} (known : Known s) (woven : Woven s.world none) (punctual : Punctual s.world)
    (admitted : Timely s a) (next : step s a = some t) : Punctual t.world := by
  cases a with
  | newSignal =>
    cases next
    exact root_punctual punctual woven
  | newContext message signal =>
    simp only [step] at next
    split at next <;> cases next
    exact punctual
  | abort signal reason =>
    simp only [step] at next
    split at next <;> cases next
    exact abortFirst_punctual punctual (by intro j same; cases same)
  | derive c d =>
    cases step_enlarged next with
    | same w quiet => exact absurd rfl (quiet c d)
    | fresh message signal => exact punctual
    | derived here found passed deadline effect =>
      cases here
      have known' := known _ (List.mem_of_getElem? found)
      exact effect_punctual punctual woven known' (fun other joins => joinable_iff passed joins) deadline
        (admitted _ found).1 effect
  | elapse time =>
    simp only [step] at next
    split at next <;> cases next
    rename_i positive
    exact still_punctual punctual ⟨fun _ => rfl, fun _ => rfl, fun _ => rfl, fun _ => rfl⟩
      (le_add_of_nonneg_right positive)
  | fire child =>
    obtain ⟨w, fired, same⟩ := Option.map_eq_some_iff.mp next
    cases same
    exact fire_punctual punctual fired
  | advance =>
    obtain ⟨w, advanced, same⟩ := Option.map_eq_some_iff.mp next
    cases same
    exact advance_punctual punctual woven advanced

theorem step_honest {a : Action E} (known : Known s) (woven : Woven s.world none) (honest : Honest s)
    (admitted : Timely s a) (next : step s a = some t) : Honest t := by
  have punctual := step_punctual known woven honest.punctual admitted next
  have old : ∀ derived ∈ s.contexts, ∀ deadline, Carries t.world derived.context.signal deadline →
      Within derived.context.deadline (some deadline) := by
    intro derived member deadline carries
    have before := carries_earlier woven (step_grown next) (known derived member) carries
    exact honest.covered derived member deadline before
  cases step_enlarged next with
  | same w quiet => exact ⟨punctual, old, honest.number⟩
  | fresh message signal made here =>
    subst here
    have unlimited : (newContext message signal).deadline = none := by cases message <;> rfl
    have own : (newContext message signal).signal = signal := by cases message <;> rfl
    refine ⟨punctual, List.forall_mem_append.mpr ⟨old, List.forall_mem_singleton.mpr ?_⟩,
      List.forall_mem_append.mpr ⟨honest.number, List.forall_mem_singleton.mpr ?_⟩⟩
    · intro deadline carries
      rw [own] at carries
      exact absurd carries (admitted deadline)
    · intro nan
      rw [unlimited] at nan
      cases nan
  | @derived c d here of found passed result w effective effect =>
    subst here
    obtain ⟨near, joined⟩ := admitted of found
    have member := List.mem_of_getElem? found
    refine ⟨punctual, List.forall_mem_append.mpr ⟨old, List.forall_mem_singleton.mpr ?_⟩,
      List.forall_mem_append.mpr ⟨honest.number, List.forall_mem_singleton.mpr ?_⟩⟩
    · intro deadline carries
      exact effect_covered woven (known of member) (fun other joins => joinable_iff passed joins)
        (honest.covered of member) joined effective effect carries
    · intro nan
      rw [← effective, nan] at near
      cases near

theorem honest_init : Honest ({} : System E) := by
  refine ⟨⟨?_, ?_⟩, ?_, ?_⟩
  · intro k parent deadline due origin
    cases origin
  · intro k j reason
    cases reason
  · intro derived member
    cases member
  · intro derived member
    cases member

theorem timely_honest (run : Steps step Timely {} s) : Honest s := by
  have held : Honest s ∧ Woven s.world none ∧ Known s := by
    refine steps_invariant (fun s => Honest s ∧ Woven s.world none ∧ Known s) ?_ run
      ⟨honest_init, woven_init, by intro derived member; cases member⟩
    intro s a t held admitted next
    exact ⟨step_honest held.2.2 held.2.1 held.1 admitted next, step_woven held.2.2 held.2.1 next,
      step_known held.2.2 next⟩
  exact held.1

theorem reached_within {now : ℚ} {a b : Option Number} (number : a ≠ some .nan) (within : Within a b)
    (past : reached now b = true) : reached now a = true := by
  cases within with
  | nan => exact absurd rfl number
  | unlimited => cases past
  | @earlier a b least =>
    cases a with
    | nan => exact absurd rfl number
    | negInfinity => rfl
    | posInfinity => cases b <;> simp_all [lessOrEqual, Number.isNaN, Number.lt, reached]
    | finite p =>
      cases b with
      | finite q =>
        simp only [lessOrEqual, Number.isNaN, Number.lt, Bool.not_false, Bool.true_and, Bool.not_eq_true',
          decide_eq_false_iff_not, not_lt] at least
        simp only [reached, decide_eq_true_eq] at past ⊢
        exact le_trans least past
      | _ => simp_all [lessOrEqual, Number.isNaN, Number.lt, reached]

/- In every run whose derivations lead to deadlines within reach, and whose
   contexts are given no signal with an earlier deadline than their own: an error
   of a deadline in the signal of a context is that of a timer whose deadline has
   been reached, and the deadline of the context itself has been reached too. -/
theorem deadlines_honest (run : Steps step Timely {} s) {c : Nat} {derived : Derived}
    (found : s.contexts[c]? = some derived) {child : Nat}
    (aborted : (s.world.signal derived.context.signal).reason = some (.exceeded child)) :
    (∃ parent deadline due, (s.world.signal child).origin = .composed parent deadline due ∧
      reached s.world.now (some deadline) = true) ∧
    reached s.world.now derived.context.deadline = true := by
  have honest := timely_honest run
  have member := List.mem_of_getElem? found
  obtain ⟨parent, deadline, due, origin, past, carries⟩ := honest.punctual.fired _ _ aborted
  have passed : reached s.world.now (some deadline) = true :=
    reached_later past (honest.punctual.due child parent deadline due origin)
  refine ⟨⟨parent, deadline, due, origin, passed⟩, ?_⟩
  exact reached_within (honest.number derived member) (honest.covered derived member deadline carries) passed

/-- A deadline of a second runs out, in the context that it was set for and in
    a message context made from that one. -/
theorem deadlines_honest_second : ∃ (s : System Unit) (derived : Derived), Steps step Timely {} s ∧
    s.contexts[2]? = some derived ∧ (s.world.signal derived.context.signal).reason = some (.exceeded 1) ∧
    reached s.world.now derived.context.deadline = true := by
  have evaluated : ((execWhere (step (E := Unit)) timely {}
      [.newSignal, .newContext false 0, .derive 0 (.bounded (.finite 1000)), .derive 1 .fromContext, .elapse 1000,
        .fire 1, .advance, .advance]).any fun s =>
        decide (s.contexts.map (fun d => (d.context.signal, d.context.deadline, d.parent)) =
          [(0, none, none), (1, some (.finite 1000), some 0), (2, some (.finite 1000), some 1)] ∧
          (s.world.signal 2).reason = some (.exceeded 1))) = true := by
    decide +kernel
  simp only [Option.any_eq_true, decide_eq_true_eq] at evaluated
  obtain ⟨s, reached, contexts, reason⟩ := evaluated
  have run : Steps step Timely {} s := execWhere_steps (fun _ _ passed => timely_sound passed) reached
  obtain ⟨first, second, third, list⟩ : ∃ first second third, s.contexts = [first, second, third] := by
    have length := congrArg List.length contexts
    simp only [List.length_map, List.length_cons, List.length_nil] at length
    exact List.length_eq_three.mp length
  rw [list] at contexts
  simp only [List.map_cons, List.map_nil, List.cons.injEq, Prod.mk.injEq, and_true] at contexts
  obtain ⟨-, ⟨signal, deadline, -⟩, ⟨signal', deadline', parent⟩⟩ := contexts
  have found : s.contexts[2]? = some third := by rw [list]; rfl
  have aborted : (s.world.signal third.context.signal).reason = some (.exceeded 1) := by rw [signal', reason]
  exact ⟨s, third, run, found, aborted, (deadlines_honest run found aborted).2⟩

/-- Timeouts of 2147483648 and of infinitely many milliseconds are over after one. -/
theorem deadline_early :
    (∃ s : System Unit, Steps step Any {} s ∧ s.world.now = 1 ∧ ∃ derived ∈ s.contexts,
      derived.context.deadline = some (.finite 2147483648) ∧
      (s.world.signal derived.context.signal).reason = some (.exceeded derived.context.signal) ∧
      reached s.world.now derived.context.deadline = false) ∧
    ∃ s : System Unit, Steps step Any {} s ∧ s.world.now = 1 ∧ ∃ derived ∈ s.contexts,
      derived.context.deadline = some .posInfinity ∧
      (s.world.signal derived.context.signal).reason = some (.exceeded derived.context.signal) ∧
      reached s.world.now derived.context.deadline = false := by
  have bounded : ∀ timeoutMs ∈ [Number.finite 2147483648, Number.posInfinity],
      ∃ s : System Unit, Steps step Any {} s ∧ s.world.now = 1 ∧ ∃ derived ∈ s.contexts,
        derived.context.deadline = some timeoutMs ∧
        (s.world.signal derived.context.signal).reason = some (.exceeded derived.context.signal) ∧
        reached s.world.now derived.context.deadline = false := by
    have evaluated : ([Number.finite 2147483648, Number.posInfinity].all fun timeoutMs =>
        (exec (step (E := Unit)) {}
          [.newSignal, .newContext false 0, .derive 0 (.bounded timeoutMs), .elapse 1, .fire 1]).any fun s =>
          decide (s.world.now = 1 ∧ ∃ derived ∈ s.contexts, derived.context.deadline = some timeoutMs ∧
            (s.world.signal derived.context.signal).reason = some (.exceeded derived.context.signal) ∧
            reached s.world.now derived.context.deadline = false)) = true := by
      decide +kernel
    intro timeoutMs member
    have passed := List.all_eq_true.mp evaluated timeoutMs member
    simp only [Option.any_eq_true, decide_eq_true_eq] at passed
    obtain ⟨s, reached, early⟩ := passed
    exact ⟨s, exec_steps reached, early⟩
  exact ⟨bounded _ (by simp), bounded _ (by simp)⟩

/-- A joined signal with a deadline of a second ends a context that has five. -/
theorem joined_early : ∃ s : System Unit, Steps step Any {} s ∧ s.world.now = 1000 ∧ ∃ derived ∈ s.contexts,
    derived.context.deadline = some (.finite 5000) ∧
    (s.world.signal derived.context.signal).reason = some (.exceeded 1) ∧
    reached s.world.now derived.context.deadline = false := by
  have evaluated : ((exec (step (E := Unit)) {}
      [.newSignal, .newContext false 0, .derive 0 (.bounded (.finite 1000)), .newSignal, .newContext false 2,
        .derive 2 (.withExternalCancellation 1), .derive 3 (.bounded (.finite 5000)), .elapse 1000, .fire 1, .advance,
        .advance]).any fun s =>
        decide (s.world.now = 1000 ∧ ∃ derived ∈ s.contexts, derived.context.deadline = some (.finite 5000) ∧
          (s.world.signal derived.context.signal).reason = some (.exceeded 1) ∧
          reached s.world.now derived.context.deadline = false)) = true := by
    decide +kernel
  simp only [Option.any_eq_true, decide_eq_true_eq] at evaluated
  obtain ⟨s, reached, early⟩ := evaluated
  exact ⟨s, exec_steps reached, early⟩

/-- A call that sets a timer for a deadline that is not the one in force. -/
theorem derive_timed {w : World E} {of : AnyContext} {d : Derivation}
    (timed : (∃ deadline, d = .withDeadline deadline) ∨ ∃ timeoutMs, d = .bounded timeoutMs)
    (changed : strictlyEqual (effectiveDeadline w.now of d) of.deadline = false) :
    ∃ result limit, derive w d of = some (result, (composeSignal w of.signal (some limit)).2) ∧
      effectiveDeadline w.now of d = some limit ∧ result.deadline = some limit ∧ result.signal = w.count := by
  have requests : ∃ requested, effectiveDeadline w.now of d = childDeadline of.deadline requested ∧
      derive w d of = derive w (.withDeadline requested) of := by
    rcases timed with ⟨deadline, rfl⟩ | ⟨timeoutMs, rfl⟩
    · exact ⟨deadline, rfl, rfl⟩
    · exact ⟨some (boundedDeadline w.now of.deadline timeoutMs), rfl, by cases of <;> rfl⟩
  obtain ⟨requested, effective, same⟩ := requests
  rw [effective] at changed
  obtain ⟨limit, limited⟩ := childDeadline_some changed
  rw [same, effective, limited]
  rw [limited] at changed
  cases of with
  | context state =>
    simp only [AnyContext.deadline] at limited changed
    refine ⟨.context { state with deadline := some limit, signal := w.count }, limit, ?_, rfl, rfl, rfl⟩
    simp only [derive, deriveContext, Context.withDeadline, limited, changed, Bool.false_eq_true, if_false]
    rfl
  | messageContext base state =>
    simp only [AnyContext.deadline] at limited changed
    refine ⟨MessageContext.fromMessageState { state with deadline := some limit, signal := w.count }, limit, ?_, rfl, rfl, rfl⟩
    simp only [derive, deriveMessageContext, MessageContext.withDeadline, keepsThis, limited, changed,
      Bool.false_eq_true, if_false]
    rfl

/-- The bound is sharp: a call that sets a timer for a deadline out of reach
    can have the context aborted a millisecond later. -/
theorem far_deadline_aborts (reach : Reachable s) {c : Nat} {of : Derived} {d : Derivation}
    (found : s.contexts[c]? = some of)
    (timed : (∃ deadline, d = .withDeadline deadline) ∨ ∃ timeoutMs, d = .bounded timeoutMs)
    (changed : strictlyEqual (effectiveDeadline s.world.now of.context d) of.context.deadline = false)
    (far : withinReach s.world.now (effectiveDeadline s.world.now of.context d) = false)
    (quiet : s.world.stack = []) (live : s.world.aborted of.context.signal = false) :
    ∃ t derived, Steps step Any s t ∧ t.contexts[s.contexts.length]? = some derived ∧
      derived.context.deadline = effectiveDeadline s.world.now of.context d ∧
      (t.world.signal derived.context.signal).reason = some (.exceeded derived.context.signal) ∧
      reached t.world.now derived.context.deadline = false := by
  obtain ⟨result, limit, derives, effective, deadline, signal⟩ := derive_timed timed changed
  rw [effective] at far ⊢
  obtain ⟨soon, early⟩ := due_early far
  have known := reachable_known reach of (List.mem_of_getElem? found)
  have other : s.world.count ≠ of.context.signal := (Nat.ne_of_lt known).symm
  have alone : joinedBy d = none := by
    rcases timed with ⟨deadline, rfl⟩ | ⟨timeoutMs, rfl⟩ <;> rfl
  -- the derivation, one millisecond, and the timer
  let w := addListener (create s.world (composition s.world of.context.signal limit)) of.context.signal s.world.count
  let new : Derived := { context := result, parent := parentBy c d, joined := joinedBy d }
  let derived : System E := { world := w, contexts := s.contexts ++ [new] }
  let waited : System E := { derived with world := { w with now := w.now + 1 } }
  have first : step s (.derive c d) = some derived := by
    simp only [step, found, joinable, alone, if_true, derives, Option.map_some, composeSignal_eq, live,
      Bool.false_eq_true, if_false, derived, new, w]
  have second : step derived (.elapse 1) = some waited := by
    simp only [step, if_pos (show (0 : ℚ) ≤ 1 by norm_num), waited, derived]
  have made : waited.world.signal s.world.count = composition s.world of.context.signal limit := by
    simp only [waited, w, addListener, World.update, Function.update_of_ne other, create_signal, if_true]
  let stopped := removeListener (clearTimer waited.world s.world.count) of.context.signal s.world.count
  let fired : System E := { waited with world := abortFirst stopped s.world.count (.exceeded s.world.count) }
  have third : step waited (.fire s.world.count) = some fired := by
    have idle : waited.world.stack = [] := quiet
    have elapsed : s.world.now + platformDelay (timeUntil limit s.world.now) ≤ waited.world.now := by
      rw [soon]
      exact le_refl _
    simp only [step, fire, made, composition, idle, elapsed, and_self, if_true, Option.map_some, fired, stopped]
  have untouched : stopped.aborted s.world.count = false := by
    have unborn : (composition s.world of.context.signal limit).reason = none := rfl
    simp only [World.aborted, stopped, removeListener, clearTimer, World.update, Function.update_of_ne other,
      Function.update_self, made, unborn, Option.isSome_none]
  refine ⟨fired, new, ?_, List.getElem?_concat_length, deadline, ?_, ?_⟩
  · exact steps_trans (steps_single trivial first) (steps_trans (steps_single trivial second) (steps_single trivial third))
  · have own : new.context.signal = s.world.count := signal
    rw [own]
    exact abortFirst_reason untouched _
  · have now : fired.world.now = s.world.now + 1 := abortFirst_now _ _ _
    rw [now]
    have has : new.context.deadline = some limit := deadline
    rw [has]
    exact early

end Honesty

end ContextDerivations
