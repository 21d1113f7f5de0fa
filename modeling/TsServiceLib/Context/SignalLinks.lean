import Mathlib.Algebra.BigOperators.Group.Finset.Basic
import Mathlib.Algebra.Order.BigOperators.Group.Finset
import TsServiceLib.Context.ContextLines

/-!
How the signals hang together. A signal that has not been aborted is a listener
of each of its sources, and a source that has been aborted is about to call it.
One signal may be loose for a moment: it has just been made, or has just been
taken off the list of the listeners to be called.
-/
namespace AbortSignals
open Numbers

section Fields
variable {E : Type} (w : World E) (signal child k : Nat)

theorem update_signal (change : Signal E → Signal E) :
    (w.update child change).signal k = if k = child then change (w.signal child) else w.signal k := by
  simp only [World.update, Function.update_apply]

theorem aborted_update {change : Signal E → Signal E} (same : (change (w.signal child)).reason = (w.signal child).reason) :
    (w.update child change).aborted k = w.aborted k := by
  simp only [World.aborted, update_signal]
  split
  · rename_i here
    rw [same, here]
  · rfl

theorem sources_update {change : Signal E → Signal E} (same : (change (w.signal child)).origin = (w.signal child).origin) :
    (w.update child change).sources k = w.sources k := by
  simp only [World.sources, update_signal]
  split
  · rename_i here
    rw [same, here]
  · rfl

@[simp] theorem aborted_addListener : (addListener w signal child).aborted k = w.aborted k := aborted_update w signal k rfl

@[simp] theorem aborted_removeListener : (removeListener w signal child).aborted k = w.aborted k :=
  aborted_update w signal k rfl

@[simp] theorem aborted_clearTimer : (clearTimer w child).aborted k = w.aborted k := aborted_update w child k rfl

@[simp] theorem sources_addListener : (addListener w signal child).sources k = w.sources k := sources_update w signal k rfl

@[simp] theorem sources_removeListener : (removeListener w signal child).sources k = w.sources k :=
  sources_update w signal k rfl

@[simp] theorem sources_clearTimer : (clearTimer w child).sources k = w.sources k := sources_update w child k rfl

@[simp] theorem stack_addListener : (addListener w signal child).stack = w.stack := rfl

@[simp] theorem stack_removeListener : (removeListener w signal child).stack = w.stack := rfl

@[simp] theorem stack_clearTimer : (clearTimer w child).stack = w.stack := rfl

theorem listeners_addListener : ((addListener w signal child).signal k).listeners =
    if k = signal then (w.signal signal).listeners ++ [child] else (w.signal k).listeners := by
  simp only [addListener, update_signal]
  split <;> rfl

theorem listeners_removeListener : ((removeListener w signal child).signal k).listeners =
    if k = signal then (w.signal signal).listeners.filter (· ≠ child) else (w.signal k).listeners := by
  simp only [removeListener, update_signal]
  split <;> rfl

theorem listeners_clearTimer : ((clearTimer w child).signal k).listeners = (w.signal k).listeners := by
  simp only [clearTimer, update_signal]
  split
  · rename_i here
    rw [here]
  · rfl

@[simp] theorem aborted_create (made : Signal E) :
    (create w made).aborted k = if k = w.count then made.reason.isSome else w.aborted k := by
  simp only [World.aborted, create_signal]
  split <;> rfl

@[simp] theorem sources_create (made : Signal E) :
    (create w made).sources k = if k = w.count then made.origin.sources else w.sources k := by
  simp only [World.sources, create_signal]
  split <;> rfl

theorem listeners_create (made : Signal E) : ((create w made).signal k).listeners =
    if k = w.count then made.listeners else (w.signal k).listeners := by
  simp only [create_signal]
  split <;> rfl

theorem abortWith_signal (reason : Reason E) (wave : Nat) : (abortWith w child reason wave).signal k =
    if k = child then { w.signal child with reason := some reason, wave } else w.signal k := by
  have changed := update_signal w child k fun s => { s with reason := some reason, wave }
  unfold abortWith
  dsimp only
  split <;> exact changed

theorem abortWith_stack (reason : Reason E) (wave : Nat) : (abortWith w child reason wave).stack =
    if (w.signal child).listeners = [] then w.stack else .dispatch child (w.signal child).listeners :: w.stack := by
  unfold abortWith
  dsimp only
  split
  · rename_i none'
    rw [if_pos none']
    rfl
  · rename_i some'
    rw [if_neg some']

theorem abortWith_count (reason : Reason E) (wave : Nat) : (abortWith w child reason wave).count = w.count := by
  unfold abortWith
  dsimp only
  split <;> rfl

@[simp] theorem aborted_abortWith (reason : Reason E) (wave : Nat) :
    (abortWith w child reason wave).aborted k = (decide (k = child) || w.aborted k) := by
  simp only [World.aborted, abortWith_signal]
  split
  · rename_i here
    simp [here]
  · rename_i other
    simp [other]

@[simp] theorem sources_abortWith (reason : Reason E) (wave : Nat) :
    (abortWith w child reason wave).sources k = w.sources k := by
  simp only [World.sources, abortWith_signal]
  split
  · rename_i here
    rw [here]
  · rfl

theorem listeners_abortWith (reason : Reason E) (wave : Nat) :
    ((abortWith w child reason wave).signal k).listeners = (w.signal k).listeners := by
  rw [abortWith_signal]
  split
  · rename_i here
    rw [here]
  · rfl

theorem abortLike_aborts (aborted : w.aborted signal = true) : (abortLike w child signal).aborted child = true := by
  obtain ⟨reason, found⟩ := Option.isSome_iff_exists.mp aborted
  simp only [abortLike, found]
  split
  · assumption
  · simp

theorem abortFirst_aborts (reason : Reason E) : (abortFirst w child reason).aborted child = true := by
  unfold abortFirst
  split
  · assumption
  · simp

end Fields

section Woven
variable {E : Type} {v w : World E} {loose : Option Nat} {child signal : Nat}

/-- An event in progress is still to call the listener. -/
def Pending (w : World E) (signal child : Nat) : Prop :=
  ∃ remaining, Frame.dispatch signal remaining ∈ w.stack ∧ child ∈ remaining

structure Woven (w : World E) (loose : Option Nat) : Prop where
  unmade : ∀ k, w.count ≤ k → w.signal k = { origin := .root }
  older : ∀ k s, s ∈ w.sources k → s < k
  listening : ∀ s k, k ∈ (w.signal s).listeners → s ∈ w.sources k
  linked : ∀ k s, loose ≠ some k → w.aborted k = false → s ∈ w.sources k →
    k ∈ (w.signal s).listeners ∧ (w.aborted s = false ∨ Pending w s k)
  dispatching : ∀ s remaining, .dispatch s remaining ∈ w.stack →
    w.aborted s = true ∧ ∀ k ∈ remaining, s ∈ w.sources k
  cleaning : ∀ k, .cleanup k ∈ w.stack → loose = some k ∨ w.aborted k = true

theorem woven_made (woven : Woven w loose) {k s : Nat} (source : s ∈ w.sources k) : k < w.count := by
  by_contra unmade
  have blank := woven.unmade k (Nat.le_of_not_lt unmade)
  simp only [World.sources, blank, Origin.sources, List.not_mem_nil] at source

theorem woven_aborted_made (woven : Woven w loose) {k : Nat} (aborted : w.aborted k = true) : k < w.count := by
  by_contra unmade
  have blank := woven.unmade k (Nat.le_of_not_lt unmade)
  simp [World.aborted, blank] at aborted

theorem woven_loosen (woven : Woven w none) (child : Nat) : Woven w (some child) where
  unmade := woven.unmade
  older := woven.older
  listening := woven.listening
  linked k s _ live source := woven.linked k s (by intro same; cases same) live source
  dispatching := woven.dispatching
  cleaning := by
    intro k frame
    rcases woven.cleaning k frame with same | aborted
    · cases same
    · exact .inr aborted

/-- A loose signal that has been aborted is not missed. -/
theorem woven_tighten (woven : Woven w (some child)) (aborted : w.aborted child = true) : Woven w none where
  unmade := woven.unmade
  older := woven.older
  listening := woven.listening
  linked := by
    intro k s _ live source
    apply woven.linked k s _ live source
    intro same
    cases same
    rw [aborted] at live
    cases live
  dispatching := woven.dispatching
  cleaning := by
    intro k frame
    rcases woven.cleaning k frame with same | other
    · cases same
      exact .inr aborted
    · exact .inr other

theorem woven_settle (woven : Woven w (some child))
    (linked : ∀ s ∈ w.sources child, child ∈ (w.signal s).listeners ∧ w.aborted s = false)
    (clean : Frame.cleanup child ∉ w.stack) : Woven w none where
  unmade := woven.unmade
  older := woven.older
  listening := woven.listening
  linked := by
    intro k s _ live source
    by_cases here : k = child
    · subst here
      exact ⟨(linked s source).1, .inl (linked s source).2⟩
    · apply woven.linked k s _ live source
      intro same
      cases same
      exact here rfl
  dispatching := woven.dispatching
  cleaning := by
    intro k frame
    rcases woven.cleaning k frame with same | other
    · cases same
      exact absurd frame clean
    · exact .inr other

theorem woven_create (woven : Woven w none) (made : Signal E) (alone : made.listeners = [])
    (known : ∀ s ∈ made.origin.sources, s < w.count) : Woven (create w made) (some w.count) where
  unmade := by
    intro k above
    have later : w.count < k := above
    rw [create_signal, if_neg (Nat.ne_of_gt later)]
    exact woven.unmade k (Nat.le_of_lt later)
  older := by
    intro k s source
    rw [sources_create] at source
    split at source
    · rename_i here
      rw [here]
      exact known s source
    · exact woven.older k s source
  listening := by
    intro s k member
    rw [listeners_create] at member
    rw [sources_create]
    split at member
    · rw [alone] at member
      cases member
    · have source := woven.listening s k member
      rw [if_neg (Nat.ne_of_lt (woven_made woven source))]
      exact source
  linked := by
    intro k s tight live source
    have other : k ≠ w.count := fun here => tight (by rw [here])
    rw [aborted_create, if_neg other] at live
    rw [sources_create, if_neg other] at source
    have old : s ≠ w.count := Nat.ne_of_lt (Nat.lt_trans (woven.older k s source) (woven_made woven source))
    have before := woven.linked k s (by intro same; cases same) live source
    rw [listeners_create, if_neg old, aborted_create, if_neg old]
    exact before
  dispatching := by
    intro s remaining frame
    obtain ⟨aborted, children⟩ := woven.dispatching s remaining frame
    have old : s ≠ w.count := Nat.ne_of_lt (woven_aborted_made woven aborted)
    rw [aborted_create, if_neg old]
    refine ⟨aborted, ?_⟩
    intro k member
    have source := children k member
    rw [sources_create, if_neg (Nat.ne_of_lt (woven_made woven source))]
    exact source
  cleaning := by
    intro k frame
    rcases woven.cleaning k frame with same | aborted
    · cases same
    · have old : k ≠ w.count := Nat.ne_of_lt (woven_aborted_made woven aborted)
      rw [aborted_create, if_neg old]
      exact .inr aborted

theorem woven_listen (woven : Woven w loose) (source : signal ∈ w.sources child) :
    Woven (addListener w signal child) loose where
  unmade := by
    intro k above
    have early := Nat.lt_trans (woven.older child signal source) (woven_made woven source)
    have later : w.count ≤ k := above
    rw [addListener, update_signal, if_neg (by omega)]
    exact woven.unmade k later
  older := by simpa using woven.older
  listening := by
    intro s k member
    rw [sources_addListener]
    rw [listeners_addListener] at member
    split at member
    · rename_i here
      rcases List.mem_append.mp member with old | new
      · rw [here]
        exact woven.listening signal k old
      · rw [List.mem_singleton] at new
        rw [here, new]
        exact source
    · exact woven.listening s k member
  linked := by
    intro k s tight live link
    rw [aborted_addListener] at live
    rw [sources_addListener] at link
    obtain ⟨member, reachable⟩ := woven.linked k s tight live link
    rw [aborted_addListener, listeners_addListener]
    refine ⟨?_, reachable⟩
    split
    · rename_i here
      rw [here] at member
      exact List.mem_append_left _ member
    · exact member
  dispatching := by simpa using woven.dispatching
  cleaning := by simpa using woven.cleaning

theorem woven_unlisten (woven : Woven w loose) (free : loose = some child ∨ w.aborted child = true) (signal : Nat) :
    Woven (removeListener w signal child) loose where
  unmade := by
    intro k above
    have later : w.count ≤ k := above
    have blank := woven.unmade k later
    rw [removeListener, update_signal]
    split
    · rename_i here
      rw [← here, blank]
      rfl
    · exact blank
  older := by simpa using woven.older
  listening := by
    intro s k member
    rw [sources_removeListener]
    rw [listeners_removeListener] at member
    split at member
    · rename_i here
      rw [here]
      exact woven.listening signal k (List.mem_filter.mp member).1
    · exact woven.listening s k member
  linked := by
    intro k s tight live link
    rw [aborted_removeListener] at live
    rw [sources_removeListener] at link
    obtain ⟨member, reachable⟩ := woven.linked k s tight live link
    have other : k ≠ child := by
      intro here
      subst here
      rcases free with same | aborted
      · exact tight same
      · rw [aborted] at live
        cases live
    rw [aborted_removeListener, listeners_removeListener]
    refine ⟨?_, reachable⟩
    split
    · rename_i here
      rw [here] at member
      exact List.mem_filter.mpr ⟨member, by simpa using other⟩
    · exact member
  dispatching := by simpa using woven.dispatching
  cleaning := by simpa using woven.cleaning

theorem woven_unlistens (woven : Woven w loose) (free : w.aborted child = true) (signals : List Nat) :
    Woven (removeListeners w signals child) loose := by
  induction signals generalizing w with
  | nil => exact woven
  | cons signal rest ih => exact ih (woven_unlisten woven (.inr free) signal) (by simpa using free)

theorem woven_clear (woven : Woven w loose) (child : Nat) : Woven (clearTimer w child) loose where
  unmade := by
    intro k above
    have later : w.count ≤ k := above
    have blank := woven.unmade k later
    rw [clearTimer, update_signal]
    split
    · rename_i here
      rw [← here, blank]
    · exact blank
  older := by simpa using woven.older
  listening := by simpa [listeners_clearTimer] using woven.listening
  linked := by simpa [listeners_clearTimer, Pending] using woven.linked
  dispatching := by simpa using woven.dispatching
  cleaning := by simpa using woven.cleaning

/-- The listeners of a signal that is aborted are about to be called. -/
theorem woven_abort (woven : Woven w loose) (made : child < w.count) (live : w.aborted child = false)
    (reason : Reason E) (wave : Nat) : Woven (abortWith w child reason wave) loose where
  unmade := by
    intro k above
    rw [abortWith_count] at above
    rw [abortWith_signal, if_neg (by omega)]
    exact woven.unmade k above
  older := by simpa using woven.older
  listening := by simpa [listeners_abortWith] using woven.listening
  linked := by
    intro k s tight open' source
    rw [aborted_abortWith, Bool.or_eq_false_iff] at open'
    rw [sources_abortWith] at source
    obtain ⟨member, reachable⟩ := woven.linked k s tight open'.2 source
    rw [listeners_abortWith, aborted_abortWith]
    refine ⟨member, ?_⟩
    by_cases here : s = child
    · subst here
      have some' : (w.signal s).listeners ≠ [] := List.ne_nil_of_mem member
      refine .inr ⟨(w.signal s).listeners, ?_, member⟩
      rw [abortWith_stack, if_neg some']
      exact List.mem_cons_self
    · rcases reachable with quiet | ⟨remaining, frame, waits⟩
      · exact .inl (by simp [here, quiet])
      · refine .inr ⟨remaining, ?_, waits⟩
        rw [abortWith_stack]
        split
        · exact frame
        · exact List.mem_cons_of_mem _ frame
  dispatching := by
    intro s remaining frame
    have old : Frame.dispatch s remaining ∈ w.stack → (abortWith w child reason wave).aborted s = true ∧
        ∀ k ∈ remaining, s ∈ (abortWith w child reason wave).sources k := by
      intro before
      obtain ⟨aborted, children⟩ := woven.dispatching s remaining before
      simp only [aborted_abortWith, aborted, Bool.or_true, sources_abortWith, true_and]
      exact children
    rw [abortWith_stack] at frame
    split at frame
    · exact old frame
    · rcases List.mem_cons.mp frame with new | before
      · cases new
        simp only [aborted_abortWith, decide_true, Bool.true_or, sources_abortWith, true_and]
        exact fun k member => woven.listening child k member
      · exact old before
  cleaning := by
    intro k frame
    have before : Frame.cleanup k ∈ w.stack := by
      rw [abortWith_stack] at frame
      split at frame
      · exact frame
      · rcases List.mem_cons.mp frame with new | before
        · cases new
        · exact before
    rcases woven.cleaning k before with same | aborted
    · exact .inl same
    · exact .inr (by simp [aborted])

theorem woven_abortLike (woven : Woven w loose) (made : child < w.count) (signal : Nat) :
    Woven (abortLike w child signal) loose := by
  unfold abortLike
  split
  · split
    · exact woven
    · rename_i live
      exact woven_abort woven made (by simpa using live) _ _
  · exact woven

theorem woven_waves (woven : Woven w loose) (waves : Nat) : Woven { w with waves } loose where
  unmade := woven.unmade
  older := woven.older
  listening := woven.listening
  linked := woven.linked
  dispatching := woven.dispatching
  cleaning := woven.cleaning

theorem woven_abortFirst (woven : Woven w loose) (made : child < w.count) (reason : Reason E) :
    Woven (abortFirst w child reason) loose := by
  unfold abortFirst
  split
  · exact woven
  · rename_i live
    exact woven_abort (woven_waves woven (w.waves + 1)) made (Bool.eq_false_iff.mpr live) _ _

theorem woven_cleanup (woven : Woven w (some child)) :
    Woven { w with stack := .cleanup child :: w.stack } (some child) where
  unmade := woven.unmade
  older := woven.older
  listening := woven.listening
  linked := by
    intro k s tight live source
    obtain ⟨member, reachable⟩ := woven.linked k s tight live source
    refine ⟨member, ?_⟩
    rcases reachable with quiet | ⟨remaining, frame, waits⟩
    · exact .inl quiet
    · exact .inr ⟨remaining, List.mem_cons_of_mem _ frame, waits⟩
  dispatching := by
    intro s remaining frame
    rcases List.mem_cons.mp frame with new | before
    · cases new
    · exact woven.dispatching s remaining before
  cleaning := by
    intro k frame
    rcases List.mem_cons.mp frame with new | before
    · cases new
      exact .inl rfl
    · exact woven.cleaning k before

/-- A listener has been taken off the list of those to be called. -/
theorem woven_take {rest : List Nat} {below : List Frame} (woven : Woven w none)
    (stack : w.stack = .dispatch signal (child :: rest) :: below) :
    Woven { w with stack := .dispatch signal rest :: below } (some child) where
  unmade := woven.unmade
  older := woven.older
  listening := woven.listening
  linked := by
    intro k s tight live source
    obtain ⟨member, reachable⟩ := woven.linked k s (by intro same; cases same) live source
    refine ⟨member, ?_⟩
    rcases reachable with quiet | ⟨remaining, frame, waits⟩
    · exact .inl quiet
    · rw [stack] at frame
      rcases List.mem_cons.mp frame with top | before
      · cases top
        rcases List.mem_cons.mp waits with here | later
        · exact absurd (by rw [here]) tight
        · exact .inr ⟨rest, List.mem_cons_self, later⟩
      · exact .inr ⟨remaining, List.mem_cons_of_mem _ before, waits⟩
  dispatching := by
    intro s remaining frame
    rcases List.mem_cons.mp frame with top | before
    · cases top
      obtain ⟨aborted, children⟩ := woven.dispatching signal (child :: rest) (by rw [stack]; exact List.mem_cons_self)
      exact ⟨aborted, fun k member => children k (List.mem_cons_of_mem _ member)⟩
    · exact woven.dispatching s remaining (by rw [stack]; exact List.mem_cons_of_mem _ before)
  cleaning := by
    intro k frame
    rcases List.mem_cons.mp frame with top | before
    · cases top
    · rcases woven.cleaning k (by rw [stack]; exact List.mem_cons_of_mem _ before) with same | aborted
      · cases same
      · exact .inr aborted

theorem woven_drop {top : Frame} {below : List Frame} (woven : Woven w none) (stack : w.stack = top :: below)
    (done' : ∀ s remaining, top = .dispatch s remaining → remaining = []) : Woven { w with stack := below } none where
  unmade := woven.unmade
  older := woven.older
  listening := woven.listening
  linked := by
    intro k s tight live source
    obtain ⟨member, reachable⟩ := woven.linked k s tight live source
    refine ⟨member, ?_⟩
    rcases reachable with quiet | ⟨remaining, frame, waits⟩
    · exact .inl quiet
    · rw [stack] at frame
      rcases List.mem_cons.mp frame with here | before
      · rw [done' s remaining here.symm] at waits
        cases waits
      · exact .inr ⟨remaining, before, waits⟩
  dispatching s remaining frame := woven.dispatching s remaining (by rw [stack]; exact List.mem_cons_of_mem _ frame)
  cleaning k frame := woven.cleaning k (by rw [stack]; exact List.mem_cons_of_mem _ frame)

theorem woven_abortFromParent (woven : Woven w (some child)) (made : child < w.count) (aborted : w.aborted signal = true) :
    Woven (abortFromParent w child signal) none := by
  have freed := woven_unlisten (woven_clear woven child) (.inl rfl) signal
  refine woven_tighten (woven_abortLike freed made signal) ?_
  exact abortLike_aborts _ signal child (by simpa using aborted)

theorem woven_notify (woven : Woven w (some child)) (made : child < w.count) (aborted : w.aborted signal = true) :
    Woven (notify w child signal) none := by
  unfold notify
  split
  · exact woven_abortFromParent woven made aborted
  · refine woven_tighten (woven_abortLike (woven_cleanup woven) made signal) ?_
    exact abortLike_aborts _ signal child aborted

theorem woven_composeSignal (woven : Woven w none) (known : signal < w.count) (deadline : Number) :
    Woven (composeSignal w signal (some deadline)).2 none := by
  have other : signal ≠ w.count := Nat.ne_of_lt known
  have link : signal ∈ (create w (composition w signal deadline)).sources w.count := by
    rw [sources_create, if_pos rfl]
    exact List.mem_singleton_self signal
  have listening := woven_listen
    (woven_create woven (composition w signal deadline) rfl (by
      intro s source
      have here : s = signal := List.mem_singleton.mp source
      rw [here]
      exact known)) link
  rw [composeSignal_eq]
  dsimp only
  split
  · rename_i aborted
    exact woven_abortFromParent listening (Nat.lt_succ_self w.count) (by simp [other, aborted])
  · rename_i live
    refine woven_settle listening ?_ ?_
    · intro s source
      rw [sources_addListener, sources_create, if_pos rfl] at source
      have here : s = signal := List.mem_singleton.mp source
      rw [here, listeners_addListener, if_pos rfl]
      exact ⟨List.mem_append_right _ (List.mem_singleton_self _), by simpa [other] using live⟩
    · intro frame
      rcases woven.cleaning w.count frame with same | aborted
      · cases same
      · exact Nat.lt_irrefl _ (woven_aborted_made woven aborted)

theorem woven_combineLoop (woven : Woven w (some child)) (made : child < w.count) (clean : Frame.cleanup child ∉ w.stack)
    {signals listened : List Nat} (sources : ∀ s ∈ signals, s ∈ w.sources child)
    (linked : ∀ s ∈ listened, child ∈ (w.signal s).listeners ∧ w.aborted s = false)
    (all : ∀ s ∈ w.sources child, s ∈ listened ∨ s ∈ signals) : Woven (combineLoop child w signals listened) none := by
  induction signals generalizing w listened with
  | nil =>
    refine woven_settle woven ?_ clean
    intro s source
    rcases all s source with member | absent
    · exact linked s member
    · cases absent
  | cons signal rest ih =>
    have link := sources signal List.mem_cons_self
    simp only [combineLoop]
    split
    · rename_i before
      apply ih woven made clean (fun s member => sources s (List.mem_cons_of_mem _ member)) linked
      intro s source
      rcases all s source with member | next
      · exact .inl member
      · rcases List.mem_cons.mp next with here | later
        · exact .inl (by rwa [here])
        · exact .inr later
    · split
      · rename_i aborted
        have after := abortLike_aborts w signal child aborted
        exact woven_unlistens (woven_tighten (woven_abortLike woven made signal) after) after listened
      · rename_i live
        apply ih (woven_listen woven link) made clean
        · intro s member
          rw [sources_addListener]
          exact sources s (List.mem_cons_of_mem _ member)
        · intro s member
          rw [listeners_addListener, aborted_addListener]
          rcases List.mem_append.mp member with before | new
          · obtain ⟨listens, quiet⟩ := linked s before
            refine ⟨?_, quiet⟩
            split
            · rename_i here
              rw [here] at listens
              exact List.mem_append_left _ listens
            · exact listens
          · rw [List.mem_singleton] at new
            rw [new, if_pos rfl]
            exact ⟨List.mem_append_right _ (List.mem_singleton_self _), by simpa using live⟩
        · intro s source
          rw [sources_addListener] at source
          rcases all s source with member | next
          · exact .inl (List.mem_append_left _ member)
          · rcases List.mem_cons.mp next with here | later
            · exact .inl (List.mem_append_right _ (by rw [here]; exact List.mem_singleton_self _))
            · exact .inr later

theorem woven_combineAbortSignals (woven : Woven w none) {first second : Nat} (known : first < w.count)
    (known' : second < w.count) : Woven (combineAbortSignals w [first, second]).2 none := by
  have sources : (create w (combination w [first, second])).sources w.count = [first, second] := by
    rw [sources_create, if_pos rfl]
    rfl
  apply woven_combineLoop (w := create w (combination w [first, second]))
  · apply woven_create woven (combination w [first, second]) rfl
    intro s source
    have either : s = first ∨ s = second := by simpa [combination, Origin.sources] using source
    rcases either with here | here
    · rwa [here]
    · rwa [here]
  · exact Nat.lt_succ_self w.count
  · intro frame
    rcases woven.cleaning w.count frame with same | aborted
    · cases same
    · exact Nat.lt_irrefl _ (woven_aborted_made woven aborted)
  · intro s member
    rw [sources]
    exact member
  · intro s member
    cases member
  · intro s source
    rw [sources] at source
    exact .inr source

theorem woven_root (woven : Woven w none) : Woven (create w { origin := .root }) none := by
  refine woven_settle (woven_create woven { origin := .root } rfl ?_) ?_ ?_
  · intro s source
    cases source
  · intro s source
    rw [sources_create, if_pos rfl] at source
    cases source
  · intro frame
    rcases woven.cleaning w.count frame with same | aborted
    · cases same
    · exact Nat.lt_irrefl _ (woven_aborted_made woven aborted)

theorem woven_missing (woven : Woven w none) {rest : List Nat} {below : List Frame}
    (stack : w.stack = .dispatch signal (child :: rest) :: below) (missing : child ∉ (w.signal signal).listeners) :
    w.aborted child = true := by
  by_contra live
  have link := (woven.dispatching signal (child :: rest) (by rw [stack]; exact List.mem_cons_self)).2 child List.mem_cons_self
  exact missing (woven.linked child signal (by intro same; cases same) (by simpa using live) link).1

theorem woven_advance (woven : Woven v none) (next : advance v = some w) : Woven w none := by
  unfold advance at next
  split at next
  · cases next
  · rename_i s below stack
    cases next
    refine woven_drop woven stack ?_
    intro s' remaining same
    cases same
    rfl
  · rename_i signal child rest below stack
    have taken := woven_take woven stack
    obtain ⟨aborted, children⟩ := woven.dispatching signal (child :: rest) (by rw [stack]; exact List.mem_cons_self)
    dsimp only at next
    split at next
    · cases next
      refine woven_notify (woven_unlisten taken (.inl rfl) signal) ?_ ?_
      · exact woven_made woven (children child List.mem_cons_self)
      · exact (aborted_removeListener _ signal child signal).trans aborted
    · rename_i missing
      cases next
      have aborted : v.aborted child = true := woven_missing woven stack missing
      exact woven_tighten taken aborted
  · rename_i child below stack
    cases next
    have aborted : v.aborted child = true := by
      rcases woven.cleaning child (by rw [stack]; exact List.mem_cons_self) with same | aborted
      · cases same
      · exact aborted
    refine woven_unlistens (woven_drop woven stack ?_) aborted _
    intro s remaining same
    cases same

/-- Between the events: a source is not aborted without the signal. -/
theorem woven_quiet (woven : Woven w none) (quiet : w.stack = []) {s k : Nat} (source : s ∈ w.sources k)
    (aborted : w.aborted s = true) : w.aborted k = true := by
  by_contra live
  rcases (woven.linked k s (by intro same; cases same) (by simpa using live) source).2 with open' | ⟨remaining, frame, -⟩
  · rw [aborted] at open'
    cases open'
  · rw [quiet] at frame
    cases frame

end Woven

section Effort
variable {E : Type} {v w : World E} {child signal : Nat}

/-- What the abort of a signal can still add to the work, with a unit to spare. -/
def burden (w : World E) (k : Nat) : Nat := if w.aborted k then 0 else 2 * (w.signal k).listeners.length + 2

def Frame.weight : Frame → Nat
  | .dispatch _ remaining => 2 * remaining.length + 1
  | .cleanup _ => 1

/-- A bound on the steps that the events in progress still take. -/
def effort (w : World E) : Nat := ∑ k ∈ Finset.range w.count, burden w k + (w.stack.map Frame.weight).sum

theorem effort_stack (stack : List Frame) : effort { w with stack } + (w.stack.map Frame.weight).sum =
    effort w + (stack.map Frame.weight).sum := by
  have same : ∀ k, burden { w with stack } k = burden w k := fun _ => rfl
  simp only [effort, same]
  omega

theorem burden_removeListener (w : World E) (signal child k : Nat) :
    burden (removeListener w signal child) k ≤ burden w k := by
  simp only [burden, aborted_removeListener, listeners_removeListener]
  split
  · exact Nat.le_refl _
  · split
    · rename_i here
      have shorter := List.length_filter_le (fun k => decide (k ≠ child)) (w.signal signal).listeners
      rw [here]
      omega
    · exact Nat.le_refl _

theorem effort_removeListener (w : World E) (signal child : Nat) : effort (removeListener w signal child) ≤ effort w := by
  have lighter : ∑ k ∈ Finset.range w.count, burden (removeListener w signal child) k ≤
      ∑ k ∈ Finset.range w.count, burden w k :=
    Finset.sum_le_sum fun k _ => burden_removeListener w signal child k
  exact Nat.add_le_add_right lighter _

theorem effort_removeListeners (w : World E) (signals : List Nat) (child : Nat) :
    effort (removeListeners w signals child) ≤ effort w := by
  induction signals generalizing w with
  | nil => exact Nat.le_refl _
  | cons signal rest ih => exact Nat.le_trans (ih _) (effort_removeListener w signal child)

theorem effort_clearTimer (w : World E) (child : Nat) : effort (clearTimer w child) = effort w := by
  have same : ∀ k, burden (clearTimer w child) k = burden w k := by
    intro k
    simp only [burden, aborted_clearTimer, listeners_clearTimer]
  have count : (clearTimer w child).count = w.count := rfl
  simp only [effort, same, count, stack_clearTimer]

/-- The listeners that an abort is to call were part of the burden of the signal. -/
theorem effort_abortWith (made : child < w.count) (live : w.aborted child = false) (reason : Reason E) (wave : Nat) :
    effort (abortWith w child reason wave) ≤ effort w := by
  have member : child ∈ Finset.range w.count := Finset.mem_range.mpr made
  have others : ∑ k ∈ (Finset.range w.count).erase child, burden (abortWith w child reason wave) k =
      ∑ k ∈ (Finset.range w.count).erase child, burden w k := by
    apply Finset.sum_congr rfl
    intro k other
    have apart := (Finset.mem_erase.mp other).1
    simp only [burden, aborted_abortWith, apart, decide_false, Bool.false_or, listeners_abortWith]
  have here : burden (abortWith w child reason wave) child = 0 := by
    simp only [burden, aborted_abortWith, decide_true, Bool.true_or, if_true]
  have before : burden w child = 2 * (w.signal child).listeners.length + 2 := by
    simp only [burden, live, Bool.false_eq_true, if_false]
  have pushed : ((abortWith w child reason wave).stack.map Frame.weight).sum ≤
      2 * (w.signal child).listeners.length + 1 + (w.stack.map Frame.weight).sum := by
    rw [abortWith_stack]
    split
    · omega
    · simp only [List.map_cons, List.sum_cons, Frame.weight]
      omega
  have after := Finset.add_sum_erase (Finset.range w.count) (burden (abortWith w child reason wave)) member
  have whole := Finset.add_sum_erase (Finset.range w.count) (burden w) member
  simp only [effort, abortWith_count]
  omega

theorem effort_abortLike (made : child < w.count) (signal : Nat) : effort (abortLike w child signal) ≤ effort w := by
  unfold abortLike
  split
  · split
    · exact Nat.le_refl _
    · rename_i live
      exact effort_abortWith made (Bool.eq_false_iff.mpr live) _ _
  · exact Nat.le_refl _

theorem effort_notify (made : child < w.count) (signal : Nat) : effort (notify w child signal) ≤ effort w + 1 := by
  unfold notify
  split
  · have aborts := effort_abortLike (w := removeListener (clearTimer w child) signal child) made signal
    have removed := effort_removeListener (clearTimer w child) signal child
    rw [effort_clearTimer] at removed
    exact Nat.le_succ_of_le (Nat.le_trans aborts removed)
  · have aborts := effort_abortLike (w := { w with stack := .cleanup child :: w.stack }) made signal
    have pushed := effort_stack (w := w) (.cleanup child :: w.stack)
    simp only [List.map_cons, List.sum_cons, Frame.weight] at pushed
    unfold abortCombined
    omega

theorem advance_effort (woven : Woven v none) (next : advance v = some w) : effort w < effort v := by
  unfold advance at next
  split at next
  · cases next
  · rename_i s below stack
    cases next
    have dropped := effort_stack (w := v) below
    simp only [stack, List.map_cons, List.sum_cons, Frame.weight] at dropped
    omega
  · rename_i signal child rest below stack
    have children := (woven.dispatching signal (child :: rest) (by rw [stack]; exact List.mem_cons_self)).2
    have made := woven_made woven (children child List.mem_cons_self)
    have taken := effort_stack (w := v) (.dispatch signal rest :: below)
    simp only [stack, List.map_cons, List.sum_cons, Frame.weight, List.length_cons] at taken
    dsimp only at next
    split at next
    · cases next
      have called := effort_notify
        (w := removeListener { v with stack := .dispatch signal rest :: below } signal child) made signal
      have removed := effort_removeListener { v with stack := .dispatch signal rest :: below } signal child
      omega
    · cases next
      omega
  · rename_i child below stack
    cases next
    have dropped := effort_stack (w := v) below
    have removed := effort_removeListeners { v with stack := below } (v.sources child) child
    simp only [stack, List.map_cons, List.sum_cons, Frame.weight] at dropped
    omega

/-- As long as an event is in progress it goes on. -/
theorem advance_enabled (busy : w.stack ≠ []) : ∃ w', advance w = some w' := by
  unfold advance
  split
  · contradiction
  · exact ⟨_, rfl⟩
  · dsimp only
    split <;> exact ⟨_, rfl⟩
  · exact ⟨_, rfl⟩

end Effort

end AbortSignals

namespace ContextDerivations
open Numbers AbortSignals Transitions

section Woven
variable {E : Type} {s t : System E}

theorem effect_woven {w w' : World E} {of result : AnyContext} {d : Derivation} (woven : Woven w none)
    (known : of.signal < w.count) (joinable : ∀ other, joinedBy d = some other → other < w.count)
    (effect : Effect w of d result w') : Woven w' none := by
  cases effect with
  | kept => exact woven
  | composed limit => exact woven_composeSignal woven known limit
  | combined other joins =>
    apply woven_combineAbortSignals woven known (joinable other ?_)
    rw [joins]
    rfl
  | detached => exact woven_root woven

theorem joinable_iff {d : Derivation} (passed : joinable s d = true) {other : Nat} (joins : joinedBy d = some other) :
    other < s.world.count := by
  simp only [joinable, joins, decide_eq_true_eq] at passed
  exact passed

theorem step_woven {a : Action E} (known : Known s) (woven : Woven s.world none) (next : step s a = some t) :
    Woven t.world none := by
  cases a with
  | newSignal =>
    cases next
    exact woven_root woven
  | newContext message signal =>
    simp only [step] at next
    split at next <;> cases next
    exact woven
  | abort signal reason =>
    simp only [step] at next
    split at next <;> cases next
    rename_i made
    exact woven_abortFirst woven made.1 _
  | derive c d =>
    cases step_enlarged next with
    | same w quiet => exact absurd rfl (quiet c d)
    | fresh => exact woven
    | derived here found passed deadline effect =>
      cases here
      have known' := known _ (List.mem_of_getElem? found)
      exact effect_woven woven known' (fun other joins => joinable_iff passed joins) effect
  | elapse time =>
    simp only [step] at next
    split at next <;> cases next
    exact ⟨woven.unmade, woven.older, woven.listening, woven.linked, woven.dispatching, woven.cleaning⟩
  | fire child =>
    obtain ⟨w, fired, same⟩ := Option.map_eq_some_iff.mp next
    cases same
    obtain ⟨parent, deadline, due, origin, -, -, -, rfl⟩ := fire_cases fired
    have link : parent ∈ s.world.sources child := by
      simp only [World.sources, origin, Origin.sources, List.mem_singleton]
    have made := woven_made woven link
    have freed := woven_unlisten (woven_clear (woven_loosen woven child) child) (.inl rfl) parent
    refine woven_tighten (woven_abortFirst freed made (.exceeded child)) ?_
    exact abortFirst_aborts _ _ _
  | advance =>
    obtain ⟨w, advanced, same⟩ := Option.map_eq_some_iff.mp next
    cases same
    exact woven_advance woven advanced

theorem woven_init : Woven ({} : World E) none where
  unmade _ _ := rfl
  older _ _ source := by cases source
  listening _ _ member := by cases member
  linked _ _ _ _ source := by cases source
  dispatching _ _ frame := by cases frame
  cleaning _ frame := by cases frame

theorem reachable_woven (reach : Reachable s) : Woven s.world none ∧ Known s := by
  refine steps_invariant (fun s => Woven s.world none ∧ Known s) ?_ reach ⟨woven_init, by intro derived member; cases member⟩
  intro s a t held _ next
  exact ⟨step_woven held.2 held.1 next, step_known held.2 next⟩

end Woven

end ContextDerivations
