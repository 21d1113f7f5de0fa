import TsServiceLib.Pool.AbortFanout
import Mathlib.Algebra.Order.BigOperators.Group.List
import Mathlib.Algebra.Order.Group.Nat

/-!
What becomes of the subscriptions to a signal. The abort event comes to its end:
every turn of it leaves less to do, and whatever a callback does adds nothing.
-/
namespace Pools.AbortSubscriptions
open Transitions EventLogs Function

variable {C : Type} {s t : State C} {current record : Option Nat} {waiting : List C} {c : C}

theorem under_way_aborted (shape : Shape s current waiting) (under_way : s.dispatch ≠ none) : s.aborted = true := by
  by_contra alive
  rcases shape_live shape (by simpa using alive) with ⟨-, -, -, dispatch⟩ | ⟨r, -, -, -, -, -, dispatch⟩
  · exact under_way dispatch
  · exact under_way dispatch

/-- What is waiting is what the event has still to come to. -/
theorem waiting_ahead (shape : Shape s current waiting) (gone : s.aborted = true) : waiting = ahead s := by
  cases shape with
  | idle live =>
    rw [gone] at live
    cases live
  | shared r waiting live =>
    rw [gone] at live
    cases live
  | called r waiting gone subscription listeners dispatch stored => simp [ahead, dispatch, stored]
  | notifying r waiting gone subscription listeners dispatch => simp [ahead, dispatch]
  | ended gone subscription listeners dispatch =>
    rcases dispatch with finished | finishing
    · simp [ahead, finished]
    · simp [ahead, finishing]

theorem live_due (facts : Facts s.records s.handed s.log current waiting) (live : Live s c) :
    .notified c ∈ s.log ∨ c ∈ waiting := by
  by_cases notified : .notified c ∈ s.log
  · exact .inl notified
  · exact .inr ((facts.ledger c).mpr ⟨live.1, live.2, notified⟩)

/-- One listener serves all the subscriptions of a signal, and there is none without them. -/
theorem listeners_needed (sound : Sound s current waiting) (live : s.aborted = false) :
    ((∃ c, Live s c) → ∃ r, s.listeners = [r]) ∧ ((¬∃ c, Live s c) → s.listeners = []) := by
  obtain ⟨shape, facts, quiet⟩ := sound
  rcases shape_live shape live with ⟨rfl, -, listeners, -⟩ | ⟨r, -, -, used, -, listeners, -⟩
  · constructor
    · intro some_live
      obtain ⟨c, alive⟩ := some_live
      rcases live_due facts alive with notified | mem
      · exact absurd notified (quiet live c)
      · rw [waiting_empty facts] at mem
        cases mem
    · intro _
      exact listeners
  · constructor
    · intro _
      exact ⟨r, listeners⟩
    · intro no_live
      obtain ⟨c, rest, shape⟩ := List.exists_cons_of_ne_nil used
      have due := (facts.ledger c).mp (by rw [shape]; exact List.mem_cons_self)
      exact absurd ⟨c, due.1, due.2.1⟩ no_live

theorem work_called {r : Nat} (dispatch : s.dispatch = some { queue := [r] }) :
    work s = 3 + (s.records r).length := by
  simp [work, dispatch]

theorem work_notifying {r : Nat} (dispatch : s.dispatch = some { queue := [], notifying := some (r, waiting) }) :
    work s = 2 + waiting.length := by
  simp only [work, dispatch, List.length_nil, List.map_nil, List.sum_nil]
  omega

theorem work_over (dispatch : s.dispatch = some { queue := [] }) : work s = 1 := by
  simp [work, dispatch]

/-- An event under way has a next turn, and less to do after it. -/
theorem advance_lowers (under_way : s.dispatch ≠ none) : ∃ t, advance s = some t ∧ work t < work s := by
  obtain ⟨d, dispatch⟩ := Option.ne_none_iff_exists'.mp under_way
  obtain ⟨queue, notifying⟩ := d
  cases notifying with
  | none =>
    cases queue with
    | nil =>
      refine ⟨{ s with dispatch := none }, by simp [advance, dispatch], ?_⟩
      simp [work, dispatch]
    | cons record queue =>
      simp only [advance, dispatch]
      refine ⟨_, rfl, ?_⟩
      simp only [work, dispatch, List.length_cons, List.map_cons, List.sum_cons]
      omega
  | some turn =>
    obtain ⟨record, waiting⟩ := turn
    cases waiting with
    | nil =>
      simp only [advance, dispatch]
      refine ⟨_, rfl, ?_⟩
      have emptied : (queue.map fun r => (update s.records record [] r).length).sum ≤
          (queue.map fun r => (s.records r).length).sum := by
        apply List.sum_le_sum
        intro r _
        by_cases same : r = record
        · subst same
          simp
        · simp [update_of_ne same]
      simp only [work, dispatch, List.length_nil]
      omega
    | cons c rest =>
      simp only [advance, dispatch]
      refine ⟨_, rfl, ?_⟩
      simp only [work, dispatch, List.length_cons]
      omega

variable [DecidableEq C]

theorem unsubscribe_work (sound : Sound s current waiting) (given : (record, c) ∈ s.handed)
    (under_way : s.dispatch ≠ none) : work (unsubscribe s record c) ≤ work s := by
  obtain ⟨shape, facts, -⟩ := sound
  cases record with
  | none => exact Nat.le_refl _
  | some r =>
    by_cases own : some r = current
    · subst own
      cases shape with
      | shared r waiting live subscription listeners dispatch => exact absurd dispatch under_way
      | called r waiting gone subscription listeners dispatch =>
        have shorter : ((s.records r).erase c).length ≤ (s.records r).length := List.length_erase_le
        by_cases empty : (s.records r).erase c = []
        · have after : (unsubscribe s (some r) c).dispatch = some { queue := [] } := by
            simp [unsubscribe, empty, dispatch, Dispatch.forget, Dispatch.skip]
          rw [work_called dispatch, work_over after]
          omega
        · have after : (unsubscribe s (some r) c).dispatch = some { queue := [r] } := by
            simp [unsubscribe, empty, dispatch, Dispatch.forget]
          have left : (unsubscribe s (some r) c).records r = (s.records r).erase c := by
            simp [unsubscribe, empty]
          rw [work_called dispatch, work_called after, left]
          omega
      | notifying r waiting gone subscription listeners dispatch =>
        have fewer : (waiting.erase c).length ≤ waiting.length := List.length_erase_le
        have after : (unsubscribe s (some r) c).dispatch =
            some { queue := [], notifying := some (r, waiting.erase c) } := by
          by_cases empty : (s.records r).erase c = []
          · simp [unsubscribe, empty, dispatch, Dispatch.forget, Dispatch.skip]
          · simp [unsubscribe, empty, dispatch, Dispatch.forget]
        rw [work_notifying dispatch, work_notifying after]
        omega
    · rw [unsubscribe_dropped shape facts own]
      exact Nat.le_refl _

/-- Nothing that happens during an event gives it more to do. -/
theorem step_work {a : Action C} (sound : Sound s current waiting) (under_way : s.dispatch ≠ none)
    (next : step s a = some t) : work t ≤ work s := by
  have gone := under_way_aborted sound.shape under_way
  cases a with
  | subscribe c =>
    simp only [step, subscribeAbort, gone, ↓reduceIte, Option.some.injEq] at next
    subst next
    exact Nat.le_refl _
  | unsubscribe record c =>
    simp only [step, Option.ite_none_right_eq_some, Option.some.injEq] at next
    obtain ⟨given, shape⟩ := next
    subst shape
    exact unsubscribe_work sound given under_way
  | abort => simp [step, gone] at next
  | advance =>
    obtain ⟨u, advanced, less⟩ := advance_lowers under_way
    have same : some u = some t := advanced.symm.trans next
    cases same
    omega

theorem notified_once (order : Each Lawful s.log) (c : C) : s.log.count (.notified c) ≤ 1 := by
  have once : Each (fun e before => (e == .notified c) = true → ∀ e' ∈ before, (e' == .notified c) = false) s.log := by
    refine each_mono (Q := Lawful) ?_ order
    intro e before lawful same e' mem
    have first := (lawful c (by simpa using same)).2.2
    simp only [beq_eq_false_iff_ne]
    intro again
    rw [again] at mem
    exact first mem
  exact each_once once

/- Whatever callbacks are subscribed and given up, from within a notification or not:
   none is notified twice or after it has been given up, those that are not given up
   have been notified or are still ahead in the abort event, which comes to its end,
   and there is one listener for them until then. -/
theorem abort_multiplexed (reached : Reached s) :
    (∀ c, s.log.count (.notified c) ≤ 1) ∧
    Each (fun e before => ∀ c, e = .notified c → .subscribed c ∈ before ∧ .unsubscribed c ∉ before) s.log ∧
    (s.aborted = true → ∀ c, Live s c → .notified c ∈ s.log ∨ c ∈ ahead s) ∧
    (s.aborted = true → s.dispatch = none → ∀ c, Live s c → s.log.count (.notified c) = 1) ∧
    (s.aborted = false → ((∃ c, Live s c) → ∃ r, s.listeners = [r]) ∧ ((¬∃ c, Live s c) → s.listeners = [])) ∧
    (s.dispatch ≠ none → (∃ t, step s .advance = some t ∧ work t < work s) ∧
      ∀ a t, step s a = some t → work t ≤ work s) := by
  obtain ⟨current, waiting, sound⟩ := reached_sound reached
  have facts := sound.facts
  have due (gone : s.aborted = true) (c : C) (live : Live s c) : .notified c ∈ s.log ∨ c ∈ ahead s := by
    rw [← waiting_ahead sound.shape gone]
    exact live_due facts live
  refine ⟨notified_once facts.order, ?_, due, ?_, listeners_needed sound, ?_⟩
  · refine each_mono (Q := Lawful) ?_ facts.order
    intro e before lawful c same
    exact ⟨(lawful c same).1, (lawful c same).2.1⟩
  · intro gone finished c live
    have most := notified_once facts.order c
    rcases due gone c live with notified | mem
    · have least := List.count_pos_iff.mpr notified
      omega
    · simp [ahead, finished] at mem
  · intro under_way
    constructor
    · exact advance_lowers under_way
    · intro a t next
      exact step_work sound under_way next

/-- Of four callbacks one is given up before the abort, and one by the callback that is
    notified first. -/
theorem abort_multiplexed_fanout : ∃ s : State Nat, Reached s ∧ s.dispatch = none ∧
    (∀ c ∈ [10, 13], s.log.count (.notified c) = 1) ∧ (∀ c, s.log.count (.notified c) ≤ 1) := by
  have evaluated : ((execWhere step (fun s a => decide (Distinct s a)) ({} : State Nat)
      [.subscribe 10, .subscribe 11, .subscribe 12, .subscribe 13, .unsubscribe (some 0) 11, .abort, .advance,
        .advance, .unsubscribe (some 0) 12, .advance, .advance, .advance]).any fun s =>
        s.aborted ∧ s.dispatch = none ∧ Live s 10 ∧ Live s 13) = true := by
    decide +kernel
  simp only [Option.any_eq_true, decide_eq_true_eq] at evaluated
  obtain ⟨s, run, gone, finished, first, last⟩ := evaluated
  have reached : Reached s := execWhere_steps (fun _ _ passed => of_decide_eq_true passed) run
  obtain ⟨most, -, -, all, -, -⟩ := abort_multiplexed reached
  refine ⟨s, reached, finished, ?_, most⟩
  intro c mem
  simp only [List.mem_cons, List.not_mem_nil, or_false] at mem
  rcases mem with same | same
  · subst same
    exact all gone finished 10 first
  · subst same
    exact all gone finished 13 last

end Pools.AbortSubscriptions
