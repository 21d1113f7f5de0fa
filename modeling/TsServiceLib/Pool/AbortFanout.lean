import TsServiceLib.Pool.AbortSubscriptions
import Mathlib.Data.List.Nodup

/-!
The callbacks of the record in use that are not notified yet, and what the log
says of them: they have been subscribed, not given up and not notified. A callback
is given its unsubscribe function once, so that no other record knows it. What
the signal carries follows from where its record stands.
-/
namespace Pools.AbortSubscriptions
open Transitions EventLogs Function

variable {C : Type}

/-- The record in use, and those of its callbacks that are still to be notified. -/
inductive Shape (s : State C) : Option Nat → List C → Prop where
  | idle (live : s.aborted = false) (subscription : s.subscription = none) (listeners : s.listeners = [])
      (dispatch : s.dispatch = none) : Shape s none []
  | shared (r : Nat) (waiting : List C) (live : s.aborted = false) (subscription : s.subscription = some r)
      (listeners : s.listeners = [r]) (dispatch : s.dispatch = none) (stored : s.records r = waiting)
      (used : waiting ≠ []) : Shape s (some r) waiting
  | called (r : Nat) (waiting : List C) (gone : s.aborted = true) (subscription : s.subscription = some r)
      (listeners : s.listeners = [r]) (dispatch : s.dispatch = some { queue := [r] })
      (stored : s.records r = waiting) (used : waiting ≠ []) : Shape s (some r) waiting
  | notifying (r : Nat) (waiting : List C) (gone : s.aborted = true) (subscription : s.subscription = none)
      (listeners : s.listeners = []) (dispatch : s.dispatch = some { queue := [], notifying := some (r, waiting) }) :
      Shape s (some r) waiting
  | ended (gone : s.aborted = true) (subscription : s.subscription = none) (listeners : s.listeners = [])
      (dispatch : s.dispatch = none ∨ s.dispatch = some { queue := [] }) : Shape s none []

/-- A callback is notified when it is subscribed, and neither given up nor notified before. -/
def Lawful (e : Entry C) (before : List (Entry C)) : Prop :=
  ∀ c, e = .notified c → .subscribed c ∈ before ∧ .unsubscribed c ∉ before ∧ .notified c ∉ before

/-- The subscription has been made, and neither given up nor honoured. -/
def Due (log : List (Entry C)) (c : C) : Prop :=
  .subscribed c ∈ log ∧ .unsubscribed c ∉ log ∧ .notified c ∉ log

/-- What the records hold, and what the log says of it. -/
structure Facts (records : Nat → List C) (handed : List (Option Nat × C)) (log : List (Entry C))
    (current : Option Nat) (waiting : List C) : Prop where
  stored : ∀ r, ∀ c ∈ records r, (some r, c) ∈ handed ∧ current = some r
  distinct : ∀ r, (records r).Nodup
  within : ∀ c ∈ waiting, ∃ r, current = some r ∧ c ∈ records r
  single : waiting.Nodup
  owner : ∀ r r' c, (r, c) ∈ handed → (r', c) ∈ handed → r = r'
  known : ∀ r c, (r, c) ∈ handed → .subscribed c ∈ log
  heard : ∀ c, .unsubscribed c ∈ log ∨ .notified c ∈ log → .subscribed c ∈ log
  ledger : ∀ c, c ∈ waiting ↔ Due log c
  order : Each Lawful log

structure Sound (s : State C) (current : Option Nat) (waiting : List C) : Prop where
  shape : Shape s current waiting
  facts : Facts s.records s.handed s.log current waiting
  quiet : s.aborted = false → ∀ c, .notified c ∉ s.log

section Records
variable {records : Nat → List C} {handed : List (Option Nat × C)} {log : List (Entry C)}
  {current : Option Nat} {waiting rest : List C} {c : C} {r : Nat}

theorem unheard (facts : Facts records handed log current waiting) (fresh : .subscribed c ∉ log) :
    .unsubscribed c ∉ log ∧ .notified c ∉ log := by
  constructor
  · intro mem
    exact fresh (facts.heard c (.inl mem))
  · intro mem
    exact fresh (facts.heard c (.inr mem))

theorem waiting_empty (facts : Facts records handed log none waiting) : waiting = [] := by
  apply List.eq_nil_iff_forall_not_mem.mpr
  intro c mem
  obtain ⟨r, same, -⟩ := facts.within c mem
  cases same

theorem waiting_owned (facts : Facts records handed log (some r) waiting) (mem : c ∈ waiting) :
    c ∈ records r := by
  obtain ⟨r', same, stored⟩ := facts.within c mem
  cases same
  exact stored

theorem facts_aborted (facts : Facts records handed log current waiting) :
    Facts records handed (.aborted :: log) current waiting := by
  constructor
  · exact facts.stored
  · exact facts.distinct
  · exact facts.within
  · exact facts.single
  · exact facts.owner
  · intro r c mem
    exact List.mem_cons_of_mem _ (facts.known r c mem)
  · intro c mem
    simp only [List.mem_cons, reduceCtorEq, false_or] at mem ⊢
    exact facts.heard c mem
  · intro c
    simp only [Due, List.mem_cons, reduceCtorEq, false_or]
    exact facts.ledger c
  · apply each_cons _ facts.order
    intro c same
    cases same

theorem facts_late (facts : Facts records handed log current waiting) (fresh : .subscribed c ∉ log) :
    Facts records ((none, c) :: handed) (.notified c :: .subscribed c :: log) current waiting := by
  obtain ⟨kept, silent⟩ := unheard facts fresh
  constructor
  · intro r d mem
    obtain ⟨old, same⟩ := facts.stored r d mem
    exact ⟨List.mem_cons_of_mem _ old, same⟩
  · exact facts.distinct
  · exact facts.within
  · exact facts.single
  · intro r r' d left right
    have stale (q : Option Nat) : (q, c) ∉ handed := fun mem => fresh (facts.known q c mem)
    grind [facts.owner r r' d]
  · intro r d mem
    grind [facts.known r d]
  · intro d mem
    grind [facts.heard d]
  · intro d
    have old := facts.ledger d
    simp only [Due] at old ⊢
    grind
  · apply each_cons
    · intro d same
      cases same
      exact ⟨by simp, by simp [kept], by simp [silent]⟩
    · apply each_cons _ facts.order
      intro d same
      cases same

/-- The first subscription of a signal, or the first after all have been given up. -/
theorem facts_opened (facts : Facts records handed log none waiting) (r : Nat) :
    Facts (update records r []) handed log (some r) [] := by
  have bare (q : Nat) : update records r [] q = [] := by
    by_cases same : q = r
    · rw [same, update_self]
    · rw [update_of_ne same]
      apply List.eq_nil_iff_forall_not_mem.mpr
      intro c mem
      cases (facts.stored q c mem).2
  have none_due := waiting_empty facts
  subst none_due
  constructor
  · intro q c mem
    rw [bare] at mem
    cases mem
  · intro q
    rw [bare]
    exact List.nodup_nil
  · intro c mem
    cases mem
  · exact List.nodup_nil
  · exact facts.owner
  · exact facts.known
  · exact facts.heard
  · exact facts.ledger
  · exact facts.order

theorem facts_joined (facts : Facts records handed log (some r) (records r)) (fresh : .subscribed c ∉ log) :
    Facts (update records r (records r ++ [c])) ((some r, c) :: handed) (.subscribed c :: log) (some r)
      (records r ++ [c]) := by
  obtain ⟨kept, silent⟩ := unheard facts fresh
  have stale (q : Option Nat) : (q, c) ∉ handed := fun mem => fresh (facts.known q c mem)
  have outside : c ∉ records r := fun mem => stale _ (facts.stored r c mem).1
  have longer : (records r ++ [c]).Nodup := by
    apply List.Nodup.append (facts.distinct r) (List.nodup_singleton c)
    simpa using outside
  constructor
  · intro q d mem
    by_cases same : q = r
    · subst same
      rw [update_self, List.mem_append, List.mem_singleton] at mem
      rcases mem with old | new
      · exact ⟨List.mem_cons_of_mem _ (facts.stored q d old).1, rfl⟩
      · rw [new]
        exact ⟨List.mem_cons_self, rfl⟩
    · rw [update_of_ne same] at mem
      obtain ⟨old, place⟩ := facts.stored q d mem
      exact ⟨List.mem_cons_of_mem _ old, place⟩
  · intro q
    by_cases same : q = r
    · subst same
      rw [update_self]
      exact longer
    · rw [update_of_ne same]
      exact facts.distinct q
  · intro d mem
    exact ⟨r, rfl, by rwa [update_self]⟩
  · exact longer
  · intro q q' d left right
    grind [facts.owner q q' d]
  · intro q d mem
    grind [facts.known q d]
  · intro d mem
    grind [facts.heard d]
  · intro d
    have old := facts.ledger d
    simp only [Due] at old ⊢
    grind
  · apply each_cons _ facts.order
    intro d same
    cases same

theorem facts_ignored (facts : Facts records handed log current waiting) (absent : c ∉ waiting)
    (subscribed : .subscribed c ∈ log) : Facts records handed (.unsubscribed c :: log) current waiting := by
  constructor
  · exact facts.stored
  · exact facts.distinct
  · exact facts.within
  · exact facts.single
  · exact facts.owner
  · intro r d mem
    exact List.mem_cons_of_mem _ (facts.known r d mem)
  · intro d mem
    grind [facts.heard d]
  · intro d
    have old := facts.ledger d
    simp only [Due] at old ⊢
    grind
  · apply each_cons _ facts.order
    intro d same
    cases same

theorem facts_deleted [DecidableEq C] (facts : Facts records handed log current waiting) (given : (some r, c) ∈ handed) :
    Facts (update records r ((records r).erase c)) handed (.unsubscribed c :: log) current (waiting.erase c) := by
  have smaller (q : Nat) (d : C) (mem : d ∈ update records r ((records r).erase c) q) : d ∈ records q := by
    by_cases same : q = r
    · subst same
      rw [update_self] at mem
      exact List.mem_of_mem_erase mem
    · rwa [update_of_ne same] at mem
  constructor
  · intro q d mem
    exact facts.stored q d (smaller q d mem)
  · intro q
    by_cases same : q = r
    · subst same
      rw [update_self]
      exact (facts.distinct q).erase c
    · rw [update_of_ne same]
      exact facts.distinct q
  · intro d mem
    obtain ⟨other, old⟩ := (List.Nodup.mem_erase_iff facts.single).mp mem
    obtain ⟨q, place, stored⟩ := facts.within d old
    refine ⟨q, place, ?_⟩
    by_cases same : q = r
    · subst same
      rw [update_self]
      exact (List.Nodup.mem_erase_iff (facts.distinct q)).mpr ⟨other, stored⟩
    · rwa [update_of_ne same]
  · exact facts.single.erase c
  · exact facts.owner
  · intro q d mem
    exact List.mem_cons_of_mem _ (facts.known q d mem)
  · intro d mem
    grind [facts.heard d, facts.known (some r) c given]
  · intro d
    have old := facts.ledger d
    rw [List.Nodup.mem_erase_iff facts.single]
    simp only [Due] at old ⊢
    grind
  · apply each_cons _ facts.order
    intro d same
    cases same

theorem facts_notified (facts : Facts records handed log current (c :: rest)) :
    Facts records handed (.notified c :: log) current rest := by
  obtain ⟨apart, single⟩ := List.nodup_cons.mp facts.single
  have due := (facts.ledger c).mp List.mem_cons_self
  constructor
  · exact facts.stored
  · exact facts.distinct
  · intro d mem
    exact facts.within d (List.mem_cons_of_mem c mem)
  · exact single
  · exact facts.owner
  · intro r d mem
    exact List.mem_cons_of_mem _ (facts.known r d mem)
  · intro d mem
    grind [facts.heard d, due.1]
  · intro d
    have old := facts.ledger d
    simp only [Due] at old ⊢
    grind
  · apply each_cons _ facts.order
    intro d same
    cases same
    exact due

/-- The record is done with: nothing of it is waiting, and it is empty from here on. -/
theorem facts_cleared (facts : Facts records handed log (some r) []) :
    Facts (update records r []) handed log none [] := by
  have bare (q : Nat) : update records r [] q = [] := by
    by_cases same : q = r
    · rw [same, update_self]
    · rw [update_of_ne same]
      apply List.eq_nil_iff_forall_not_mem.mpr
      intro c mem
      have place := (facts.stored q c mem).2
      injection place with place
      exact same place.symm
  constructor
  · intro q c mem
    rw [bare] at mem
    cases mem
  · intro q
    rw [bare]
    exact List.nodup_nil
  · intro c mem
    cases mem
  · exact List.nodup_nil
  · exact facts.owner
  · exact facts.known
  · exact facts.heard
  · exact facts.ledger
  · exact facts.order

theorem facts_emptied (facts : Facts records handed log (some r) waiting) (empty : records r = []) :
    Facts records handed log none [] := by
  have nothing : waiting = [] := by
    apply List.eq_nil_iff_forall_not_mem.mpr
    intro c mem
    have stored := waiting_owned facts mem
    rw [empty] at stored
    cases stored
  subst nothing
  have cleared := facts_cleared facts
  have same : update records r [] = records := by
    rw [← empty, update_eq_self]
  rwa [same] at cleared

end Records

section Steps
variable {s t : State C} {current record : Option Nat} {waiting : List C} {c : C} {r : Nat}

/-- Where the record stands does not depend on what has been handed out or logged. -/
theorem shape_same (shape : Shape s current waiting) (handed : List (Option Nat × C)) (log : List (Entry C)) :
    Shape { s with handed, log } current waiting := by
  cases shape with
  | idle live subscription listeners dispatch => exact .idle live subscription listeners dispatch
  | shared r waiting live subscription listeners dispatch stored used =>
    exact .shared r waiting live subscription listeners dispatch stored used
  | called r waiting gone subscription listeners dispatch stored used =>
    exact .called r waiting gone subscription listeners dispatch stored used
  | notifying r waiting gone subscription listeners dispatch =>
    exact .notifying r waiting gone subscription listeners dispatch
  | ended gone subscription listeners dispatch => exact .ended gone subscription listeners dispatch

/-- The record in use is the one that a signal carries until it aborts. -/
theorem shape_live (shape : Shape s current waiting) (live : s.aborted = false) :
    (current = none ∧ s.subscription = none ∧ s.listeners = [] ∧ s.dispatch = none) ∨
      ∃ r, current = some r ∧ s.records r = waiting ∧ waiting ≠ [] ∧ s.subscription = some r ∧
        s.listeners = [r] ∧ s.dispatch = none := by
  cases shape with
  | idle _ subscription listeners dispatch => exact .inl ⟨rfl, subscription, listeners, dispatch⟩
  | shared r waiting _ subscription listeners dispatch stored used =>
    exact .inr ⟨r, rfl, stored, used, subscription, listeners, dispatch⟩
  | called r waiting gone =>
    rw [live] at gone
    cases gone
  | notifying r waiting gone =>
    rw [live] at gone
    cases gone
  | ended gone =>
    rw [live] at gone
    cases gone

theorem quiet_unsubscribed (quiet : s.aborted = false → ∀ d, .notified d ∉ s.log) :
    s.aborted = false → ∀ d, .notified d ∉ .unsubscribed c :: s.log := by
  intro live d mem
  simp only [List.mem_cons, reduceCtorEq, false_or] at mem
  exact quiet live d mem

theorem foreign_absent (facts : Facts s.records s.handed s.log current waiting) (given : (record, c) ∈ s.handed)
    (other : record ≠ current ∨ record = none) : c ∉ waiting := by
  intro mem
  obtain ⟨r, place, stored⟩ := facts.within c mem
  have same := facts.owner _ _ c given (facts.stored r c stored).1
  rcases other with apart | none
  · exact apart (same.trans place.symm)
  · rw [none] at same
    cases same

theorem abort_sound (sound : Sound s current waiting) (live : s.aborted = false) :
    Sound (abort s) current waiting := by
  obtain ⟨shape, facts, quiet⟩ := sound
  constructor
  · rcases shape_live shape live with
      ⟨rfl, subscription, listeners, dispatch⟩ | ⟨r, rfl, stored, used, subscription, listeners, dispatch⟩
    · rw [waiting_empty facts]
      apply Shape.ended
      · rfl
      · exact subscription
      · exact listeners
      · exact .inr (by simp [abort, listeners])
    · apply Shape.called (s := abort s)
      · rfl
      · exact subscription
      · exact listeners
      · simp [abort, listeners]
      · exact stored
      · exact used
  · exact facts_aborted facts
  · intro alive
    cases alive

theorem advance_sound (sound : Sound s current waiting) (next : advance s = some t) :
    ∃ current' waiting', Sound t current' waiting' := by
  obtain ⟨shape, facts, quiet⟩ := sound
  have idle (live : s.aborted = false) : advance s = none := by
    rcases shape_live shape live with ⟨-, -, -, dispatch⟩ | ⟨r, -, -, -, -, -, dispatch⟩
    · simp [advance, dispatch]
    · simp [advance, dispatch]
  cases shape with
  | idle live => rw [idle live] at next; cases next
  | shared r waiting live => rw [idle live] at next; cases next
  | called r waiting gone subscription listeners dispatch stored used =>
    simp only [advance, dispatch, Option.some.injEq] at next
    subst next
    subst stored
    refine ⟨some r, s.records r, ?_, facts, ?_⟩
    · apply Shape.notifying
      · exact gone
      · rfl
      · simp [listeners]
      · rfl
    · exact quiet
  | notifying r waiting gone subscription listeners dispatch =>
    cases waiting with
    | nil =>
      simp only [advance, dispatch, Option.some.injEq] at next
      subst next
      refine ⟨none, [], ?_, facts_cleared facts, ?_⟩
      · exact .ended gone subscription listeners (.inr rfl)
      · exact quiet
    | cons c rest =>
      simp only [advance, dispatch, Option.some.injEq] at next
      subst next
      refine ⟨some r, rest, ?_, facts_notified facts, ?_⟩
      · exact .notifying r rest gone subscription listeners rfl
      · intro live
        rw [show s.aborted = false from live] at gone
        cases gone
  | ended gone subscription listeners dispatch =>
    rcases dispatch with finished | finishing
    · simp [advance, finished] at next
    · simp only [advance, finishing, Option.some.injEq] at next
      subst next
      refine ⟨none, [], ?_, facts, ?_⟩
      · exact .ended gone subscription listeners (.inl rfl)
      · exact quiet

theorem initial_sound : Sound ({} : State C) none [] := by
  constructor
  · exact .idle rfl rfl rfl rfl
  · constructor <;> simp [Due, each_nil]
  · simp

variable [DecidableEq C]

theorem joined_sound (facts : Facts s.records s.handed s.log (some r) (s.records r)) (live : s.aborted = false)
    (subscription : s.subscription = some r) (listeners : s.listeners = [r]) (dispatch : s.dispatch = none)
    (quiet : ∀ d, .notified d ∉ s.log) (fresh : .subscribed c ∉ s.log) :
    Sound (s.join r c) (some r) (s.records r ++ [c]) := by
  have outside : c ∉ s.records r := fun mem => fresh (facts.known _ c (facts.stored r c mem).1)
  have grown : (s.join r c).records = update s.records r (s.records r ++ [c]) := by
    simp [State.join, outside]
  have mine : (s.join r c).records r = s.records r ++ [c] := by
    rw [grown, update_self]
  constructor
  · apply Shape.shared
    · exact live
    · exact subscription
    · exact listeners
    · exact dispatch
    · exact mine
    · simp
  · rw [grown]
    exact facts_joined facts fresh
  · intro _ d mem
    simp only [State.join, List.mem_cons, reduceCtorEq, false_or] at mem
    exact quiet d mem

theorem subscribe_sound (sound : Sound s current waiting) (fresh : .subscribed c ∉ s.log) :
    ∃ current' waiting', Sound (subscribeAbort s c) current' waiting' := by
  obtain ⟨shape, facts, quiet⟩ := sound
  unfold subscribeAbort
  split
  · rename_i gone
    refine ⟨current, waiting, shape_same shape _ _, facts_late facts fresh, ?_⟩
    intro live
    rw [show s.aborted = false from live] at gone
    cases gone
  · rename_i alive
    have live : s.aborted = false := by simpa using alive
    rcases shape_live shape live with
      ⟨rfl, subscription, listeners, dispatch⟩ | ⟨r, rfl, stored, used, subscription, listeners, dispatch⟩
    · rw [subscription, listeners]
      have opened := facts_opened facts s.made
      refine ⟨_, _, joined_sound (r := s.made) ?_ live rfl rfl dispatch (quiet live) fresh⟩
      simpa using opened
    · subst stored
      rw [subscription]
      exact ⟨_, _, joined_sound facts live subscription listeners dispatch (quiet live) fresh⟩

/-- A record that has been dropped is empty, and its listener is gone. -/
theorem unsubscribe_dropped (shape : Shape s current waiting)
    (facts : Facts s.records s.handed s.log current waiting) (other : some r ≠ current) :
    unsubscribe s (some r) c = { s with log := .unsubscribed c :: s.log } := by
  have empty : s.records r = [] := by
    apply List.eq_nil_iff_forall_not_mem.mpr
    intro d mem
    exact other (facts.stored r d mem).2.symm
  have same : update s.records r [] = s.records := by
    rw [← empty, update_eq_self]
  cases shape with
  | idle live subscription listeners dispatch =>
    simp [unsubscribe, empty, same, subscription, listeners, dispatch]
  | shared r' waiting live subscription listeners dispatch =>
    have apart : r' ≠ r := fun equal => other (by rw [equal])
    simp [unsubscribe, empty, same, subscription, listeners, dispatch, apart]
  | called r' waiting gone subscription listeners dispatch =>
    have apart : r' ≠ r := fun equal => other (by rw [equal])
    simp [unsubscribe, empty, same, subscription, listeners, dispatch, apart, Dispatch.forget, Dispatch.skip]
  | notifying r' waiting gone subscription listeners dispatch =>
    have apart : r' ≠ r := fun equal => other (by rw [equal])
    simp [unsubscribe, empty, same, subscription, listeners, dispatch, apart, Dispatch.forget, Dispatch.skip]
  | ended gone subscription listeners dispatch =>
    rcases dispatch with finished | finishing
    · simp [unsubscribe, empty, same, subscription, listeners, finished]
    · simp [unsubscribe, empty, same, subscription, listeners, finishing, Dispatch.forget, Dispatch.skip]

/-- A callback of the record in use is taken out of it, and the record dropped with its last. -/
theorem unsubscribe_current (sound : Sound s (some r) waiting) (given : (some r, c) ∈ s.handed) :
    ∃ current' waiting', Sound (unsubscribe s (some r) c) current' waiting' := by
  obtain ⟨shape, facts, quiet⟩ := sound
  have deleted := facts_deleted facts given
  have later := quiet_unsubscribed (c := c) quiet
  cases shape with
  | shared r waiting live subscription listeners dispatch stored used =>
    subst stored
    by_cases empty : (s.records r).erase c = []
    · have emptied := facts_emptied deleted (by rw [update_self, empty])
      simp only [unsubscribe, if_pos empty]
      refine ⟨none, [], ?_, emptied, later⟩
      apply Shape.idle
      · exact live
      · simp [subscription]
      · simp [listeners]
      · simp [dispatch]
    · simp only [unsubscribe, if_neg empty]
      refine ⟨some r, (s.records r).erase c, ?_, deleted, later⟩
      apply Shape.shared
      · exact live
      · exact subscription
      · exact listeners
      · simp [dispatch]
      · simp
      · exact empty
  | called r waiting gone subscription listeners dispatch stored used =>
    subst stored
    by_cases empty : (s.records r).erase c = []
    · have emptied := facts_emptied deleted (by rw [update_self, empty])
      simp only [unsubscribe, if_pos empty]
      refine ⟨none, [], ?_, emptied, later⟩
      apply Shape.ended
      · exact gone
      · simp [subscription]
      · simp [listeners]
      · exact .inr (by simp [dispatch, Dispatch.forget, Dispatch.skip])
    · simp only [unsubscribe, if_neg empty]
      refine ⟨some r, (s.records r).erase c, ?_, deleted, later⟩
      apply Shape.called
      · exact gone
      · exact subscription
      · exact listeners
      · simp [dispatch, Dispatch.forget]
      · simp
      · exact empty
  | notifying r waiting gone subscription listeners dispatch =>
    refine ⟨some r, waiting.erase c, ?_⟩
    by_cases empty : (s.records r).erase c = []
    · simp only [unsubscribe, if_pos empty]
      refine ⟨?_, deleted, later⟩
      apply Shape.notifying
      · exact gone
      · simp [subscription]
      · simp [listeners]
      · simp [dispatch, Dispatch.forget, Dispatch.skip]
    · simp only [unsubscribe, if_neg empty]
      refine ⟨?_, deleted, later⟩
      apply Shape.notifying
      · exact gone
      · exact subscription
      · exact listeners
      · simp [dispatch, Dispatch.forget]

theorem unsubscribe_sound (sound : Sound s current waiting) (given : (record, c) ∈ s.handed) :
    ∃ current' waiting', Sound (unsubscribe s record c) current' waiting' := by
  have facts := sound.facts
  by_cases own : record = current ∧ record ≠ none
  · obtain ⟨same, some⟩ := own
    obtain ⟨r, shape⟩ := Option.ne_none_iff_exists'.mp some
    subst shape
    subst same
    exact unsubscribe_current sound given
  · have other : record ≠ current ∨ record = none := by tauto
    have ignored := facts_ignored facts (foreign_absent facts given other) (facts.known _ c given)
    have later := quiet_unsubscribed (c := c) sound.quiet
    refine ⟨current, waiting, ?_⟩
    cases record with
    | none => exact ⟨shape_same sound.shape s.handed _, ignored, later⟩
    | some r =>
      have apart : some r ≠ current := by simpa using other
      rw [unsubscribe_dropped sound.shape facts apart]
      exact ⟨shape_same sound.shape s.handed _, ignored, later⟩

theorem step_sound {a : Action C} (sound : Sound s current waiting) (distinct : Distinct s a)
    (next : step s a = some t) : ∃ current' waiting', Sound t current' waiting' := by
  cases a with
  | subscribe c =>
    simp only [step, Option.some.injEq] at next
    subst next
    exact subscribe_sound sound distinct
  | unsubscribe record c =>
    simp only [step, Option.ite_none_right_eq_some, Option.some.injEq] at next
    obtain ⟨given, shape⟩ := next
    subst shape
    exact unsubscribe_sound sound given
  | abort =>
    simp only [step] at next
    split at next
    · cases next
    · rename_i alive
      cases next
      exact ⟨current, waiting, abort_sound sound (by simpa using alive)⟩
  | advance => exact advance_sound sound next

theorem reached_sound (reached : Reached s) : ∃ current waiting, Sound s current waiting := by
  apply steps_invariant (fun s => ∃ current waiting, Sound s current waiting) _ reached
  · exact ⟨none, [], initial_sound⟩
  · intro s a t held distinct next
    obtain ⟨current, waiting, sound⟩ := held
    exact step_sound sound distinct next

end Steps

end Pools.AbortSubscriptions
