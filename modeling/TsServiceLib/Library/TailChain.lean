import Mathlib.Logic.Function.Basic

/-!
Serial lanes built from chained promises. Each lane keeps the promise of its
last operation, its tail; a new operation is attached to the tail it finds and
becomes the tail itself. Nothing stores a lock or a queue: that operations of
one lane never overlap, and run in the order they were attached, is derived.
-/
namespace TailChain
open Function

inductive Status where
  | waiting
  | running
  | settled
  deriving DecidableEq, Repr

structure Chain (Lane : Type) where
  next : Nat
  lane : Nat → Lane
  previous : Nat → Option Nat
  status : Nat → Status
  tail : Lane → Option Nat

namespace Chain
variable {Lane : Type}

def empty (anywhere : Lane) : Chain Lane :=
  ⟨0, fun _ => anywhere, fun _ => none, fun _ => .waiting, fun _ => none⟩

/-- `tail = tail.then(operation)`: the operation waits for the tail it read. -/
def attach [DecidableEq Lane] (c : Chain Lane) (l : Lane) : Chain Lane where
  next := c.next + 1
  lane := update c.lane c.next l
  previous := update c.previous c.next (c.tail l)
  status := update c.status c.next .waiting
  tail := update c.tail l (some c.next)

/-- An operation may start once the operation it was attached to has settled. -/
def ready (c : Chain Lane) (o : Nat) : Bool :=
  decide (o < c.next) && decide (c.status o = .waiting) &&
    match c.previous o with
    | none => true
    | some p => decide (c.status p = .settled)

def start (c : Chain Lane) (o : Nat) : Chain Lane :=
  { c with status := update c.status o .running }

def settle (c : Chain Lane) (o : Nat) : Chain Lane :=
  { c with status := update c.status o .settled }

structure WellFormed (c : Chain Lane) : Prop where
  tail_last : ∀ {l t}, c.tail l = some t → t < c.next ∧ c.lane t = l
  tail_covers : ∀ {o}, o < c.next → ∃ t, c.tail (c.lane o) = some t ∧ o ≤ t
  previous_earlier : ∀ {o p}, o < c.next → c.previous o = some p → p < o ∧ c.lane p = c.lane o
  previous_covers : ∀ {a o}, o < c.next → a < o → c.lane a = c.lane o →
    ∃ p, c.previous o = some p ∧ a ≤ p
  serial : ∀ {a o}, o < c.next → a < o → c.lane a = c.lane o → c.status o ≠ .waiting →
    c.status a = .settled

theorem empty_wellFormed (anywhere : Lane) : (empty anywhere).WellFormed := by
  constructor <;> simp [empty]

theorem ready_iff (c : Chain Lane) (o : Nat) :
    c.ready o = true ↔ o < c.next ∧ c.status o = .waiting ∧
      ∀ p, c.previous o = some p → c.status p = .settled := by
  simp only [ready, Bool.and_eq_true, decide_eq_true_eq, and_assoc]
  cases c.previous o <;> simp

section Attach
variable [DecidableEq Lane] {c : Chain Lane}

theorem attach_wellFormed (wf : c.WellFormed) (l : Lane) : (c.attach l).WellFormed := by
  have tail_old : ∀ {t}, c.tail l = some t → t < c.next := fun h => (wf.tail_last h).1
  constructor
  · intro m t h
    simp only [attach] at h ⊢
    by_cases same : m = l
    · subst m
      simp only [update_self, Option.some.injEq] at h
      subst t
      simp
    · rw [update_of_ne same] at h
      have old := wf.tail_last h
      rw [update_of_ne (by omega)]
      exact ⟨by omega, old.2⟩
  · intro o ho
    simp only [attach] at ho ⊢
    by_cases new : o = c.next
    · subst o
      simp
    · rw [update_of_ne new]
      obtain ⟨t, ht, le⟩ := wf.tail_covers (by omega : o < c.next)
      by_cases same : c.lane o = l
      · exact ⟨c.next, by simp [same], by omega⟩
      · exact ⟨t, by rw [update_of_ne same]; exact ht, le⟩
  · intro o p ho h
    simp only [attach] at ho h ⊢
    by_cases new : o = c.next
    · subst o
      rw [update_self] at h
      have old := wf.tail_last h
      rw [update_self, update_of_ne (by omega)]
      exact old
    · rw [update_of_ne new] at h
      have old := wf.previous_earlier (by omega) h
      rw [update_of_ne new, update_of_ne (by omega)]
      exact old
  · intro a o ho lt same
    simp only [attach] at ho same ⊢
    rw [update_of_ne (by omega : a ≠ c.next)] at same
    by_cases new : o = c.next
    · subst o
      rw [update_self] at same ⊢
      exact same ▸ wf.tail_covers lt
    · rw [update_of_ne new] at same ⊢
      exact wf.previous_covers (by omega) lt same
  · intro a o ho lt same begun
    simp only [attach] at ho same begun ⊢
    rw [update_of_ne (by omega : a ≠ c.next)] at same ⊢
    by_cases new : o = c.next
    · subst o
      simp at begun
    · rw [update_of_ne new] at same begun
      exact wf.serial (by omega) lt same begun

end Attach

section Progress
variable {c : Chain Lane}

theorem ready_settled_before (wf : c.WellFormed) {a o : Nat} (h : c.ready o = true)
    (lt : a < o) (same : c.lane a = c.lane o) : c.status a = .settled := by
  obtain ⟨ho, _, hp⟩ := (ready_iff c o).mp h
  obtain ⟨p, prev, le⟩ := wf.previous_covers ho lt same
  have psettled := hp p prev
  rcases Nat.lt_or_eq_of_le le with before | eq
  · obtain ⟨plt, plane⟩ := wf.previous_earlier ho prev
    exact wf.serial (by omega) before (same.trans plane.symm) (by rw [psettled]; decide)
  · exact eq ▸ psettled

/-- Marking one operation keeps the chain well formed when the new mark does
    not contradict the order of its lane. -/
theorem mark_wellFormed (wf : c.WellFormed) {o : Nat} {mark : Status}
    (before : ∀ a, a < o → c.lane a = c.lane o → mark ≠ .waiting → c.status a = .settled)
    (after : ∀ b, b < c.next → o < b → c.lane o = c.lane b → c.status b ≠ .waiting →
      mark = .settled) : { c with status := update c.status o mark }.WellFormed := by
  refine ⟨wf.tail_last, wf.tail_covers, wf.previous_earlier, wf.previous_covers, ?_⟩
  intro a b hb lt same begun
  simp only at hb same begun ⊢
  by_cases eb : b = o
  · subst b
    rw [update_self] at begun
    rw [update_of_ne (by omega)]
    exact before a lt same begun
  · rw [update_of_ne eb] at begun
    by_cases ea : a = o
    · subst a
      rw [update_self]
      exact after b hb lt same begun
    · rw [update_of_ne ea]
      exact wf.serial hb lt same begun

theorem start_wellFormed (wf : c.WellFormed) {o : Nat} (h : c.ready o = true) :
    (c.start o).WellFormed := by
  apply mark_wellFormed wf
  · intro a lt same _
    exact ready_settled_before wf h lt same
  · intro b hb lt same begun
    have := wf.serial hb lt same begun
    rw [((ready_iff c o).mp h).2.1] at this
    cases this

theorem settle_wellFormed (wf : c.WellFormed) {o : Nat} (ho : o < c.next)
    (h : c.status o ≠ .waiting) : (c.settle o).WellFormed := by
  apply mark_wellFormed wf
  · intro a lt same _
    exact wf.serial ho lt same h
  · intros
    rfl

theorem running_apart {p o : Nat} (running : c.status p = .running) (waiting : c.status o = .waiting) : p ≠ o := by
  intro same
  rw [same, waiting] at running
  cases running

theorem running_unique (wf : c.WellFormed) {a b : Nat} (ha : a < c.next) (hb : b < c.next)
    (same : c.lane a = c.lane b) (ra : c.status a = .running) (rb : c.status b = .running) :
    a = b := by
  rcases Nat.lt_trichotomy a b with lt | eq | gt
  · have := wf.serial hb lt same (by rw [rb]; decide)
    rw [ra] at this
    cases this
  · exact eq
  · have := wf.serial ha gt same.symm (by rw [ra]; decide)
    rw [rb] at this
    cases this

theorem ready_lane_idle (wf : c.WellFormed) {a o : Nat} (h : c.ready o = true)
    (ha : a < c.next) (same : c.lane a = c.lane o) : c.status a ≠ .running := by
  intro ra
  obtain ⟨ho, waiting, _⟩ := (ready_iff c o).mp h
  rcases Nat.lt_trichotomy a o with lt | eq | gt
  · rw [ready_settled_before wf h lt same] at ra
    cases ra
  · rw [eq, waiting] at ra
    cases ra
  · have := wf.serial ha gt same.symm (by rw [ra]; decide)
    rw [waiting] at this
    cases this

end Progress

end Chain

end TailChain
