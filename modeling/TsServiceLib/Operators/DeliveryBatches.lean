import TsServiceLib.Operators.SubStream
import Mathlib.Tactic.Common

/-!
Where the woken deliveries of one call stand in the queue of jobs. They are
queued together when their promise settles, so no job of another chain comes
between them; a delivery that waits again does so while the rest of its batch
stands at the head of the queue.
-/
namespace SubStreams
variable {V : Type} {c : Nat}

def wakeOf (c : Nat) : Job → Option Nat
  | .wake c' e => if c' = c then some e else none
  | _ => none

/-- The job may stand in a batch of the call: it neither clears `#active` nor
    wakes anything. -/
def ofBatch (c : Nat) : Job → Bool
  | .wake c' _ => c' = c
  | .foreign => true
  | .relay _ => true
  | _ => false

/-- The woken deliveries of the call stand in one batch, and at the head of the
    queue where `started` holds. -/
def Batched (c : Nat) (started : Prop) (jobs : List Job) : Prop :=
  ∃ before batch after, jobs = before ++ (batch ++ after) ∧ (∀ job ∈ before, wakeOf c job = none) ∧
    (∀ job ∈ batch, ofBatch c job = true) ∧ (∀ job ∈ after, wakeOf c job = none) ∧ (started → before = [])

theorem wakeOf_none_iff {jobs : List Job} : (∀ job ∈ jobs, wakeOf c job = none) ↔ jobs.filterMap (wakeOf c) = [] := by
  rw [List.filterMap_eq_nil_iff]

theorem wakeOf_self (c e : Nat) : wakeOf c (.wake c e) = some e := if_pos rfl

theorem batched_of_none {started : Prop} {jobs : List Job} (none : ∀ job ∈ jobs, wakeOf c job = none) :
    Batched c started jobs :=
  ⟨[], [], jobs, rfl, by simp, by simp, none, fun _ => rfl⟩

theorem batched_mono {started sooner : Prop} {jobs : List Job} (batched : Batched c started jobs)
    (only : sooner → started) : Batched c sooner jobs := by
  obtain ⟨before, batch, after, split, first, second, third, head⟩ := batched
  exact ⟨before, batch, after, split, first, second, third, fun is => head (only is)⟩

theorem batched_append {started : Prop} {jobs more : List Job} (batched : Batched c started jobs)
    (plain : ∀ job ∈ more, wakeOf c job = none) : Batched c started (jobs ++ more) := by
  obtain ⟨before, batch, after, split, first, second, third, head⟩ := batched
  refine ⟨before, batch, after ++ more, by simp [split], first, second, ?_, head⟩
  intro job mem
  rcases List.mem_append.mp mem with mem | mem
  · exact third job mem
  · exact plain job mem

theorem batched_tail {started : Prop} {job : Job} {rest : List Job} (batched : Batched c started (job :: rest)) :
    Batched c started rest := by
  obtain ⟨before, batch, after, split, first, second, third, head⟩ := batched
  cases before with
  | nil =>
    cases batch with
    | nil =>
      cases after with
      | nil => cases split
      | cons _ after =>
        cases split
        exact ⟨[], [], _, rfl, by simp, by simp, fun job mem => third job (List.mem_cons_of_mem _ mem), fun _ => rfl⟩
    | cons _ batch =>
      cases split
      exact ⟨[], batch, after, rfl, by simp, fun job mem => second job (List.mem_cons_of_mem _ mem), third, fun _ => rfl⟩
  | cons _ before =>
    cases split
    exact ⟨before, batch, after, rfl, fun job mem => first job (List.mem_cons_of_mem _ mem), second, third,
      fun is => absurd (head is) (by simp)⟩

/-- A woken delivery at the head of the queue is the first of its batch. -/
theorem batched_at_head {started : Prop} {job : Job} {rest : List Job} {e : Nat} (is : wakeOf c job = some e)
    (batched : Batched c started (job :: rest)) : Batched c True (job :: rest) := by
  obtain ⟨before, batch, after, split, first, second, third, head⟩ := batched
  cases before with
  | nil => exact ⟨[], batch, after, split, by simp, second, third, fun _ => rfl⟩
  | cons _ before =>
    cases split
    rw [first job List.mem_cons_self] at is
    cases is

theorem not_started_of_head {started : Prop} {job : Job} {rest : List Job} (plain : ofBatch c job = false)
    (woken : (job :: rest).filterMap (wakeOf c) ≠ []) (batched : Batched c started (job :: rest)) : ¬ started := by
  intro is
  obtain ⟨before, batch, after, split, first, second, third, head⟩ := batched
  rw [head is, List.nil_append] at split
  cases batch with
  | nil =>
    rw [List.nil_append] at split
    apply woken
    rw [split]
    exact wakeOf_none_iff.mp third
  | cons _ batch =>
    cases split
    rw [second job List.mem_cons_self] at plain
    cases plain

end SubStreams
