import TsServiceLib.Kafka.ConsumerMoves
import Mathlib.Data.List.Count

/-!
What the history of the consumer says about leases and generations. Every call
made through a lease comes from a check that the lease is current, made in the
same synchronous stretch; so no such call follows the revocation of its lease.
An event that names a generation names the number of invalidations before it.
-/
namespace Kafka
open Transitions Numbers OrderedMaps

def Event.uses : Event → Option Nat
  | handlerStarted _ lease _ => some lease
  | commitCalled lease _ => some lease
  | stored lease _ => some lease
  | sought lease _ => some lease
  | resumed lease => some lease
  | _ => none

def Event.stamp : Event → Option Nat
  | consumeCalled _ generation => some generation
  | rebalanced generation _ => some generation
  | assignCalled generation _ _ => some generation
  | leaseCreated _ _ generation => some generation
  | _ => none

/-- No call is made through a lease after it has been revoked, and the stamps are right. -/
def Lawful : List Event → Prop
  | [] => True
  | e :: earlier =>
    (∀ l, e.uses = some l → .revoked l ∉ earlier) ∧
      (∀ g, e.stamp = some g → g = earlier.count .invalidated) ∧ Lawful earlier

theorem lawful_split {later earlier : List Event} {e : Event}
    (lawful : Lawful (later ++ e :: earlier)) : Lawful (e :: earlier) := by
  induction later with
  | nil => exact lawful
  | cons f later ih => exact ih lawful.2.2

/-- Events that neither use a lease nor are stamped may be put in front. -/
theorem lawful_append {quiet history : List Event}
    (plain : ∀ e ∈ quiet, e.uses = none ∧ e.stamp = none) (lawful : Lawful history) :
    Lawful (quiet ++ history) := by
  induction quiet with
  | nil => exact lawful
  | cons e rest ih =>
    obtain ⟨unused, unstamped⟩ := plain e List.mem_cons_self
    refine ⟨?_, ?_, ih fun f mem => plain f (List.mem_cons_of_mem _ mem)⟩
    · intro l uses
      rw [unused] at uses
      cases uses
    · intro g stamp
      rw [unstamped] at stamp
      cases stamp

structure Logged (s : State) : Prop where
  lawful : Lawful s.history
  generation : s.generation = s.history.count .invalidated
  revoked : ∀ l, .revoked l ∈ s.history → (s.leases l).aborted = true ∧ l < s.nextLease
  assigned : ∀ p l, s.assignments.get p = some l → l < s.nextLease

section Functions
variable {s : State}

theorem current_iff (p l : Nat) : s.current p l = true ↔
    s.failure = none ∧ (s.leases l).aborted = false ∧ s.cancelled = false ∧
      s.assignments.get p = some l := by
  simp [State.current, Option.isNone_iff_eq_none, and_assoc]

theorem overtaken_iff (g : Nat) : s.overtaken g = false ↔
    g = s.generation ∧ s.stopping = false ∧ s.failure = none ∧ s.cancelled = false := by
  simp [State.overtaken, and_assoc]

theorem leased_iff (l : Nat) : l ∈ s.leased ↔ ∃ p, s.assignments.get p = some l := by
  simp only [State.leased, List.mem_map, OrderedMap.get_eq_some_iff]
  constructor
  · rintro ⟨⟨p, l'⟩, mem, same⟩
    exact ⟨p, same ▸ mem⟩
  · rintro ⟨p, mem⟩
    exact ⟨(p, l), mem, rfl⟩

theorem log_logged (logged : Logged s) {e : Event} (not_invalidated : e ≠ .invalidated)
    (not_revoked : ∀ l, e ≠ .revoked l)
    (used : ∀ l, e.uses = some l → (s.leases l).aborted = false)
    (stamped : ∀ g, e.stamp = some g → g = s.generation) :
    Logged { s with history := e :: s.history } where
  lawful := by
    refine ⟨?_, ?_, logged.lawful⟩
    · intro l uses revoked
      have aborted := (logged.revoked l revoked).1
      rw [used l uses] at aborted
      cases aborted
    · intro g stamp
      rw [stamped g stamp, logged.generation]
  generation := by
    rw [List.count_cons_of_ne not_invalidated]
    exact logged.generation
  revoked := by
    intro l mem
    rcases List.mem_cons.mp mem with new | old
    · exact absurd new.symm (not_revoked l)
    · exact logged.revoked l old
  assigned := logged.assigned

theorem invalidate_logged (logged : Logged s) : Logged s.invalidate where
  lawful := by
    apply lawful_append
    · intro e mem
      obtain ⟨l, _, rfl⟩ := List.mem_map.mp mem
      exact ⟨rfl, rfl⟩
    · refine ⟨?_, ?_, logged.lawful⟩
      · intro l uses
        cases uses
      · intro g stamp
        cases stamp
  generation := by
    have none_counted : (s.leased.map Event.revoked).count .invalidated = 0 := by
      rw [List.count_eq_zero]
      simp
    simp only [State.invalidate, List.count_append, none_counted, List.count_cons_self,
      logged.generation]
    omega
  revoked := by
    intro l mem
    simp only [State.invalidate, List.mem_append, List.mem_map, List.mem_cons, reduceCtorEq,
      false_or] at mem ⊢
    rcases mem with ⟨l', leased, same⟩ | old
    · cases same
      obtain ⟨p, found⟩ := (leased_iff l).mp leased
      simp [leased, logged.assigned p l found]
    · obtain ⟨aborted, known⟩ := logged.revoked l old
      split <;> simp [aborted, known]
  assigned := by
    intro p l found
    simp [State.invalidate] at found

theorem addLease_logged (logged : Logged s) (tp : TopicPartition) :
    Logged (s.addLease s.generation tp) := by
  have created : Event.leaseCreated s.nextLease tp.partition s.generation ≠ .invalidated := by simp
  have entered := log_logged logged created (by simp) (fun _ uses => by cases uses)
    (fun g stamp => by cases stamp; rfl)
  exact { entered with
    revoked := by
      intro l mem
      obtain ⟨aborted, known⟩ := entered.revoked l mem
      have other : l ≠ s.nextLease := Nat.ne_of_lt known
      simp only [State.addLease, Function.update_of_ne other]
      exact ⟨aborted, Nat.lt_succ_of_lt known⟩
    assigned := by
      intro p l found
      simp only [State.addLease, OrderedMap.get_set] at found ⊢
      split at found
      · cases found
        exact Nat.lt_succ_self _
      · exact Nat.lt_succ_of_lt (logged.assigned p l found) }

theorem addLeases_logged {generation : Nat} (newest : generation = s.generation)
    (partitions : List TopicPartition) (logged : Logged s) :
    Logged (partitions.foldl (State.addLease generation) s) := by
  induction partitions generalizing s with
  | nil => exact logged
  | cons tp rest ih =>
    subst newest
    exact ih rfl (addLease_logged logged tp)

theorem move_logged {promise : Promise} {t : State} (logged : Logged s) (move : Move promise s t) :
    Logged t := by
  have unaborted : ∀ {p l : Nat}, s.current p l = true → (s.leases l).aborted = false :=
    fun current => ((current_iff _ _).mp current).2.1
  have silent : ∀ {e : Event}, e ≠ .invalidated → (∀ l, e ≠ .revoked l) → e.uses = none →
      e.stamp = none → Logged { s with history := e :: s.history } := by
    intro e first second unused unstamped
    exact log_logged logged first second (fun l uses => by rw [unused] at uses; cases uses)
      (fun g stamp => by rw [unstamped] at stamp; cases stamp)
  have through : ∀ {e : Event} {p l : Nat}, s.current p l = true → e ≠ .invalidated →
      (∀ l, e ≠ .revoked l) → e.uses = some l → e.stamp = none →
      Logged { s with history := e :: s.history } := by
    intro e p l current first second use unstamped
    exact log_logged logged first second
      (fun l' uses => by rw [use] at uses; cases uses; exact unaborted current)
      (fun g stamp => by rw [unstamped] at stamp; cases stamp)
  cases move with
  | invalidate => exact invalidate_logged logged
  | fails | cancel | stop | book | turn | dropped | received | launch => exact { logged with }
  | acknowledged | awaited | finished | soughtBack | overtakenReady | overtakenHandling |
    overtakenRejected | rejects | ends | restorationEnds => exact { logged with }
  | called =>
    have entered := log_logged logged (e := .consumeCalled s.nextCall s.generation) (by simp) (by simp)
      (fun _ uses => by cases uses) (fun g stamp => by cases stamp; rfl)
    exact { entered with }
  | handler t lease message rest ready left held current =>
    exact { through current (e := .handlerStarted _ lease message.offset) (by simp) (by simp) rfl rfl with }
  | mark => exact { silent (e := .marked _ _) (by simp) (by simp) rfl rfl with }
  | commit r metadata throws own current =>
    exact { through current (e := .commitCalled _ _) (by simp) (by simp) rfl rfl with }
  | committed => exact { silent (e := .committed _ _) (by simp) (by simp) rfl rfl with }
  | sought t r handling current =>
    exact { through current (e := .sought _ _) (by simp) (by simp) rfl rfl with }
  | soughtInVain t r handling current =>
    exact { through current (e := .sought _ _) (by simp) (by simp) rfl rfl with }
  | stored t r phase handling current =>
    exact { through current (e := .stored _ _) (by simp) (by simp) rfl rfl with }
  | resumes t lease paused settled held current =>
    exact { through current (e := .resumed lease) (by simp) (by simp) rfl rfl with }
  | rebalanced partitions =>
    have entered := log_logged (invalidate_logged logged)
      (e := .rebalanced s.invalidate.generation partitions) (by simp) (by simp)
      (fun _ uses => by cases uses) (fun g stamp => by cases stamp; rfl)
    exact { entered with }
  | provided r answer => cases answer <;> exact { logged with }
  | watermarks r offsets tp next rest chosen answer => cases answer <;> exact { logged with }
  | assignThrew r chosen commits settling newest =>
    have generation := ((overtaken_iff _).mp newest).1
    have entered := log_logged logged (e := .assignCalled (s.restorations r).generation chosen true)
      (by simp) (by simp) (fun _ uses => by cases uses) (fun g stamp => by cases stamp; exact generation)
    exact { entered with }
  | assigned r chosen commits settling newest =>
    have generation := ((overtaken_iff _).mp newest).1
    have entered := log_logged logged (e := .assignCalled (s.restorations r).generation chosen false)
      (by simp) (by simp) (fun _ uses => by cases uses) (fun g stamp => by cases stamp; exact generation)
    have leases := addLeases_logged (s := s.log _) generation (s.restorations r).partitions entered
    exact { leases with }

theorem initial_logged (topic : String) (restoring : Bool) : Logged (initial topic restoring) where
  lawful := trivial
  generation := rfl
  revoked := by
    intro l mem
    cases mem
  assigned := by
    intro p l found
    cases found

theorem reaches_logged {promise : Promise} (reach : promise.Reaches s) : Logged s := by
  obtain ⟨topic, restoring, run⟩ := reach
  exact steps_moves Logged (fun _ _ held move => move_logged held move) run
    (initial_logged topic restoring)

/- No call is made through a lease that has been revoked. -/
theorem no_call_after_revocation (reach : Reachable s) :
    ∀ later e earlier l, s.history = later ++ e :: earlier → e.uses = some l →
      .revoked l ∉ earlier := by
  intro later e earlier l split uses
  have lawful := (reaches_logged (reachable_reaches reach)).lawful
  rw [split] at lawful
  exact (lawful_split lawful).1 l uses

end Functions

/-- One message is delivered, marked and stored; its partition is then revoked,
    and a commit the handler makes too late is refused. -/
def lateCommit : List Action :=
  [.rebalance .assign [⟨"topic", 0⟩] false, .provided 0 (some none), .assign 0 false, .run,
    .poll false, .fetched (some [⟨"topic", 0, 5⟩]), .dispatch false, .mark 0 0 "", .dispatch false,
    .handlerSettles 0 false false, .rebalance .revoke [] false, .commit 0 0 false]

theorem exec_reachable {s : State} {topic : String} {restoring : Bool} {actions : List Action}
    (run : exec step (initial topic restoring) actions = some s) : Reachable s :=
  ⟨topic, restoring, exec_steps run⟩

theorem no_call_after_revocation_late :
    ∃ s, Reachable s ∧ .revoked 0 ∈ s.history ∧ .commitCalled 0 5 ∉ s.history ∧
      ∃ later earlier, s.history = later ++ .stored 0 5 :: earlier ∧ .revoked 0 ∉ earlier := by
  obtain ⟨s, run, revoked, refused, later, earlier, split⟩ : ∃ s,
      exec step (initial "topic" false) lateCommit = some s ∧ .revoked 0 ∈ s.history ∧
      .commitCalled 0 5 ∉ s.history ∧
      ∃ later earlier, s.history = later ++ .stored 0 5 :: earlier :=
    ⟨_, rfl, by decide, by decide, [.revoked 0, .invalidated], _, rfl⟩
  have reach := exec_reachable run
  exact ⟨s, reach, revoked, refused, later, earlier, split,
    no_call_after_revocation reach later _ earlier 0 split rfl⟩

end Kafka
