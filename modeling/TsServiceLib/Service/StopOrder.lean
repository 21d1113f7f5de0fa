import TsServiceLib.Service.RuntimeRuns

/-!
What the invariant says about the stops that the runtime begins: whose they
are, and in which order they come.
-/
namespace Services
namespace Runtime
open Transitions Ledger

section Ownership
variable {r r' : Runtime}

/-- What is asked at the moment the lifecycle is called. -/
theorem invoke_queued {i : Nat} (stepped : step r (.invoke i) = some r') :
    i < r.ledger.operations ∧ (r.ledger.operation i).status = .queued := by
  unfold step at stepped
  split at stepped
  · obtain ⟨l, invoked, _⟩ := Option.map_eq_some_iff.mp stepped
    unfold invoke at invoked
    split at invoked
    · rename_i ready
      exact ready
    · cases invoked
  · cases stepped

theorem one_stop_alive {allowed : Nat → Prop} {l : Ledger} (kept : Kept allowed l) {i j : Nat}
    (inside : i < l.operations) (inside' : j < l.operations) (full : (l.operation i).admissionOnly = false)
    (full' : (l.operation j).admissionOnly = false)
    (same : (l.operation j).component = (l.operation i).component) (alive : ¬Rejected (l.operation i))
    (other : j ≠ i) : Rejected (l.operation j) := by
  by_contra alive'
  have mine := kept.current i inside full alive
  have theirs := kept.current j inside' full' alive'
  rw [same, mine] at theirs
  exact other (Option.some.inj theirs).symm

theorem fulfilled_call_stopped (governed : Governed r) {n : Nat} (inside : n < r.calls)
    (fulfilled : (r.call n).status = .fulfilled) {c : Nat} (completed : c ∈ r.ledger.completed) :
    r.ledger.Stopped c := by
  have ok := governed.calls n inside
  unfold CallOk at ok
  rw [fulfilled] at ok
  by_contra running
  have mem := (governed.kept.started c).mpr ⟨completed, running⟩
  rw [ok.2] at mem
  cases mem

/- When a lifecycle is called to stop, every other stop of that component has
   been rejected before; and once a call of `stop` is fulfilled, every component
   whose start has completed has had a fulfilled stop. -/
theorem runtime_owns_stops (reached : Reached Any r) :
    (∀ i r', step r (.invoke i) = some r' → (r.ledger.operation i).admissionOnly = false →
      ∀ j, j < r.ledger.operations → j ≠ i → (r.ledger.operation j).admissionOnly = false →
        (r.ledger.operation j).component = (r.ledger.operation i).component →
        Rejected (r.ledger.operation j)) ∧
    (∀ n, n < r.calls → (r.call n).status = .fulfilled →
      ∀ c ∈ r.ledger.completed, r.ledger.Stopped c) := by
  have governed := reached_governed reached
  constructor
  · intro i r' stepped full j inside other full' same
    obtain ⟨there, queued⟩ := invoke_queued stepped
    have alive : ¬Rejected (r.ledger.operation i) := by
      rintro ⟨failure, settled⟩
      rw [queued] at settled
      cases settled
    exact one_stop_alive governed.kept there inside full full' same alive other
  · intro n inside fulfilled c completed
    exact fulfilled_call_stopped governed inside fulfilled completed

def passGroups (k count : Nat) : List Action := List.replicate count (.resumeAttempt k [])

/-- The stop of a sink fails with the deadline of its caller, while a second
    caller has joined the attempt; it comes as far as the sink again. -/
def expiredStop : List Action :=
  [.register ⟨.dataSink, "sink", false, by simp⟩, .start 0 true, .built true true, .itemSettles true,
    .stop 1] ++ passGroups 0 4 ++ [.invoke 0, .expire 1, .answer 0 (some .timeout), .resumeCall 0 false,
    .stop 2, .settle 0, .resumeAttempt 0 [true], .release, .resumeCall 1 true] ++ passGroups 1 4

def retriedStop : List Action :=
  [.invoke 1, .answer 1 none, .settle 1, .resumeAttempt 1 [true]] ++ passGroups 1 2 ++
    [.release, .resumeCall 1 true]

theorem runtime_owns_stops_retried :
    ∃ r r', Reached Any r ∧ (step r (.invoke 1)).isSome = true ∧ Rejected (r.ledger.operation 0) ∧
      Reached Any r' ∧ (r'.call 1).status = .fulfilled ∧ r'.ledger.Stopped 0 := by
  have runs : (exec step {} expiredStop).map (fun r => ((step r (.invoke 1)).isSome,
      r.ledger.operations, r.ledger.operation 0, r.ledger.operation 1)) = some (true, 2,
        ⟨0, false, .caller 1, .settled (some .timeout)⟩, ⟨0, false, .caller 2, .queued⟩) := by
    decide +kernel
  have ends : (exec step {} (expiredStop ++ retriedStop)).map (fun r => (r.calls, (r.call 1).status,
      r.ledger.completed)) = some (2, .fulfilled, [0]) := by
    decide +kernel
  obtain ⟨r, run, facts⟩ := Option.map_eq_some_iff.mp runs
  obtain ⟨r', run', facts'⟩ := Option.map_eq_some_iff.mp ends
  simp only [Prod.mk.injEq] at facts facts'
  obtain ⟨enabled, operations, first, second⟩ := facts
  obtain ⟨calls, fulfilled, completed⟩ := facts'
  obtain ⟨next, stepped⟩ := Option.isSome_iff_exists.mp enabled
  refine ⟨r, r', exec_steps run, enabled, ?_, exec_steps run', fulfilled, ?_⟩
  · exact (runtime_owns_stops (exec_steps run)).1 1 next stepped (by rw [second]) 0 (by omega) (by omega)
      (by rw [first]) (by rw [first, second])
  · exact (runtime_owns_stops (exec_steps run')).2 1 (by omega) fulfilled 0 (by simp [completed])

end Ownership

section Order
variable {r : Runtime}

/-- The component is registered under the category. -/
def IsOf (l : Ledger) (category : Category) (c : Nat) : Prop :=
  (l.components[c]?).map RuntimeComponent.category = some category

/-- All started components of these categories have had a fulfilled stop. -/
def CategoriesStopped (l : Ledger) (categories : Category → Bool) : Prop :=
  ∀ c ∈ l.completed, ∀ category, IsOf l category c → categories category = true → l.Stopped c

/-- The order of the stops, for a component whose stop is being begun. -/
structure StopOrder (r : Runtime) (c : Nat) : Prop where
  completed : c ∈ r.ledger.completed
  sink : r.startFailed = false → IsOf r.ledger .dataSink c →
    CategoriesStopped r.ledger (fun k => admissionCategory k || resourceCategory k) ∧ r.drained = true
  connector : r.startFailed = false → IsOf r.ledger .managedDataConnector c →
    CategoriesStopped r.ledger (fun k => decide (k = .dataSink))
  telemetry : r.startFailed = false → IsOf r.ledger .telemetry c →
    CategoriesStopped r.ledger (fun k => decide (k ≠ .telemetry))
  rollback : r.startFailed = true → ∀ c', StartedLater r.ledger c c' → r.ledger.Stopped c'

theorem leaves_stopped {allowed : Nat → Prop} {l : Ledger} (kept : Kept allowed l)
    {p : RuntimeComponent → Bool} (leaves : Leaves l p) {categories : Category → Bool}
    (gone : ∀ component : RuntimeComponent, categories component.category = true → p component = false) :
    CategoriesStopped l categories := by
  intro c completed category isOf taken
  obtain ⟨component, found, same⟩ := Option.map_eq_some_iff.mp isOf
  by_contra running
  have left := leaves c ((kept.started c).mpr ⟨completed, running⟩) component found
  rw [gone component (by rw [same]; exact taken)] at left
  cases left

theorem permitted_order (governed : Governed r) {c : Nat} (completed : c ∈ r.ledger.completed)
    (permitted : Permitted r.ledger r.startFailed r.drained c) : StopOrder r c := by
  have kept := governed.kept
  have graceful : r.startFailed = false → ∀ category, IsOf r.ledger category c →
      (category = .dataSink → Leaves r.ledger (StopPhase.left .sinks) ∧ r.drained = true) ∧
      (category = .managedDataConnector → Leaves r.ledger (StopPhase.left .connectors)) ∧
      (category = .telemetry → Leaves r.ledger isTelemetry) := by
    intro succeeded category isOf
    obtain ⟨component, found, same⟩ := Option.map_eq_some_iff.mp isOf
    rw [Permitted, if_neg (by simp [succeeded])] at permitted
    subst same
    exact permitted component found
  constructor
  · exact completed
  · intro succeeded isOf
    obtain ⟨leaves, drained⟩ := (graceful succeeded _ isOf).1 rfl
    refine ⟨leaves_stopped kept leaves ?_, drained⟩
    intro component taken
    simp only [StopPhase.left]
    cases h : admissionCategory component.category <;> simp_all
  · intro succeeded isOf
    apply leaves_stopped kept ((graceful succeeded _ isOf).2.1 rfl)
    intro component taken
    simp only [StopPhase.left, taken]
    simp
  · intro succeeded isOf
    apply leaves_stopped kept ((graceful succeeded _ isOf).2.2 rfl)
    intro component taken
    simpa [isTelemetry] using taken
  · intro failed c' later
    rw [Permitted, if_pos failed] at permitted
    by_contra running
    have there : c' ∈ r.ledger.completed := later.subset (by simp)
    exact permitted c' later ((kept.started c').mpr ⟨there, running⟩)

/- The stops are begun in order; after a failed start only components that have
   started are stopped, and all of them when the rollback of the start, or a
   later stop, has ended well. -/
theorem stop_order_kept (reached : Reached Any r) :
    (∀ i r', step r (.invoke i) = some r' → (r.ledger.operation i).admissionOnly = false →
      StopOrder r (r.ledger.operation i).component) ∧
    (∀ c, r.ledger.Stopped c → c ∈ r.ledger.completed) ∧
    (r.startFailed = true → ((∃ n, n < r.calls ∧ (r.call n).status = .fulfilled) ∨
        (r.startupPending = false ∧ r.rollbackPending = false)) →
      ∀ c ∈ r.ledger.completed, r.ledger.Stopped c) := by
  have governed := reached_governed reached
  refine ⟨?_, ?_, ?_⟩
  · intro i r' stepped full
    have inside := (invoke_queued stepped).1
    exact permitted_order governed (governed.kept.asked i inside) (governed.kept.permitted i inside full)
  · rintro c ⟨i, inside, component, _, _⟩
    rw [← component]
    exact governed.kept.asked i inside
  · intro failed ended c completed
    rcases ended with ⟨n, inside, fulfilled⟩ | ⟨settled, rolledBack⟩
    · exact fulfilled_call_stopped governed inside fulfilled completed
    · have ok := governed.startup
      unfold StartupOk at ok
      by_contra running
      have mem := (governed.kept.started c).mpr ⟨completed, running⟩
      split at ok <;> simp_all

/-- The lifecycle is called and does what it is asked. -/
def stops (i : Nat) : List Action := [.invoke i, .answer i none, .settle i]

/-- Telemetry, a connector, a sink and a source start and are stopped as far as
    the stop of the sink. -/
def stopsToSink : List Action :=
  [.register ⟨.telemetry, "metrics", false, by simp⟩,
    .register ⟨.managedDataConnector, "temporal", true, by simp⟩,
    .register ⟨.dataSink, "sink", false, by simp⟩, .register ⟨.dataSource, "source", true, by simp⟩,
    .start 0 true, .built true true] ++ List.replicate 5 (.itemSettles true) ++ [.stop 1] ++
    stops 0 ++ [.resumeAttempt 0 [true]] ++ stops 1 ++ [.resumeAttempt 0 [true]] ++ stops 2 ++
    [.resumeAttempt 0 [true]] ++ passGroups 0 1

/-- The third component to start fails, and the second one has been rolled back. -/
def failedStart : List Action :=
  [.register ⟨.storage, "rows", false, by simp⟩, .register ⟨.taskPool, "pool", false, by simp⟩,
    .register ⟨.dataSink, "sink", false, by simp⟩, .start 0 true, .built true true, .itemSettles true,
    .itemSettles true, .itemSettles false] ++ stops 0 ++ [.resumeStart true]

theorem stop_order_kept_runs :
    (∃ r, Reached Any r ∧ (step r (.invoke 3)).isSome = true ∧ r.ledger.Stopped 3 ∧ r.drained = true) ∧
    (∃ r, Reached Any r ∧ r.startFailed = true ∧ (step r (.invoke 1)).isSome = true ∧
      r.ledger.Stopped 1) := by
  constructor
  · have runs : (exec step {} stopsToSink).map (fun r => ((step r (.invoke 3)).isSome, r.startFailed,
        r.ledger.operation 3, r.ledger.completed, r.ledger.components.map RuntimeComponent.category)) =
          some (true, false, ⟨2, false, .caller 1, .queued⟩, [0, 1, 2, 3],
            [.telemetry, .managedDataConnector, .dataSink, .dataSource]) := by
      decide +kernel
    obtain ⟨r, run, facts⟩ := Option.map_eq_some_iff.mp runs
    simp only [Prod.mk.injEq] at facts
    obtain ⟨enabled, succeeded, operation, completed, categories⟩ := facts
    obtain ⟨next, stepped⟩ := Option.isSome_iff_exists.mp enabled
    have order := (stop_order_kept (exec_steps run)).1 3 next stepped (by rw [operation])
    rw [operation] at order
    have isOf : ∀ c : Nat, (r.ledger.components[c]?).map RuntimeComponent.category =
        [Category.telemetry, .managedDataConnector, .dataSink, .dataSource][c]? := by
      intro c
      rw [← categories, List.getElem?_map]
    obtain ⟨stopped, drained⟩ := order.sink succeeded (isOf 2)
    exact ⟨r, exec_steps run, enabled,
      stopped 3 (by simp [completed]) .dataSource (isOf 3) (by decide), drained⟩
  · have runs : (exec step {} failedStart).map (fun r => ((step r (.invoke 1)).isSome, r.startFailed,
        r.ledger.operation 1, r.ledger.completed)) =
          some (true, true, ⟨0, false, .startup, .queued⟩, [0, 1]) := by
      decide +kernel
    obtain ⟨r, run, facts⟩ := Option.map_eq_some_iff.mp runs
    simp only [Prod.mk.injEq] at facts
    obtain ⟨enabled, failed, operation, completed⟩ := facts
    obtain ⟨next, stepped⟩ := Option.isSome_iff_exists.mp enabled
    have order := (stop_order_kept (exec_steps run)).1 1 next stepped (by rw [operation])
    rw [operation] at order
    exact ⟨r, exec_steps run, failed, enabled, order.rollback failed 1 (by simp [StartedLater, completed])⟩

end Order

end Runtime

end Services
