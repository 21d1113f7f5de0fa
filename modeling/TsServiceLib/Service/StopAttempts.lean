import TsServiceLib.Service.RuntimeInvariant

/-!
The stop attempts keep the invariant of the runtime. Each rest of `stopOnce`
is entered with what the rests before it have cleared.
-/
namespace Services
namespace Runtime
open Transitions Ledger

section Transport
variable {skipped : Nat → Prop} {r r' : Runtime}

/-- What the waiting callers see of a runtime. -/
def waiters (r : Runtime) : Nat × (Nat → Call) × Nat × Option Nat :=
  (r.attempts, r.call, r.calls, r.stopPromise)

def startupFields (r : Runtime) : Startup × Bool × Ledger × Bool × Bool :=
  (r.startup, r.startupPending, r.ledger, r.startFailed, r.rollbackPending)

theorem startupOk_same (same : r'.startupFields = r.startupFields) (ok : StartupOk r) : StartupOk r' := by
  cases r
  cases r'
  cases same
  exact ok

/-- The rests of the attempts keep what they know while the runtime goes on. -/
theorem governedBut_step (base : GovernedBut skipped r) (onward : Over r → Onward r r')
    (kept : Kept (Permitted r'.ledger r'.startFailed r'.drained) r'.ledger) (startup : StartupOk r')
    (waiters : r'.waiters = r.waiters) (others : ∀ k, ¬skipped k → r'.attempt k = r.attempt k)
    (created : r'.state = .created → r'.startup = .idle)
    (registered : ∀ c ∈ r'.ledger.completed, c < r'.ledger.components.length) :
    GovernedBut skipped r' := by
  obtain ⟨attempts, call, calls, promise⟩ : r'.attempts = r.attempts ∧ r'.call = r.call ∧
      r'.calls = r.calls ∧ r'.stopPromise = r.stopPromise := by
    simpa [Runtime.waiters] using waiters
  exact {
    kept := kept
    startup := startup
    attempts := by
      intro k inside other
      rw [others k other]
      exact attemptOk_onward onward (base.attempts k (attempts ▸ inside) other)
    calls := by
      intro n inside
      rw [call]
      exact callOk_onward onward (Nat.le_of_eq attempts.symm) (base.calls n (calls ▸ inside))
    published := by
      intro k published
      rw [attempts]
      exact base.published k (promise ▸ published)
    created := created
    registered := registered }

theorem governedBut_onward (base : GovernedBut skipped r) (ended : Over r) (onward : Onward r r')
    (kept : Kept (Permitted r'.ledger r'.startFailed r'.drained) r'.ledger)
    (startup : r'.startup = r.startup)
    (rolling : r'.rollbackPending = false → r.rollbackPending = false ∨ r'.ledger.started = [])
    (cleared : r.rollbackPending = false → r'.rollbackPending = false)
    (waiters : r'.waiters = r.waiters)
    (others : ∀ k, ¬skipped k → r'.attempt k = r.attempt k) : GovernedBut skipped r' := by
  apply governedBut_step base (fun _ => onward) kept
    (startupOk_onward ended onward startup rolling cleared base.startup) waiters others
    (fun created => absurd created onward.ended.2)
  rw [onward.ledger.completed, onward.ledger.components]
  exact base.registered

/-- The attempt that was left out is seen to as well. -/
theorem governed_own {k : Nat} (base : GovernedBut (· = k) r) (own : AttemptOk r (r.attempt k).state) :
    Governed r :=
  { base with
    attempts := by
      intro i inside _
      rcases eq_or_ne i k with same | other
      · rw [same]
        exact own
      · exact base.attempts i inside other }

theorem governed_but (governed : Governed r) (skipped : Nat → Prop) : GovernedBut skipped r :=
  { governed with attempts := fun k inside _ => governed.attempts k inside id }

/-- A step that leaves the ledger and the outcome of the start alone. -/
theorem onward_same (ended : Over r) (ledger : r'.ledger = r.ledger)
    (pending : r'.startupPending = r.startupPending) (state : r'.state ≠ .created)
    (failed : r'.startFailed = r.startFailed) (drained : r.drained = true → r'.drained = true) :
    Onward r r' :=
  ⟨ledger ▸ grown_refl _, ⟨pending.trans ended.1, state⟩, failed, drained⟩

theorem kept_onward (onward : Onward r r')
    (kept : Kept (Permitted r.ledger r.startFailed r.drained) r'.ledger) :
    Kept (Permitted r'.ledger r'.startFailed r'.drained) r'.ledger := by
  apply kept_mono kept
  intro c _ permitted
  rw [onward.failed]
  exact permitted_grown onward.ledger onward.drained permitted

end Transport

section Attempts
variable {skipped : Nat → Prop} {r : Runtime} {k : Nat}

@[simp] theorem setAttempt_own (r : Runtime) (k : Nat) (s : AttemptState) :
    (r.setAttempt k s).attempt k = { r.attempt k with state := s } := by
  simp [setAttempt]

theorem setAttempt_other (r : Runtime) (s : AttemptState) {i : Nat} (other : i ≠ k) :
    (r.setAttempt k s).attempt i = r.attempt i := by
  simp [setAttempt, other]

theorem startedOf_sublist (r : Runtime) (takes : RuntimeComponent → Bool) :
    (r.startedOf takes).Sublist r.ledger.started :=
  List.filter_sublist

theorem mem_startedOf {takes : RuntimeComponent → Bool} {c : Nat} :
    c ∈ r.startedOf takes ↔ c ∈ r.ledger.started ∧ (r.ledger.components[c]?).any takes = true := by
  simp [startedOf]

theorem enterGroup_governed (base : GovernedBut (· = k) r) {phase : StopPhase} (graceful : Graceful r)
    (left : Leaves r.ledger phase.left) (late : phase = .sinks ∨ phase = .connectors → r.drained = true) :
    Governed (r.enterGroup k phase) := by
  have started_completed : ∀ c ∈ r.ledger.started, c ∈ r.ledger.completed :=
    fun c mem => ((base.kept.started c).mp mem).1
  have taken : ∀ c ∈ (r.startedOf phase.takes).reverse,
      c ∈ r.ledger.started ∧ (r.ledger.components[c]?).any phase.takes = true :=
    fun c mem => mem_startedOf.mp (List.mem_reverse.mp mem)
  obtain ⟨kept, grown, names, serves⟩ := stopAll_grouped (r.contextOf k) phase.admissionOnly base.kept
    (fun c mem => started_completed c (taken c mem).1)
    (fun c mem full => phase_permitted graceful.2 left late (taken c mem).2 full)
  have onward : Onward r (r.enterGroup k phase) := ⟨grown, graceful.1, rfl, id⟩
  have others : ∀ i, ¬i = k → (r.enterGroup k phase).attempt i = r.attempt i :=
    fun i other => setAttempt_other r _ other
  apply governed_own (k := k) (governedBut_onward base graceful.1 onward (kept_onward onward kept) rfl
    (fun done => .inl done) id rfl others)
  have state : ((r.enterGroup k phase).attempt k).state = .group phase (stopAll (r.contextOf k)
      phase.admissionOnly (r.startedOf phase.takes).reverse r.ledger).1 := by
    simp [enterGroup]
  rw [state]
  refine ⟨graceful_onward onward graceful, ⟨leaves_grown grown left, ?_, ?_⟩, late⟩
  · intro c mem takes
    rw [names]
    apply List.mem_reverse.mpr
    apply mem_startedOf.mpr
    refine ⟨grown.started.subset mem, ?_⟩
    rw [← grown.components]
    exact takes
  · intro member mem
    have same : ∀ c admission, (r.enterGroup k phase).ledger.only c admission = r.ledger.only c admission := grown_only grown
    rw [same]
    exact serves member mem

theorem sealed_governed (base : GovernedBut skipped r) : GovernedBut skipped r.sealed :=
  governedBut_step base (fun ended => onward_same ended rfl rfl ended.2 rfl id) base.kept
    (startupOk_same rfl base.startup) rfl (fun _ _ => rfl) base.created base.registered

theorem afterDrain_governed (base : GovernedBut (· = k) r) (calm : Graceful r) {graceful : Bool}
    (left : if graceful then Leaves r.ledger (StopPhase.left .sinks) else r.ledger.started = []) :
    Governed (r.afterDrain k graceful) := by
  have closed := sealed_governed base
  unfold afterDrain
  cases graceful with
  | true =>
    have onward : Onward r.sealed { r.sealed with drained := true } :=
      onward_same calm.1 rfl rfl calm.1.2 rfl fun _ => rfl
    have drained := governedBut_onward closed calm.1 onward (kept_onward onward closed.kept) rfl
      (fun done => .inl done) id rfl (fun _ _ => rfl)
    exact enterGroup_governed drained calm left (fun _ => rfl)
  | false =>
    have onward : Onward r.sealed { r.sealed.setAttempt k .fulfilled with state := .stopped } :=
      onward_same calm.1 rfl rfl (by simp) rfl id
    have others : ∀ i, ¬i = k → ({ r.sealed.setAttempt k .fulfilled with state := .stopped } :
        Runtime).attempt i = r.sealed.attempt i := fun i other => setAttempt_other r.sealed _ other
    apply governed_own (k := k) (governedBut_onward closed calm.1 onward (kept_onward onward closed.kept)
      rfl (fun done => .inl done) id rfl others)
    simp only [setAttempt_own]
    exact ⟨onward.ended, left⟩

/-- The attempt moves to a rest it is entitled to, and nothing else changes. -/
theorem setAttempt_governed (base : GovernedBut (· = k) r) {s : AttemptState} (own : AttemptOk r s) :
    Governed (r.setAttempt k s) := by
  have moved : GovernedBut (· = k) (r.setAttempt k s) :=
    governedBut_step base (fun ended => onward_same ended rfl rfl ended.2 rfl id) base.kept
      (startupOk_same rfl base.startup) rfl (fun i other => setAttempt_other r s other) base.created
      base.registered
  apply governed_own moved
  rw [setAttempt_own]
  exact own

/-- The attempt has asked for stops and rests to wait for them. -/
theorem asking_governed (base : GovernedBut (· = k) r) (ended : Over r) {s : AttemptState} {l : Ledger}
    (kept : Kept (Permitted r.ledger r.startFailed r.drained) l) (grown : Grown r.ledger l)
    (own : AttemptOk { r with ledger := l } s) : Governed { r.setAttempt k s with ledger := l } := by
  have onward : Onward r { r.setAttempt k s with ledger := l } := ⟨grown, ended, rfl, id⟩
  apply governed_own (k := k) (governedBut_onward base ended onward (kept_onward onward kept) rfl
    (fun done => .inl done) id rfl fun i other => setAttempt_other r s other)
  simp only [setAttempt_own]
  exact own

theorem drainTasks_governed (base : GovernedBut (· = k) r) (calm : Graceful r) {graceful : Bool}
    (left : if graceful then Leaves r.ledger (StopPhase.left .sinks) else r.ledger.started = []) :
    Governed (r.drainTasks k graceful) := by
  unfold drainTasks
  split
  · exact afterDrain_governed base calm left
  · exact setAttempt_governed base ⟨calm, left⟩

theorem telemetry_permitted {l : Ledger} {failed : Bool} (graceful : failed = true → l.started = [])
    (left : Leaves l isTelemetry) (c : Nat) : Permitted l failed true c := by
  unfold Permitted
  split
  · rename_i startFailed
    intro c' _ mem
    rw [graceful startFailed] at mem
    cases mem
  · intro component _
    have weaker : ∀ phase : StopPhase, Leaves l phase.left := by
      intro phase c' mem other found
      have telemetry := left c' mem other found
      simp only [isTelemetry, decide_eq_true_eq] at telemetry
      cases phase <;> simp [StopPhase.left, telemetry, admissionCategory, resourceCategory]
    exact ⟨fun _ => ⟨weaker .sinks, rfl⟩, fun _ => weaker .connectors, fun _ => left⟩

theorem enterTelemetry_governed (base : GovernedBut (· = k) r) (graceful : Graceful r)
    (left : Leaves r.ledger isTelemetry) (drained : r.drained = true) :
    Governed (r.enterTelemetry k) := by
  have order : (r.startedOf isTelemetry).reverse.Sublist r.ledger.completed.reverse :=
    List.reverse_sublist.mpr ((startedOf_sublist r _).trans base.kept.started_sublist)
  have covers : ∀ c ∈ r.ledger.started, c ∈ (r.startedOf isTelemetry).reverse := by
    intro c mem
    have inside := base.registered c ((base.kept.started c).mp mem).1
    have found : r.ledger.components[c]? = some r.ledger.components[c] := List.getElem?_eq_getElem inside
    apply List.mem_reverse.mpr
    apply mem_startedOf.mpr
    rw [found]
    exact ⟨mem, left c mem _ found⟩
  obtain ⟨kept, grown, sequenced⟩ := beginSequence_sequenced base.kept (r.contextOf k) order covers
    fun c _ _ => drained ▸ telemetry_permitted graceful.2 left c
  exact asking_governed base graceful.1 kept grown
    ⟨⟨graceful.1, fun failed => started_empty grown (graceful.2 failed)⟩, leaves_grown grown left, sequenced,
      drained⟩

theorem afterGroup_governed (base : GovernedBut (· = k) r) {phase : StopPhase} {members : List (Nat × Ref)}
    (ok : AttemptOk r (.group phase members)) (fulfilled : allFulfilled r.ledger members = true) :
    Governed (r.afterGroup k phase) := by
  obtain ⟨graceful, grouped, late⟩ := ok
  have left := group_leaves base.kept grouped fulfilled
  cases phase with
  | admission => exact enterGroup_governed base graceful left (by simp)
  | producers => exact enterGroup_governed base graceful left (by simp)
  | managed => exact enterGroup_governed base graceful left (by simp)
  | resources => exact drainTasks_governed base graceful left
  | sinks => exact enterGroup_governed base graceful left (fun _ => late (.inl rfl))
  | connectors => exact enterTelemetry_governed base graceful left (late (.inr rfl))

theorem ended_startup (base : GovernedBut skipped r) (ended : Over r) :
    (r.rollbackPending = true → r.startFailed = true) ∧
      (r.rollbackPending = false → r.startFailed = true → r.ledger.started = []) := by
  have ok := base.startup
  have pending := ended.1
  unfold StartupOk at ok
  split at ok <;> simp_all

theorem afterStartup_governed (base : GovernedBut (· = k) r) (ended : Over r) :
    Governed (r.afterStartup k) := by
  obtain ⟨failed, gone⟩ := ended_startup base ended
  unfold afterStartup
  split
  · rename_i rollback
    have order : r.ledger.started.reverse.Sublist r.ledger.completed.reverse :=
      List.reverse_sublist.mpr base.kept.started_sublist
    have covers : ∀ c ∈ r.ledger.started, c ∈ r.ledger.started.reverse :=
      fun c mem => List.mem_reverse.mpr mem
    have permits : ∀ c rest, r.ledger.started.reverse = c :: rest →
        Permitted r.ledger r.startFailed r.drained c := by
      intro c rest shape
      rw [shape] at order covers
      rw [failed rollback]
      exact rollback_permitted base.kept.completed_nodup order covers
    obtain ⟨kept, grown, sequenced⟩ :=
      beginSequence_sequenced base.kept (r.contextOf k) order covers permits
    exact asking_governed base ended kept grown ⟨ended, failed rollback, sequenced⟩
  · rename_i graceful
    apply enterGroup_governed base ⟨ended, gone (by simpa using graceful)⟩
    · intro c _ component _
      rfl
    · simp

theorem stopOnce_governed (base : GovernedBut (· = k) r) : Governed (r.stopOnce k) := by
  unfold stopOnce
  split
  · rename_i pending
    have early : ¬Over r := fun ended => by simp [ended.1] at pending
    have moved : GovernedBut (· = k) { r.setAttempt k .awaitingStartup with
        state := .stopping
        contexts := { r.contexts with startupAborted := true } } :=
      governedBut_step base (fun ended => absurd ended early) base.kept (startupOk_same rfl base.startup)
        rfl (fun i other => setAttempt_other r _ other) (fun created => by cases created) base.registered
    apply governed_own moved
    simp only [setAttempt_own]
    trivial
  · rename_i settled
    have none_pending : r.startupPending = false := by simpa using settled
    have startup : StartupOk { r with state := .stopping } := startupOk_same rfl base.startup
    have moved : GovernedBut (· = k) { r with state := .stopping } :=
      governedBut_step base (fun ended => onward_same ended rfl rfl (by simp) rfl id) base.kept startup rfl
        (fun _ _ => rfl) (fun created => by cases created) base.registered
    exact afterStartup_governed moved ⟨none_pending, by simp⟩

end Attempts

end Runtime

end Services
