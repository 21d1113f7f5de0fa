import TsServiceLib.Service.StopAttempts

/-!
The waits of a stop end, and its callers go on. An attempt that has failed is
left behind; whoever comes next opens one of its own, over what is still
started.
-/
namespace Services
namespace Runtime
open Transitions Ledger

section Resuming
variable {r r' : Runtime} {k : Nat} {seen : List Bool}

theorem resumeGroup_governed (governed : Governed r) {phase : StopPhase} {members : List (Nat × Ref)}
    (ok : AttemptOk r (.group phase members))
    (resumed : r.resumeGroup k phase members seen = some r') : Governed r' := by
  have base := governed_but governed (· = k)
  unfold resumeGroup at resumed
  split at resumed
  · split at resumed
    · rename_i fulfilled
      cases resumed
      exact afterGroup_governed base ok fulfilled.2
    · cases resumed
      exact setAttempt_governed base trivial
  · cases resumed

theorem resumeRolling_governed (governed : Governed r) {s : Sequence} (ok : AttemptOk r (.rolling s))
    (resumed : (match resumeSequence r.ledger r.contexts (r.contextOf k) s (seen.all id) with
      | .blocked => none
      | .failed => some (r.setAttempt k .rejected)
      | .done => some ({ r with rollbackPending := false }.drainTasks k false)
      | .next sequence ledger => some { r.setAttempt k (.rolling sequence) with ledger := ledger }) =
        some r') : Governed r' := by
  have base := governed_but governed (· = k)
  obtain ⟨ended, failed, sequenced⟩ := ok
  split at resumed
  · cases resumed
  · cases resumed
    exact setAttempt_governed base trivial
  · rename_i done
    cases resumed
    have empty := resume_done governed.kept sequenced done
    have onward : Onward r { r with rollbackPending := false } := onward_same ended rfl rfl ended.2 rfl id
    have rolledBack : GovernedBut (· = k) { r with rollbackPending := false } :=
      governedBut_onward base ended onward (kept_onward onward base.kept) rfl (fun _ => .inr empty)
        (fun _ => rfl) rfl (fun _ _ => rfl)
    exact drainTasks_governed rolledBack ⟨ended, fun _ => empty⟩ empty
  · rename_i next
    cases resumed
    obtain ⟨kept, grown, sequenced'⟩ := resume_next governed.kept sequenced (by
      intro c rest order covers
      rw [failed]
      exact rollback_permitted governed.kept.completed_nodup order covers) next
    exact asking_governed base ended kept grown ⟨ended, failed, sequenced'⟩

theorem resumeTelemetry_governed (governed : Governed r) {s : Sequence} (ok : AttemptOk r (.telemetry s))
    (resumed : (match resumeSequence r.ledger r.contexts (r.contextOf k) s (seen.all id) with
      | .blocked => none
      | .failed => some (r.setAttempt k .rejected)
      | .done => some { r.setAttempt k .fulfilled with state := .stopped }
      | .next sequence ledger => some { r.setAttempt k (.telemetry sequence) with ledger := ledger }) =
        some r') : Governed r' := by
  have base := governed_but governed (· = k)
  obtain ⟨graceful, left, sequenced, drained⟩ := ok
  have ended := graceful.1
  split at resumed
  · cases resumed
  · cases resumed
    exact setAttempt_governed base trivial
  · rename_i done
    cases resumed
    have empty := resume_done governed.kept sequenced done
    have onward : Onward r { r with state := .stopped } := onward_same ended rfl rfl (by simp) rfl id
    have stopped : GovernedBut (· = k) { r with state := .stopped } :=
      governedBut_onward base ended onward (kept_onward onward base.kept) rfl (fun done => .inl done) id
        rfl (fun _ _ => rfl)
    exact setAttempt_governed stopped ⟨onward.ended, empty⟩
  · rename_i next
    cases resumed
    obtain ⟨kept, grown, sequenced'⟩ := resume_next governed.kept sequenced
      (fun c _ _ _ => drained ▸ telemetry_permitted graceful.2 left c) next
    exact asking_governed base ended kept grown
      ⟨⟨ended, fun failed => started_empty grown (graceful.2 failed)⟩, leaves_grown grown left, sequenced',
        drained⟩

theorem settled_over (governed : Governed r) (settled : r.startup = .fulfilled ∨ r.startup = .rejected) :
    Over r := by
  have ok := governed.startup
  constructor
  · unfold StartupOk at ok
    rcases settled with fulfilled | rejected
    · rw [fulfilled] at ok
      exact ok.1
    · rw [rejected] at ok
      exact ok.1
  · intro created
    rcases settled with fulfilled | rejected
    · cases fulfilled.symm.trans (governed.created created)
    · cases rejected.symm.trans (governed.created created)

theorem resumeAttempt_governed (governed : Governed r) (resumed : r.resumeAttempt k seen = some r') :
    Governed r' := by
  have base := governed_but governed (· = k)
  unfold resumeAttempt at resumed
  split at resumed
  · rename_i inside
    have ok := governed.attempts k inside id
    split at resumed
    · split at resumed
      · split at resumed
        · rename_i startup
          cases resumed
          exact afterStartup_governed base (settled_over governed (.inl startup))
        · rename_i startup
          cases resumed
          exact afterStartup_governed base (settled_over governed (.inr startup))
        · cases resumed
      · split at resumed
        · cases resumed
          exact setAttempt_governed (sealed_governed base) trivial
        · cases resumed
    · rename_i s state
      rw [state] at ok
      exact resumeRolling_governed governed ok resumed
    · rename_i phase members state
      rw [state] at ok
      exact resumeGroup_governed governed ok resumed
    · rename_i graceful drain state
      rw [state] at ok
      split at resumed
      · split at resumed
        · cases resumed
        · cases resumed
          exact afterDrain_governed base ok.1 ok.2
        · cases resumed
          exact setAttempt_governed (sealed_governed base) trivial
      · split at resumed
        · cases resumed
          exact setAttempt_governed (sealed_governed base) trivial
        · cases resumed
    · rename_i s state
      rw [state] at ok
      exact resumeTelemetry_governed governed ok resumed
    · cases resumed
    · cases resumed
  · cases resumed

/-- A drain that looks again or times out knows what it knew. -/
theorem redrain_governed (governed : Governed r) (inside : k < r.attempts) {graceful : Bool}
    {drain : Drain} (state : (r.attempt k).state = .draining graceful drain) (next : Drain) :
    Governed (r.setAttempt k (.draining graceful next)) := by
  have ok := governed.attempts k inside id
  rw [state] at ok
  exact setAttempt_governed (governed_but governed (· = k)) ok

theorem poll_governed (governed : Governed r) (polled : r.poll k = some r') : Governed r' := by
  unfold poll at polled
  split at polled
  · rename_i inside
    split at polled
    · rename_i graceful snapshot state
      split at polled
      · cases polled
        exact redrain_governed governed inside state _
      · cases polled
    · cases polled
  · cases polled

theorem drainTimeout_governed (governed : Governed r) (fired : r.drainTimeout k = some r') :
    Governed r' := by
  unfold drainTimeout at fired
  split at fired
  · rename_i inside
    split at fired
    · rename_i graceful snapshot state
      cases fired
      exact redrain_governed governed inside state .timedOut
    · cases fired
  · cases fired

end Resuming

section Calls
variable {r r' : Runtime} {m n context : Nat}

theorem setCall_governed (governed : Governed r) (counted : ∀ i, i < m → i ≠ n → i < r.calls) {call : Call}
    (ok : CallOk r call) : Governed ({ r with calls := m }.setCall n call) :=
  { governed with
    calls := by
      intro i inside
      rcases eq_or_ne i n with same | other
      · subst same
        simp only [setCall, Function.update_self]
        exact ok
      · simp only [setCall, Function.update_of_ne other]
        exact governed.calls i (counted i inside other) }

theorem openAttempt_governed (governed : Governed r) : Governed (r.openAttempt context) := by
  apply stopOnce_governed
  have onward : Over r → Onward r { r with
      attempt := Function.update r.attempt r.attempts ⟨context, .awaitingStartup⟩
      attempts := r.attempts + 1 } := fun ended => onward_same ended rfl rfl ended.2 rfl id
  exact { governed with
    attempts := by
      intro k inside other
      have older : k < r.attempts := Nat.lt_of_le_of_ne (Nat.le_of_lt_succ inside) other
      simp only [Function.update_of_ne other]
      exact governed.attempts k older id
    calls := by
      intro i inside
      exact callOk_onward onward (Nat.le_succ _) (governed.calls i inside)
    published := fun k published => Nat.lt_succ_of_lt (governed.published k published) }

/-- An attempt is opened whoever is counted as its caller. -/
theorem openAttempt_calls (r : Runtime) (context m : Nat) :
    { r with calls := m }.openAttempt context = { r.openAttempt context with calls := m } := by
  unfold openAttempt stopOnce afterStartup
  dsimp only
  split
  · rfl
  · split <;> rfl

theorem openAttempt_attempts (r : Runtime) (context : Nat) :
    (r.openAttempt context).attempts = r.attempts + 1 ∧ (r.openAttempt context).calls = r.calls := by
  unfold openAttempt stopOnce afterStartup
  dsimp only
  split
  · exact ⟨rfl, rfl⟩
  · split <;> exact ⟨rfl, rfl⟩

theorem ownCall_governed (governed : Governed r) (counted : ∀ i, i < m → i ≠ n → i < r.calls) :
    Governed (({ r with calls := m }.openAttempt context).setCall n ⟨context, r.attempts, true, .waiting⟩) := by
  obtain ⟨attempts, calls⟩ := openAttempt_attempts r context
  rw [openAttempt_calls]
  apply setCall_governed (openAttempt_governed governed)
  · rw [calls]
    exact counted
  · change r.attempts < (r.openAttempt context).attempts
    omega

theorem joinAttempt_governed (governed : Governed r) (counted : ∀ i, i < m → i ≠ n → i < r.calls) :
    Governed ({ r with calls := m }.joinAttempt n context) := by
  unfold joinAttempt
  split
  · have owned : Governed (({ r with calls := m }.openAttempt context).setCall n ⟨context, r.attempts, true, .waiting⟩) :=
      ownCall_governed governed counted
    have attempts := (openAttempt_attempts { r with calls := m } context).1
    exact { owned with
      published := by
        intro k published
        cases published
        change r.attempts < ({ r with calls := m }.openAttempt context).attempts
        rw [attempts]
        exact Nat.lt_succ_self _ }
  · rename_i k published
    exact setCall_governed governed counted (governed.published k published)

theorem stop_governed (governed : Governed r) : Governed (r.stop context) := by
  have counted : ∀ i, i < r.calls + 1 → i ≠ r.calls → i < r.calls := by
    intro i inside other
    omega
  unfold stop
  dsimp only
  split
  · rename_i nothing
    obtain ⟨pending, empty, _⟩ := nothing
    have stopped : Governed { r.sealed with state := .stopped } :=
      governedBut_step (sealed_governed governed)
        (fun ended => onward_same ended rfl rfl (by simp) rfl id) governed.kept
        (startupOk_same rfl governed.startup) rfl (fun _ _ => rfl) (fun created => by cases created)
        governed.registered
    have ended : Over { r.sealed with state := .stopped } := ⟨pending, by simp⟩
    exact setCall_governed stopped counted ⟨ended, empty⟩
  · exact joinAttempt_governed governed counted

theorem stopFromListener_governed (governed : Governed r) {joined : Option Nat}
    (called : r.stopFromListener context joined = some r') : Governed r' := by
  have counted : ∀ i, i < r.calls + 1 → i ≠ r.calls → i < r.calls := by
    intro i inside other
    omega
  unfold stopFromListener at called
  split at called
  · cases called
    exact ownCall_governed governed counted
  · split at called
    · rename_i inside
      cases called
      exact setCall_governed governed counted inside
    · cases called
  · cases called

theorem release_governed (governed : Governed r) (released : r.release = some r') : Governed r' := by
  unfold release at released
  split at released
  · split at released
    · cases released
      exact { governed with published := fun k published => by cases published }
    · cases released
  · cases released

theorem resumeCall_governed (governed : Governed r) {seen : Bool}
    (resumed : r.resumeCall n seen = some r') : Governed r' := by
  have counted : ∀ i, i < r.calls → i ≠ n → i < r.calls := fun _ inside _ => inside
  have rejected : Governed (r.sealed.setCall n { r.call n with status := .rejected }) :=
    setCall_governed (r := r.sealed) (sealed_governed governed) counted trivial
  unfold resumeCall at resumed
  dsimp only at resumed
  split at resumed
  · rename_i waiting
    split at resumed
    · split at resumed
      · cases resumed
      · split at resumed
        · cases resumed
        · rename_i settled
          cases resumed
          -- a fulfilled attempt has left nothing started
          have ok := governed.calls n waiting.1
          unfold CallOk at ok
          rw [waiting.2] at ok
          have attempt := governed.attempts (r.call n).attempt ok id
          unfold attemptSettled at settled
          split at settled
          · rename_i fulfilled
            rw [fulfilled] at attempt
            exact setCall_governed (r := r) governed counted attempt
          · cases settled
          · cases settled
        · split at resumed
          · cases resumed
            exact rejected
          · cases resumed
            exact joinAttempt_governed (r := r) governed counted
    · split at resumed
      · cases resumed
        exact rejected
      · cases resumed
  · cases resumed

end Calls

end Runtime

end Services
