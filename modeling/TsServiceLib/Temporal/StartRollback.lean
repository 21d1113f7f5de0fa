import TsServiceLib.Temporal.StartInvariant

/-!
What a start that fails leaves behind. One that fails before it takes a
connection leaves the connector as it found it, and whatever its attempt still
brings is nobody's. One that fails after it has taken its connection closes it,
but the flag that it had set stays: endpoints are refused, and the next start
returns at once.
-/
namespace TemporalConnectors.Lifecycle
open Transitions Function ConfigValues ConfigParsers RuntimeConfigs OrderedMaps TemporalIdentities

/-- The attempt of this call has come to a connection. -/
def Established {H : Type} (s : State H) (i c : Nat) : Prop :=
  c < s.attempted ∧ (s.attempts c).call = i ∧ (s.attempts c).status = .established

/-- The promise of the start is fulfilled. -/
def Phase.succeeded : Phase → Bool
  | .returned => true
  | .fulfilled _ => true
  | _ => false

/-- The connector holds nothing, says that it is not started, takes endpoints, and
    the next start does not succeed without a connection of its own. -/
structure Unstarted {H : Type} (t : CaseTables) (s : State H) : Prop where
  connection : s.connection = none
  client : s.client = none
  submits : ∀ endpointId messageId, submitEndpoint t s endpointId messageId = fails (notStarted s.connector.name)
  registers : ∀ endpointId registration handler, registrationOf t s.config s.connector endpointId = .ok registration →
    registration.handler = none → ∃ made, registerEndpoint t s.config s.connector endpointId handler = .ok made
  restarts : ∀ input u v, step t s (.start input) = some u → Steps (step t) OneAtATime u v →
    (v.calls s.count).phase.succeeded = true → ∃ c, Established v s.count c

section Laws
variable {H : Type} {t : CaseTables} {s u v : State H} {i c : Nat} {p : Phase}

/-- A call never becomes one that has returned at once. -/
def Goes (s u : State H) : Prop :=
  s.count ≤ u.count ∧ ∀ j < s.count, (s.calls j).phase ≠ .returned → (u.calls j).phase ≠ .returned

theorem goes_setPhase (s : State H) (i : Nat) {p : Phase} (other : p ≠ .returned) : Goes s (s.setPhase i p) := by
  constructor
  · exact le_rfl
  · intro j _ before
    rw [phase_setPhase]
    split
    · exact other
    · exact before

theorem goes_addCall (s : State H) (aborted : Bool) (p : Phase) : Goes s (s.addCall aborted p) := by
  constructor
  · exact Nat.le_succ _
  · intro j known before
    rw [phase_addCall, if_neg (by omega)]
    exact before

theorem goes_loop (s : State H) (i c position : Nat) : Goes s (loop t s i c position) := by
  obtain ⟨p, looped, same⟩ := loop_looped (t := t) s i c position
  rw [same]
  apply goes_setPhase
  cases looped <;> simp

theorem goes_take (s : State H) (i c : Nat) : Goes s (take t s i c) :=
  goes_loop { s with connection := some c, client := some c, connector := { s.connector with started := true } } i c 0

theorem start_goes (o : StartInput) : Goes s (start s o) := by
  unfold start
  split
  · exact goes_addCall s _ _
  · split
    · exact goes_addCall s _ _
    · split
      · exact goes_addCall s _ _
      · simp only
        split
        · exact goes_addCall s _ _
        · exact goes_addCall s _ _

theorem goes_same (count : u.count = s.count) (phases : ∀ j, (u.calls j).phase = (s.calls j).phase) : Goes s u := by
  constructor
  · exact Nat.le_of_eq count.symm
  · intro j _ before
    rw [phases]
    exact before

theorem resume_goes (next : resume t s i = some u) : Goes s u := by
  unfold resume at next
  split at next
  · cases next
    unfold connect
    simp only
    split
    · exact goes_setPhase s i (by simp)
    · exact goes_setPhase s i (by simp)
  · split at next
    · cases next
    · cases next
      exact goes_setPhase s i (by simp)
    · cases next
      exact goes_take s i _
  · cases next
    exact goes_loop s i _ _
  · cases next

theorem abort_goes (next : abort s i = some u) : Goes s u := by
  unfold abort at next
  split at next
  · cases next
  · have phases (j : Nat) : (update s.calls i { s.calls i with aborted := true } j).phase = (s.calls j).phase := by
      by_cases same : j = i
      · subst same
        simp
      · simp [same]
    simp only at next
    split at next
    · cases next
      constructor
      · exact le_rfl
      · intro j known before
        rw [phase_setPhase]
        split
        · simp
        · rw [phases]
          exact before
    · cases next
      exact goes_same rfl phases

theorem answerCreate_goes {answer : CreateAnswer} (next : answerCreate t s i answer = some u) : Goes s u := by
  unfold answerCreate at next
  split at next
  · split at next
    · cases next
      exact goes_loop s i _ _
    · cases next
      exact goes_setPhase s i (by simp)
    · split at next
      · cases next
        exact goes_setPhase s i (by simp)
      · cases next
        exact goes_setPhase s i (by simp)
  · cases next

theorem answerDescribe_goes {answer : Option Description} (next : answerDescribe t s i answer = some u) : Goes s u := by
  unfold answerDescribe at next
  split at next
  · split at next
    · cases next
      exact goes_setPhase s i (by simp)
    · split at next
      · cases next
        exact goes_setPhase s i (by simp)
      · cases next
        exact goes_loop s i _ _
  · cases next

theorem workersSettle_goes (next : workersSettle s i = some u) : Goes s u := by
  unfold workersSettle at next
  split at next
  · cases next
    exact goes_setPhase (s.closeAttempt _) i (by simp)
  · cases next
    unfold disconnect
    simp only
    split
    · exact goes_setPhase { s with connection := _, client := _, connector := _ } i (by simp)
    · exact goes_setPhase { s with connection := _, client := _, connector := _, attempts := _ } i (by simp)
  · cases next

theorem step_goes {a : Action H} (next : step t s a = some u) : Goes s u := by
  cases a with
  | registerEndpoint id handler =>
    cases next
    exact goes_same rfl fun _ => rfl
  | registerEndpointSubmission id =>
    cases next
    exact goes_same rfl fun _ => rfl
  | replaceConfig config =>
    cases next
    exact goes_same rfl fun _ => rfl
  | installElsewhere address =>
    simp only [step] at next
    split at next
    · cases next
    · cases next
      exact goes_same rfl fun _ => rfl
  | start input =>
    cases next
    exact start_goes input
  | stop aborted =>
    cases next
    exact goes_addCall s aborted .stopping
  | abort i => exact abort_goes next
  | fileRead i reads =>
    simp only [step, fileRead] at next
    split at next
    · cases next
      cases reads <;> exact goes_setPhase s i (by simp)
    · cases next
  | settleAttempt c establishes =>
    simp only [step, settleAttempt] at next
    split at next
    · cases next
      exact goes_same rfl fun _ => rfl
    · cases next
  | resume i => exact resume_goes next
  | answerCreate i answer => exact answerCreate_goes next
  | answerDescribe i answer => exact answerDescribe_goes next
  | workersSettle i => exact workersSettle_goes next
  | closeSettles i =>
    simp only [step, closeSettles] at next
    split at next
    · cases next
      exact goes_setPhase { s with connection := none, client := none } i (by simp)
    · cases next
      exact goes_setPhase s i (by simp)
    · cases next

theorem start_works (unstarted : s.connector.started = false) (o : StartInput) :
    ((start s o).calls s.count).phase ≠ .returned ∧ s.count < (start s o).count := by
  have added (u : State H) (same : u.count = s.count) (aborted : Bool) {p : Phase} (other : p ≠ .returned) :
      ((u.addCall aborted p).calls s.count).phase ≠ .returned ∧ s.count < (u.addCall aborted p).count := by
    rw [phase_addCall, if_pos same.symm]
    exact ⟨other, by simp [State.addCall, same]⟩
  unfold start
  rw [unstarted, if_neg (by simp)]
  split
  · exact added s rfl _ (by simp)
  · split
    · exact added s rfl _ (by simp)
    · simp only
      split
      · exact added { s with sdkRuntime := _ } rfl _ (by simp)
      · exact added { s with sdkRuntime := _ } rfl _ (by simp)

theorem established_of_succeeded (h : Sound s) (worked : (s.calls i).phase ≠ .returned)
    (succeeded : (s.calls i).phase.succeeded = true) : ∃ c, Established s i c := by
  cases phase : (s.calls i).phase with
  | returned => exact absurd phase worked
  | fulfilled c =>
    have taken : (s.calls i).phase.taken = some c := by rw [phase]; rfl
    obtain ⟨known, caller⟩ := h.linked.own i c (attempt_of_taken taken)
    exact ⟨c, known, caller, h.linked.taken i c taken⟩
  | _ =>
    rw [phase] at succeeded
    cases succeeded

theorem unstarted_of_flag (h : Sound s) (idle : s.Idle) (unstarted : s.connector.started = false) : Unstarted t s := by
  obtain ⟨connection, client⟩ := h.kept.unheld unstarted
  refine ⟨connection, client, ?_, ?_, ?_⟩
  · intro endpointId messageId
    simp [submitEndpoint, unstarted]
  · intro endpointId registration handler found free
    unfold registerEndpoint
    rw [unstarted, if_neg (by simp), found]
    exact ⟨_, by simp only [bind, Except.bind, free]; rfl⟩
  · intro input u v begins run succeeded
    have sound : Sound v :=
      steps_invariant Sound (fun _ _ _ held admitted next => step_sound held admitted next) run (step_sound (a := .start input) h idle begins)
    have works : (v.calls s.count).phase ≠ .returned ∧ s.count < v.count := by
      refine steps_invariant (fun w : State H => (w.calls s.count).phase ≠ .returned ∧ s.count < w.count) ?_ run ?_
      · rintro w a x ⟨worked, known⟩ _ next
        obtain ⟨more, kept⟩ := step_goes next
        exact ⟨kept s.count known worked, by omega⟩
      · cases begins
        exact start_works unstarted input
    exact established_of_succeeded sound works.1 succeeded

theorem flag_of_unstarted (h : Sound s) (unstarted : Unstarted t s) : s.connector.started = false := by
  cases flag : s.connector.started with
  | false => rfl
  | true =>
    let input : StartInput := ⟨false, 0, 0, none, true⟩
    have begins : step t s (.start input) = some (s.addCall false .returned) := by
      simp [step, start, flag, input]
    have succeeded : ((s.addCall false .returned).calls s.count).phase.succeeded = true := by
      rw [phase_addCall, if_pos rfl]
      rfl
    obtain ⟨c, known, caller, _⟩ := unstarted.restarts input _ _ begins (.refl _) succeeded
    have older := (h.linked.made c known).1
    have same : (s.attempts c).call = s.count := caller
    omega

end Laws

/- A start that has failed leaves the connector unstarted up to the next call, and what
   it connected closed, exactly if none of its attempts comes to a connection, or, once
   the next call is made, if it had taken the connection before it failed. -/
theorem failed_start_unstarted {H : Type} {t : CaseTables} {s : State H} {i : Nat} {stage : Stage} {error : Thrown}
    (reached : Reachable t s) (rejected : (s.calls i).phase = .rejected stage error) :
    ((s.count = i + 1 → Unstarted t s) ∧ ∀ c, Established s i c → 0 < (s.attempts c).closes) ↔
      ∀ c, Established s i c → s.count ≠ i + 1 ∧ stage.isEnsuring = true := by
  have sound := reachable_sound reached
  have idle (last : s.count = i + 1) : s.Idle := by
    intro j
    cases settled : (s.calls j).phase.settled with
    | true => rfl
    | false =>
      have same : j = i := by
        have := sound.kept.last j settled
        omega
      rw [same, rejected] at settled
      cases settled
  have flag (last : s.count = i + 1) : s.connector.started = stage.isEnsuring := sound.kept.failed i stage error last rejected
  have closes (c : Nat) (established : Established s i c) : 0 < (s.attempts c).closes ↔ stage.isEnsuring = true := by
    obtain ⟨known, caller, _⟩ := established
    have own := (sound.linked.made c known).2
    rw [caller, rejected] at own
    constructor
    · intro closed
      have taken := sound.linked.unclosed c known closed
      rw [caller, rejected] at taken
      cases stage <;> first | rfl | cases taken
    · intro ensuring
      apply sound.linked.closed i
      rw [rejected]
      cases stage <;> first | exact own | cases ensuring
  constructor
  · rintro ⟨unstarted, closed⟩ c established
    have ensuring := (closes c established).mp (closed c established)
    constructor
    · intro last
      have stopped := flag_of_unstarted sound (unstarted last)
      rw [flag last, ensuring] at stopped
      cases stopped
    · exact ensuring
  · intro condition
    constructor
    · intro last
      apply unstarted_of_flag sound (idle last)
      rw [flag last]
      cases stage with
      | ensuring c =>
        have taken : (s.calls i).phase.taken = some c := by rw [rejected]; rfl
        obtain ⟨known, caller⟩ := sound.linked.own i c (attempt_of_taken taken)
        exact absurd last (condition c ⟨known, caller, sound.linked.taken i c taken⟩).1
      | _ => rfl
    · intro c established
      exact (closes c established).mpr (condition c established).2

def hourlySettings : TemporalEndpoint :=
  { orderSettings with schedule := "0 * * * *", scheduleId := "orders-hourly" }

/-- A connector with one endpoint, which has a schedule. -/
def hourlyConfig : CanonicalConfig :=
  { orderConfig "" "" with
    endpoints := [{ id := 10, name := "Hourly", idDataConnector := 1, kind := .temporal hourlySettings }] }

def plainStart : StartInput := { aborted := false, workerStopTimeout := 0, shutdownTimeout := 1000, address := none, installs := true }

/-- The first call is a start; the other actions come after it. -/
def startedThen (actions : List (Action String)) : Option (State String) :=
  (make hourlyConfig).toOption.bind fun r => (makeConnector r 1).toOption.bind fun made =>
    exec (step asciiTables) (start { config := r, connector := made } plainStart) actions

def Action.calls {H : Type} : Action H → Bool
  | .start _ => true
  | .stop _ => true
  | _ => false

theorem startedThen_reachable {actions : List (Action String)} {s : State String} (ran : startedThen actions = some s)
    (single : actions.all (fun a => !a.calls) = true) : Reachable asciiTables s := by
  obtain ⟨r, _, rest⟩ := Option.bind_eq_some_iff.mp ran
  obtain ⟨made, makes, run⟩ := Option.bind_eq_some_iff.mp rest
  refine ⟨r, 1, made, none, ok_of_toOption makes, ?_⟩
  have first : Steps (step asciiTables) OneAtATime { config := r, connector := made } (start { config := r, connector := made } plainStart) :=
    steps_single (a := .start plainStart) (fun _ => rfl) rfl
  have admitted : ∀ s : State String, ∀ a ∈ actions, OneAtATime s a := by
    intro s a mem
    have other := List.all_eq_true.mp single a mem
    cases a with
    | start _ => cases other
    | stop _ => cases other
    | _ => exact trivial
  exact steps_trans first (exec_steps_of admitted run)

theorem failed_start_unstarted_refused : ∃ s : State String, Reachable asciiTables s ∧
    (s.calls 0).phase = .rejected (.connecting 0) none ∧ s.attempted = 1 ∧ Unstarted asciiTables s := by
  have runs : (startedThen [.resume 0, .settleAttempt 0 false, .resume 0]).map (fun s =>
      (((s.calls 0).phase, s.count), s.attempted, (s.attempts 0).status)) =
      some ((.rejected (.connecting 0) none, 1), 1, .failed) := by
    decide +kernel
  obtain ⟨s, ran, facts⟩ := Option.map_eq_some_iff.mp runs
  simp only [Prod.mk.injEq] at facts
  obtain ⟨⟨rejected, count⟩, attempted, status⟩ := facts
  have reached := startedThen_reachable ran rfl
  have clean := (failed_start_unstarted reached rejected).mpr ?_
  · exact ⟨s, reached, rejected, attempted, clean.1 count⟩
  · rintro c ⟨known, _, established⟩
    have only : c = 0 := by omega
    rw [only, status] at established
    cases established

/-- Over a schedule that cannot be made the flag stays; a connection that comes after
    its start was cancelled is not closed. -/
theorem failed_start_leftovers :
    (¬∀ s : State String, Reachable asciiTables s → ∀ stage error, (s.calls 0).phase = .rejected stage error →
      s.count = 1 → Unstarted asciiTables s) ∧
    ¬∀ s : State String, Reachable asciiTables s → ∀ stage error, (s.calls 0).phase = .rejected stage error →
      ∀ c, Established s 0 c → 0 < (s.attempts c).closes := by
  constructor
  · intro all
    have runs : (startedThen [.registerEndpoint 10 "handler", .resume 0, .settleAttempt 0 true, .resume 0,
        .answerCreate 0 .fails, .workersSettle 0, .closeSettles 0]).map (fun s =>
          ((s.calls 0).phase, s.count, s.connector.started)) = some (.rejected (.ensuring 0) none, 1, true) := by
      decide +kernel
    obtain ⟨s, ran, facts⟩ := Option.map_eq_some_iff.mp runs
    simp only [Prod.mk.injEq] at facts
    obtain ⟨rejected, count, flag⟩ := facts
    have reached := startedThen_reachable ran rfl
    have stopped := flag_of_unstarted (reachable_sound reached) (all s reached _ _ rejected count)
    rw [flag] at stopped
    cases stopped
  · intro all
    have runs : (startedThen [.resume 0, .abort 0, .settleAttempt 0 true]).map (fun s =>
        ((s.calls 0).phase, s.attempted, s.attempts 0)) =
        some (.rejected (.cancelled (some 0)) none, 1, ⟨0, .established, 0⟩) := by
      decide +kernel
    obtain ⟨s, ran, facts⟩ := Option.map_eq_some_iff.mp runs
    simp only [Prod.mk.injEq] at facts
    obtain ⟨rejected, attempted, attempt⟩ := facts
    have closed := all s (startedThen_reachable ran rfl) _ _ rejected 0
      ⟨by omega, by rw [attempt], by rw [attempt]⟩
    rw [attempt] at closed
    exact absurd closed (Nat.lt_irrefl 0)

end TemporalConnectors.Lifecycle
