import TsServiceLib.Source.IntervalSchedule

/-!
A local cron endpoint: its triggers, which are wake-ups of the interval timer or
callbacks of a cron job, and the dispatches they start. The flag `running` is
set when a dispatch begins and cleared when any dispatch finishes, so under the
policy Skip it speaks for all of them only as long as none has finished since
the last one began.
-/
namespace CronEndpoints
open Numbers Transitions IntervalSchedules

inductive OverlapPolicy where
  | Allow
  | Skip
  deriving DecidableEq

structure CronConfig where
  overlapPolicy : OverlapPolicy
  missedRunPolicy : MissedRunPolicy
  deriving DecidableEq

/-- How far a dispatch comes before it first awaits: it may throw before its
    `try`, when the request is started, or inside, when the trigger is made. -/
inductive Prelude where
  | setupThrows
  | triggerThrows
  | consumes
  deriving DecidableEq

inductive Phase where
  | consuming
  | settled
  deriving DecidableEq

inductive Event where
  | began (dispatch : Nat)
  | finished (dispatch : Nat)
  deriving DecidableEq

/-- `config` is what `cronConfig` gives, or `none` where it throws. `history` is
    newest first. -/
structure Endpoint where
  config : Option CronConfig
  interval : Option Interval := none
  running : Bool := false
  active : List Nat := []
  phase : Nat → Phase := fun _ => .settled
  dispatches : Nat := 0
  history : List Event := []

section Operations
variable (s : Endpoint)

/-- A new execution, which stays in `#active` until its promise has been seen to settle. -/
def enter (phase : Phase) (events : List Event) (running : Bool) : Endpoint :=
  { s with
    running
    active := s.active ++ [s.dispatches]
    phase := Function.update s.phase s.dispatches phase
    dispatches := s.dispatches + 1
    history := events ++ s.history }

/-- `#startDispatch`, with `#dispatch` up to its first `await`. -/
def startDispatch (prelude : Prelude) : Endpoint :=
  match s.config with
  | none => enter s .settled [] s.running
  | some config =>
    if s.running = true ∧ config.overlapPolicy = .Skip then enter s .settled [] s.running
    else
      match prelude with
      | .setupThrows => enter s .settled [.began s.dispatches] true
      | .triggerThrows => enter s .settled [.finished s.dispatches, .began s.dispatches] false
      | .consumes => enter s .consuming [.began s.dispatches] true

/-- The consumer has returned or thrown: the `finally` of `#dispatch`. -/
def consumed (dispatch : Nat) : Option Endpoint :=
  if dispatch < s.dispatches ∧ s.phase dispatch = .consuming then
    some { s with
      running := false
      phase := Function.update s.phase dispatch .settled
      history := .finished dispatch :: s.history }
  else none

def release (dispatch : Nat) : Option Endpoint :=
  if dispatch ∈ s.active ∧ s.phase dispatch = .settled then some { s with active := s.active.erase dispatch } else none

/-- A wake-up of the interval timer, which reads the missed-run policy then in force. -/
def wake (now later : Instant) (cancelled : Bool) (remainingMs : Option Number) (prelude : Prelude) : Option Endpoint :=
  match s.interval with
  | none => none
  | some interval =>
    if interval.timer.isSome then
      let woken := fire interval ⟨now, later, cancelled, remainingMs, s.config.map CronConfig.missedRunPolicy⟩
      let moved := { s with interval := some woken }
      match woken.history with
      | (_, some fired) :: _ => if fired.dispatched then some (startDispatch moved prelude) else some moved
      | _ => some moved
    else none

/-- The callback of the cron job; `missed` is whether the next occurrence has passed already. -/
def job (missed cancelled : Bool) (prelude : Prelude) : Option Endpoint :=
  match s.interval, s.config with
  | none, some config =>
    if config.missedRunPolicy = .Skip ∧ missed = true then some s
    else if cancelled then some s
    else some (startDispatch s prelude)
  | none, none => some s
  | some _, _ => none

end Operations

inductive Action where
  | reload (config : Option CronConfig)
  | wake (now later : Instant) (cancelled : Bool) (remainingMs : Option Number) (prelude : Prelude)
  | job (missed cancelled : Bool) (prelude : Prelude)
  | consumed (dispatch : Nat)
  | release (dispatch : Nat)

def step (s : Endpoint) : Action → Option Endpoint
  | .reload config => some { s with config }
  | .wake now later cancelled remainingMs prelude => wake s now later cancelled remainingMs prelude
  | .job missed cancelled prelude => job s missed cancelled prelude
  | .consumed dispatch => consumed s dispatch
  | .release dispatch => release s dispatch

/-- An endpoint that has been started, with an interval or with a cron job. -/
def Reachable (s : Endpoint) : Prop :=
  ∃ config interval, Steps step Any { config := some config, interval } s

section Overlap
variable {s t : Endpoint}

/-- The dispatches that have begun and have not finished. -/
def Endpoint.unfinished (s : Endpoint) : List Nat :=
  (List.range s.dispatches).filter fun dispatch => s.phase dispatch = .consuming

def Endpoint.skips (s : Endpoint) : Prop := s.config.map CronConfig.overlapPolicy = some .Skip

/-- A dispatch has finished, and none has begun since. -/
def finishedLast : List Event → Bool
  | .finished _ :: _ => true
  | _ => false

/-- What the flag says: that a dispatch began and none has finished since. -/
def Flagged (s : Endpoint) : Prop :=
  s.running = true ↔ s.history ≠ [] ∧ finishedLast s.history = false

theorem startDispatch_flagged (flagged : Flagged s) (prelude : Prelude) : Flagged (startDispatch s prelude) := by
  unfold startDispatch
  split
  · exact flagged
  · split
    · exact flagged
    · split <;> simp [Flagged, enter, finishedLast]

theorem wake_cases {now later : Instant} {cancelled : Bool} {remainingMs : Option Number} {prelude : Prelude}
    (next : wake s now later cancelled remainingMs prelude = some t) :
    ∃ interval, t = { s with interval } ∨ t = startDispatch { s with interval } prelude := by
  unfold wake at next
  split at next
  · cases next
  · split at next
    · dsimp only at next
      split at next
      · split at next
        · cases next
          exact ⟨_, .inr rfl⟩
        · cases next
          exact ⟨_, .inl rfl⟩
      · cases next
        exact ⟨_, .inl rfl⟩
    · cases next

theorem job_cases {missed cancelled : Bool} {prelude : Prelude} (next : job s missed cancelled prelude = some t) :
    t = s ∨ t = startDispatch s prelude := by
  unfold job at next
  split at next
  · split at next
    · cases next
      exact .inl rfl
    · split at next
      · cases next
        exact .inl rfl
      · cases next
        exact .inr rfl
  · cases next
    exact .inl rfl
  · cases next

theorem step_flagged {a : Action} (flagged : Flagged s) (next : step s a = some t) : Flagged t := by
  cases a with
  | reload config =>
    cases next
    exact flagged
  | wake now later cancelled remainingMs prelude =>
    obtain ⟨interval, rfl | rfl⟩ := wake_cases next
    · exact flagged
    · exact startDispatch_flagged (s := { s with interval }) flagged prelude
  | job missed cancelled prelude =>
    rcases job_cases next with rfl | rfl
    · exact flagged
    · exact startDispatch_flagged flagged prelude
  | consumed dispatch =>
    simp only [step, consumed] at next
    split at next
    · cases next
      simp [Flagged, finishedLast]
    · cases next
  | release dispatch =>
    simp only [step, release] at next
    split at next
    · cases next
      exact flagged
    · cases next

theorem reachable_flagged (reach : Reachable s) : Flagged s := by
  obtain ⟨config, interval, run⟩ := reach
  refine steps_invariant Flagged (fun _ _ _ flagged _ next => step_flagged flagged next) run ?_
  simp [Flagged]

/-- The dispatches that were ever started, newest first. -/
def Endpoint.begun (s : Endpoint) : List Nat :=
  s.history.filterMap fun event =>
    match event with
    | .began dispatch => some dispatch
    | .finished _ => none

/-- A dispatch that consumes has its beginning in the history. -/
def Recorded (s : Endpoint) : Prop :=
  ∀ dispatch, s.phase dispatch = .consuming → .began dispatch ∈ s.history

theorem enter_recorded {phase : Phase} {events : List Event} {running : Bool} (recorded : Recorded s)
    (began : phase = .consuming → .began s.dispatches ∈ events) : Recorded (enter s phase events running) := by
  intro dispatch consuming
  simp only [enter, List.mem_append] at consuming ⊢
  by_cases new : dispatch = s.dispatches
  · subst new
    rw [Function.update_self] at consuming
    exact .inl (began consuming)
  · rw [Function.update_of_ne new] at consuming
    exact .inr (recorded dispatch consuming)

theorem startDispatch_recorded (recorded : Recorded s) (prelude : Prelude) : Recorded (startDispatch s prelude) := by
  unfold startDispatch
  split
  · exact enter_recorded recorded (by simp)
  · split
    · exact enter_recorded recorded (by simp)
    · split <;> exact enter_recorded recorded (by simp)

theorem step_recorded {a : Action} (recorded : Recorded s) (next : step s a = some t) : Recorded t := by
  cases a with
  | reload config =>
    cases next
    exact recorded
  | wake now later cancelled remainingMs prelude =>
    obtain ⟨interval, rfl | rfl⟩ := wake_cases next
    · exact recorded
    · exact startDispatch_recorded (s := { s with interval }) recorded prelude
  | job missed cancelled prelude =>
    rcases job_cases next with rfl | rfl
    · exact recorded
    · exact startDispatch_recorded recorded prelude
  | consumed ended =>
    simp only [step, consumed] at next
    split at next
    · cases next
      intro dispatch consuming
      by_cases same : dispatch = ended
      · simp [same] at consuming
      · simp only [Function.update_of_ne same] at consuming
        exact List.mem_cons_of_mem _ (recorded dispatch consuming)
    · cases next
  | release dispatch =>
    simp only [step, release] at next
    split at next
    · cases next
      exact recorded
    · cases next

theorem reachable_recorded (reach : Reachable s) : Recorded s := by
  obtain ⟨config, interval, run⟩ := reach
  refine steps_invariant Recorded (fun _ _ _ recorded _ next => step_recorded recorded next) run ?_
  simp [Recorded]

/-- While a dispatch is unfinished, the flag is set unless another has finished last. -/
theorem running_iff_of_unfinished (reach : Reachable s) (overlap : s.unfinished ≠ []) :
    s.running = true ↔ finishedLast s.history = false := by
  obtain ⟨dispatch, member⟩ := List.exists_mem_of_ne_nil _ overlap
  simp only [Endpoint.unfinished, List.mem_filter, List.mem_range, decide_eq_true_eq] at member
  have began := reachable_recorded reach dispatch member.2
  have nonempty : s.history ≠ [] := List.ne_nil_of_mem began
  have flagged : Flagged s := reachable_flagged reach
  unfold Flagged at flagged
  rw [flagged]
  simp only [nonempty, ne_eq, not_false_eq_true, true_and]

theorem skips_config (skips : s.skips) : ∃ config, s.config = some config ∧ config.overlapPolicy = .Skip := by
  simpa [Endpoint.skips] using skips

/-- Under Skip a trigger begins a dispatch exactly if the flag is not set. -/
theorem startDispatch_begun_iff (skips : s.skips) (prelude : Prelude) :
    (startDispatch s prelude).begun = s.begun ↔ s.running = true := by
  obtain ⟨config, known, skip⟩ := skips_config skips
  constructor
  · intro same
    by_contra idle
    have grown := congrArg List.length same
    unfold startDispatch at grown
    rw [known] at grown
    simp only [idle, false_and, if_false] at grown
    cases prelude <;> simp [enter, Endpoint.begun] at grown
  · intro running
    unfold startDispatch
    rw [known]
    simp [running, skip, enter, Endpoint.begun]

theorem step_begun {a : Action} (skips : s.skips) (running : s.running = true) (next : step s a = some t) :
    t.begun = s.begun := by
  cases a with
  | reload config =>
    cases next
    rfl
  | wake now later cancelled remainingMs prelude =>
    obtain ⟨interval, rfl | rfl⟩ := wake_cases next
    · rfl
    · exact (startDispatch_begun_iff (s := { s with interval }) skips prelude).2 running
  | job missed cancelled prelude =>
    rcases job_cases next with rfl | rfl
    · rfl
    · exact (startDispatch_begun_iff skips prelude).2 running
  | consumed dispatch =>
    simp only [step, consumed] at next
    split at next
    · cases next
      rfl
    · cases next
  | release dispatch =>
    simp only [step, release] at next
    split at next
    · cases next
      rfl
    · cases next

/- In every reachable state with an unfinished dispatch and the policy Skip in
   force, a trigger that is handled starts no dispatch if and only if no dispatch
   has finished since the last one began; and then no step starts one. -/
theorem overlap_skipped_iff (reach : Reachable s) (skips : s.skips) (overlap : s.unfinished ≠ []) :
    (∀ prelude, (startDispatch s prelude).begun = s.begun ↔ finishedLast s.history = false) ∧
      (finishedLast s.history = false → ∀ a t, step s a = some t → t.begun = s.begun) := by
  have flag := running_iff_of_unfinished reach overlap
  constructor
  · intro prelude
    rw [startDispatch_begun_iff skips prelude, flag]
  · intro none_finished a t next
    exact step_begun skips (flag.2 none_finished) next

/-- Two dispatches under Allow, of which the first finishes; then Skip comes into force. -/
def overlapRun : List Action :=
  [.job false false .consumes, .job false false .consumes, .consumed 0, .reload (some ⟨.Skip, .FireOnce⟩)]

def allowing : Endpoint := { config := some ⟨.Allow, .FireOnce⟩ }

theorem overlapRun_reaches : ∃ s, Reachable s ∧ s.skips ∧ s.unfinished ≠ [] ∧ finishedLast s.history = true := by
  have evaluated : ((exec step allowing overlapRun).any fun s =>
      decide (s.config.map CronConfig.overlapPolicy = some .Skip ∧ s.unfinished ≠ [] ∧
        finishedLast s.history = true)) = true := by
    decide +kernel
  simp only [Option.any_eq_true, decide_eq_true_eq] at evaluated
  obtain ⟨s, reached, skips, overlap, last⟩ := evaluated
  exact ⟨s, ⟨_, none, exec_steps reached⟩, skips, overlap, last⟩

theorem overlap_started : ∃ s, Reachable s ∧ s.skips ∧ s.unfinished ≠ [] ∧
    (startDispatch s .consumes).begun ≠ s.begun := by
  obtain ⟨s, reach, skips, overlap, last⟩ := overlapRun_reaches
  refine ⟨s, reach, skips, overlap, ?_⟩
  intro same
  have flag := running_iff_of_unfinished reach overlap
  rw [(startDispatch_begun_iff skips .consumes).1 same, last] at flag
  simp at flag

theorem overlap_skipped_iff_held : ∃ s, Reachable s ∧ s.skips ∧ s.unfinished ≠ [] ∧
    (startDispatch s .consumes).begun = s.begun := by
  have evaluated : ((exec step allowing [.job false false .consumes, .reload (some ⟨.Skip, .FireOnce⟩)]).any fun s =>
      decide (s.config.map CronConfig.overlapPolicy = some .Skip ∧ s.unfinished ≠ [] ∧
        finishedLast s.history = false)) = true := by
    decide +kernel
  simp only [Option.any_eq_true, decide_eq_true_eq] at evaluated
  obtain ⟨s, reached, skips, overlap, last⟩ := evaluated
  have reach : Reachable s := ⟨_, none, exec_steps reached⟩
  exact ⟨s, reach, skips, overlap, ((overlap_skipped_iff reach skips overlap).1 .consumes).2 last⟩

end Overlap

end CronEndpoints
