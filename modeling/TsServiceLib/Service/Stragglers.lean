import TsServiceLib.Service.RuntimeRuns

/-!
The tasks of a service that is stopped. A drain sees the registry empty in one
step and seals admission in a later one; a task that is admitted in between
runs while the sinks are being stopped. Here the runs are followed in which
nothing is admitted in that gap: in them no task is left behind.
-/
namespace Services
namespace Runtime
open Transitions

/-- No task runs and none can be admitted. -/
def Idle (r : Runtime) : Prop :=
  r.tasks.accepting = false ∧ r.tasks.active = [] ∧ r.tasks.entering = []

/-- An attempt has seen the registry empty and has not sealed it yet. -/
def Gap (r : Runtime) : Prop :=
  r.tasks.accepting = true ∧
    ∃ k graceful, k < r.attempts ∧ (r.attempt k).state = .draining graceful .empty

/-- There is nothing to wait for: `stop` returns at once. -/
def NothingToStop (r : Runtime) : Prop :=
  r.startupPending = false ∧ r.ledger.started = [] ∧ r.tasks.active = []

/-- No task is admitted in the gap of a drain, and `stop` does not return at
    once to a task that is calling it while it is being admitted. -/
def Careful (r : Runtime) : Action → Prop
  | .admitTask => ¬Gap r
  | .stop _ => NothingToStop r → r.tasks.entering = []
  | _ => True

def TasksOk (r : Runtime) : AttemptState → Prop
  | .draining _ .empty => r.tasks.active = [] ∧ r.tasks.entering = []
  | .group .sinks _ | .group .connectors _ | .telemetry _ | .fulfilled => Idle r
  | _ => True

structure Watched (r : Runtime) : Prop where
  closed : r.tasks.accepting = false → r.tasks.entering = []
  failed : r.startFailed = true → r.tasks.accepting = false
  begun : r.sinksBegun = true → Idle r
  attempts : ∀ k, k < r.attempts → TasksOk r (r.attempt k).state
  calls : ∀ n, n < r.calls → (r.call n).status = .fulfilled → Idle r
  accounted : ∀ task, 0 < task → task < r.tasks.nextId →
    task ∈ r.tasks.settled ∨ task ∈ r.tasks.active ∨ task ∈ r.tasks.entering

/-- The tasks are left alone or, with none being admitted, sealed. -/
def Steady (r r' : Runtime) : Prop :=
  r'.tasks = r.tasks ∨ (r'.tasks = r.sealed.tasks ∧ r.tasks.entering = [])

section Watching
variable {r r' : Runtime} {k : Nat}

theorem idle_steady (steady : Steady r r') (idle : Idle r) : Idle r' := by
  rcases steady with same | ⟨closed, _⟩
  · rw [Idle, same]
    exact idle
  · rw [Idle, closed]
    exact ⟨rfl, idle.2⟩

theorem tasksOk_steady (steady : Steady r r') {s : AttemptState} (ok : TasksOk r s) : TasksOk r' s := by
  have empty : r.tasks.active = [] ∧ r.tasks.entering = [] → r'.tasks.active = [] ∧ r'.tasks.entering = [] := by
    intro before
    rcases steady with same | ⟨closed, _⟩
    · rw [same]
      exact before
    · rw [closed]
      exact before
  unfold TasksOk at *
  split <;> first | exact empty ok | exact idle_steady steady ok | trivial

theorem watched_step (watched : Watched r) (steady : Steady r r')
    (attempts : ∀ k, k < r'.attempts → (k < r.attempts ∧ (r'.attempt k).state = (r.attempt k).state) ∨
      TasksOk r' (r'.attempt k).state)
    (calls : ∀ n, n < r'.calls → (r'.call n).status = .fulfilled →
      (n < r.calls ∧ (r.call n).status = .fulfilled) ∨ Idle r')
    (begun : r'.sinksBegun = true → r.sinksBegun = true ∨ Idle r')
    (failed : r'.startFailed = true → r.startFailed = true ∨ r'.tasks.accepting = false) : Watched r' where
  closed := by
    rcases steady with same | ⟨closed, none_entering⟩
    · rw [same]
      exact watched.closed
    · rw [closed]
      exact fun _ => none_entering
  failed := by
    intro startFailed
    rcases failed startFailed with before | now
    · have accepting := watched.failed before
      rcases steady with same | ⟨closed, _⟩
      · rw [same]
        exact accepting
      · rw [closed]
        rfl
    · exact now
  begun := by
    intro sinks
    rcases begun sinks with before | now
    · exact idle_steady steady (watched.begun before)
    · exact now
  attempts := by
    intro k inside
    rcases attempts k inside with ⟨older, same⟩ | now
    · rw [same]
      exact tasksOk_steady steady (watched.attempts k older)
    · exact now
  calls := by
    intro n inside fulfilled
    rcases calls n inside fulfilled with ⟨older, before⟩ | now
    · exact idle_steady steady (watched.calls n older before)
    · exact now
  accounted := by
    rcases steady with same | ⟨closed, _⟩
    · rw [same]
      exact watched.accounted
    · rw [closed]
      exact watched.accounted

/-- What an attempt does: it moves to a rest with what that rest knows, and
    the other attempts and the calls stay as they are. -/
structure Moves (k : Nat) (r r' : Runtime) : Prop where
  steady : Steady r r'
  others : ∀ i, i ≠ k → r'.attempt i = r.attempt i
  own : TasksOk r' (r'.attempt k).state
  begun : r'.sinksBegun = true → r.sinksBegun = true ∨ Idle r'
  rest : r'.waiters = r.waiters ∧ r'.startFailed = r.startFailed

theorem moves_watched (watched : Watched r) (moves : Moves k r r') : Watched r' := by
  obtain ⟨attempts, call, calls, _⟩ : r'.attempts = r.attempts ∧ r'.call = r.call ∧
      r'.calls = r.calls ∧ r'.stopPromise = r.stopPromise := by
    simpa [Runtime.waiters] using moves.rest.1
  apply watched_step watched moves.steady
  · intro i inside
    rcases eq_or_ne i k with same | other
    · right
      rw [same]
      exact moves.own
    · left
      rw [moves.others i other]
      exact ⟨attempts ▸ inside, rfl⟩
  · intro n inside fulfilled
    rw [calls] at inside
    rw [call] at fulfilled
    exact .inl ⟨inside, fulfilled⟩
  · exact moves.begun
  · intro failed
    exact .inl (moves.rest.2 ▸ failed)

theorem setAttempt_moves {s : AttemptState} (own : TasksOk r s) : Moves k r (r.setAttempt k s) where
  steady := .inl rfl
  others i other := setAttempt_other r s other
  own := by
    rw [setAttempt_own]
    exact own
  begun sinks := .inl sinks
  rest := ⟨rfl, rfl⟩

/-- An attempt that fails at a drain or at the startup seals admission. -/
theorem sealed_moves (none_entering : r.tasks.entering = []) {s : AttemptState} (own : TasksOk r.sealed s) :
    Moves k r (r.sealed.setAttempt k s) where
  steady := .inr ⟨rfl, none_entering⟩
  others i other := setAttempt_other r.sealed s other
  own := by
    rw [setAttempt_own]
    exact own
  begun sinks := .inl sinks
  rest := ⟨rfl, rfl⟩

theorem enterGroup_moves {phase : StopPhase} (late : phase = .sinks ∨ phase = .connectors → Idle r) :
    Moves k r (r.enterGroup k phase) where
  steady := .inl rfl
  others i other := setAttempt_other r _ other
  own := by
    simp only [enterGroup, setAttempt_own]
    cases phase with
    | sinks => exact late (.inl rfl)
    | connectors => exact late (.inr rfl)
    | admission | producers | managed | resources => trivial
  begun sinks := by
    simp only [enterGroup, Bool.or_eq_true, decide_eq_true_eq] at sinks
    rcases sinks with before | now
    · exact .inl before
    · exact .inr (late (.inl now))
  rest := ⟨rfl, rfl⟩

theorem afterDrain_moves (empty : r.tasks.active = []) (none_entering : r.tasks.entering = [])
    (graceful : Bool) : Moves k r (r.afterDrain k graceful) := by
  have idle : Idle r.sealed := ⟨rfl, empty, none_entering⟩
  cases graceful with
  | true =>
    have moves : Moves k { r.sealed with drained := true }
        ({ r.sealed with drained := true }.enterGroup k .sinks) := enterGroup_moves fun _ => idle
    exact { moves with steady := .inr ⟨rfl, none_entering⟩ }
  | false =>
    have moves : Moves k r (r.sealed.setAttempt k .fulfilled) := sealed_moves none_entering idle
    exact { moves with }

theorem drainTasks_moves (none_entering : r.tasks.entering = []) (graceful : Bool) :
    Moves k r (r.drainTasks k graceful) := by
  unfold drainTasks
  split
  · rename_i empty
    exact afterDrain_moves empty none_entering graceful
  · exact setAttempt_moves trivial

theorem enterTelemetry_moves (idle : Idle r) : Moves k r (r.enterTelemetry k) := by
  have moves : Moves k r (r.setAttempt k (.telemetry (beginSequence r.ledger (r.contextOf k)
      (r.startedOf isTelemetry).reverse).1)) := setAttempt_moves idle
  exact { moves with }

theorem afterGroup_moves {phase : StopPhase} {members : List (Nat × Ref)}
    (ok : TasksOk r (.group phase members)) (none_entering : r.tasks.entering = []) :
    Moves k r (r.afterGroup k phase) := by
  cases phase with
  | admission => exact enterGroup_moves (by simp)
  | producers => exact enterGroup_moves (by simp)
  | managed => exact enterGroup_moves (by simp)
  | resources => exact drainTasks_moves none_entering true
  | sinks => exact enterGroup_moves fun _ => ok
  | connectors => exact enterTelemetry_moves ok

theorem afterStartup_moves (r : Runtime) (k : Nat) : Moves k r (r.afterStartup k) := by
  unfold afterStartup
  split
  · have moves : Moves k r (r.setAttempt k (.rolling (beginSequence r.ledger (r.contextOf k)
        r.ledger.started.reverse).1)) := setAttempt_moves trivial
    exact { moves with }
  · exact enterGroup_moves (by simp)

theorem stopOnce_moves (r : Runtime) (k : Nat) : Moves k r (r.stopOnce k) := by
  unfold stopOnce
  split
  · have moves : Moves k r (r.setAttempt k .awaitingStartup) := setAttempt_moves trivial
    exact { moves with }
  · have moves := afterStartup_moves { r with state := .stopping } k
    exact { moves with }

theorem resumeAttempt_moves (watched : Watched r) (none_entering : r.tasks.entering = [])
    {seen : List Bool} (resumed : r.resumeAttempt k seen = some r') : Moves k r r' := by
  unfold resumeAttempt at resumed
  split at resumed
  · rename_i inside
    have ok := watched.attempts k inside
    split at resumed
    · split at resumed
      · split at resumed
        · cases resumed
          exact afterStartup_moves r k
        · cases resumed
          exact afterStartup_moves r k
        · cases resumed
      · split at resumed
        · cases resumed
          exact sealed_moves none_entering trivial
        · cases resumed
    · split at resumed
      · cases resumed
      · cases resumed
        exact setAttempt_moves trivial
      · cases resumed
        have moves := drainTasks_moves (k := k) (r := { r with rollbackPending := false }) none_entering false
        exact { moves with }
      · rename_i sequence ledger _
        cases resumed
        have moves : Moves k r (r.setAttempt k (.rolling sequence)) := setAttempt_moves trivial
        exact { moves with }
    · rename_i phase members state
      rw [state] at ok
      unfold resumeGroup at resumed
      split at resumed
      · split at resumed
        · cases resumed
          exact afterGroup_moves ok none_entering
        · cases resumed
          exact setAttempt_moves trivial
      · cases resumed
    · rename_i graceful drain state
      rw [state] at ok
      split at resumed
      · split at resumed
        · cases resumed
        · cases resumed
          exact afterDrain_moves ok.1 ok.2 graceful
        · cases resumed
          exact sealed_moves none_entering trivial
      · split at resumed
        · cases resumed
          exact sealed_moves none_entering trivial
        · cases resumed
    · rename_i state
      rw [state] at ok
      split at resumed
      · cases resumed
      · cases resumed
        exact setAttempt_moves trivial
      · cases resumed
        have moves : Moves k r (r.setAttempt k .fulfilled) := setAttempt_moves ok
        exact { moves with }
      · rename_i sequence ledger _
        cases resumed
        have moves : Moves k r (r.setAttempt k (.telemetry sequence)) := setAttempt_moves ok
        exact { moves with }
    · cases resumed
    · cases resumed
  · cases resumed

theorem poll_moves (none_entering : r.tasks.entering = []) (polled : r.poll k = some r') : Moves k r r' := by
  unfold poll at polled
  split at polled
  · split at polled
    · split at polled
      · cases polled
        apply setAttempt_moves
        split
        · rename_i empty
          exact ⟨empty, none_entering⟩
        · trivial
      · cases polled
    · cases polled
  · cases polled

theorem drainTimeout_moves (fired : r.drainTimeout k = some r') : Moves k r r' := by
  unfold drainTimeout at fired
  split at fired
  · split at fired
    · cases fired
      exact setAttempt_moves trivial
    · cases fired
  · cases fired

end Watching

section Calls
variable {r r' : Runtime} {m n context : Nat}

theorem setCall_watched (watched : Watched r) (counted : ∀ i, i < m → i ≠ n → i < r.calls) {call : Call}
    (ok : call.status = .fulfilled → Idle r) : Watched ({ r with calls := m }.setCall n call) := by
  apply watched_step watched
  · exact .inl rfl
  · exact fun k inside => .inl ⟨inside, rfl⟩
  · intro i inside fulfilled
    rcases eq_or_ne i n with same | other
    · subst same
      simp only [setCall, Function.update_self] at fulfilled
      exact .inr (ok fulfilled)
    · simp only [setCall, Function.update_of_ne other] at fulfilled
      exact .inl ⟨counted i inside other, fulfilled⟩
  · exact .inl
  · exact .inl

theorem openAttempt_watched (watched : Watched r) : Watched (r.openAttempt context) := by
  refine moves_watched ?_ (stopOnce_moves _ r.attempts)
  apply watched_step watched
  · exact .inl rfl
  · intro k inside
    rcases eq_or_ne k r.attempts with same | other
    · right
      subst same
      simp only [Function.update_self]
      trivial
    · left
      have older : k < r.attempts := Nat.lt_of_le_of_ne (Nat.le_of_lt_succ inside) other
      simp only [Function.update_of_ne other]
      exact ⟨older, trivial⟩
  · exact fun i inside fulfilled => .inl ⟨inside, fulfilled⟩
  · exact .inl
  · exact .inl

theorem ownCall_watched (watched : Watched r) (counted : ∀ i, i < m → i ≠ n → i < r.calls) (k : Nat) :
    Watched (({ r with calls := m }.openAttempt context).setCall n ⟨context, k, true, .waiting⟩) := by
  rw [openAttempt_calls]
  apply setCall_watched (openAttempt_watched watched)
  · rw [(openAttempt_attempts r context).2]
    exact counted
  · intro fulfilled
    cases fulfilled

theorem joinAttempt_watched (watched : Watched r) (counted : ∀ i, i < m → i ≠ n → i < r.calls) :
    Watched ({ r with calls := m }.joinAttempt n context) := by
  unfold joinAttempt
  split
  · have owned : Watched (({ r with calls := m }.openAttempt context).setCall n ⟨context, r.attempts, true, .waiting⟩) :=
      ownCall_watched watched counted r.attempts
    exact { owned with }
  · exact setCall_watched watched counted (fun fulfilled => by cases fulfilled)

theorem stop_watched (watched : Watched r) (careful : Careful r (.stop context)) :
    Watched (r.stop context) := by
  have counted : ∀ i, i < r.calls + 1 → i ≠ r.calls → i < r.calls := by
    intro i inside other
    omega
  unfold stop
  dsimp only
  split
  · rename_i nothing
    have none_entering := careful nothing
    have closed : Watched { r.sealed with state := .stopped } :=
      watched_step watched (.inr ⟨rfl, none_entering⟩) (fun _ inside => .inl ⟨inside, rfl⟩)
        (fun _ inside fulfilled => .inl ⟨inside, fulfilled⟩) .inl .inl
    exact setCall_watched closed counted fun _ => ⟨rfl, nothing.2.2, none_entering⟩
  · exact joinAttempt_watched watched counted

theorem stopFromListener_watched (watched : Watched r) {joined : Option Nat}
    (called : r.stopFromListener context joined = some r') : Watched r' := by
  have counted : ∀ i, i < r.calls + 1 → i ≠ r.calls → i < r.calls := by
    intro i inside other
    omega
  unfold stopFromListener at called
  split at called
  · cases called
    exact ownCall_watched watched counted r.attempts
  · split at called
    · cases called
      exact setCall_watched watched counted (fun fulfilled => by cases fulfilled)
    · cases called
  · cases called

theorem resumeCall_watched (watched : Watched r) (governed : Governed r) (none_entering : r.tasks.entering = [])
    {seen : Bool} (resumed : r.resumeCall n seen = some r') : Watched r' := by
  have counted : ∀ i, i < r.calls → i ≠ n → i < r.calls := fun _ inside _ => inside
  have closed : Watched r.sealed :=
    watched_step watched (.inr ⟨rfl, none_entering⟩) (fun _ inside => .inl ⟨inside, rfl⟩)
      (fun _ inside fulfilled => .inl ⟨inside, fulfilled⟩) .inl .inl
  have rejected : Watched (r.sealed.setCall n { r.call n with status := .rejected }) :=
    setCall_watched (r := r.sealed) closed counted (fun fulfilled => by cases fulfilled)
  unfold resumeCall at resumed
  dsimp only at resumed
  split at resumed
  · rename_i waiting
    split at resumed
    · split at resumed
      · cases resumed
      · split at resumed
        · cases resumed
        · rename_i settled
          cases resumed
          have inside := governed.calls n waiting.1
          unfold CallOk at inside
          rw [waiting.2] at inside
          have ok := watched.attempts (r.call n).attempt inside
          unfold attemptSettled at settled
          split at settled
          · rename_i fulfilled
            rw [fulfilled] at ok
            exact setCall_watched (r := r) watched counted fun _ => ok
          · cases settled
          · cases settled
        · split at resumed
          · cases resumed
            exact rejected
          · cases resumed
            exact joinAttempt_watched (r := r) watched counted
    · split at resumed
      · cases resumed
        exact rejected
      · cases resumed
  · cases resumed

end Calls

section Starting
variable {r r' : Runtime}

/-- The fields the tasks of a stop depend on. -/
def taskFields (r : Runtime) : Registry × (Nat → Attempt) × Nat × (Nat → Call) × Nat × Bool × Bool :=
  (r.tasks, r.attempt, r.attempts, r.call, r.calls, r.sinksBegun, r.startFailed)

theorem same_watched (watched : Watched r) (same : r'.taskFields = r.taskFields) : Watched r' := by
  cases r
  cases r'
  cases same
  exact { watched with }

theorem failStart_watched (watched : Watched r) (none_entering : r.tasks.entering = []) :
    Watched r.failStart :=
  watched_step watched (.inr ⟨rfl, none_entering⟩) (fun _ inside => .inl ⟨inside, rfl⟩)
    (fun _ inside fulfilled => .inl ⟨inside, fulfilled⟩) .inl (fun _ => .inr rfl)

theorem proceed_watched (watched : Watched r) (none_entering : r.tasks.entering = [])
    (categories : List Category) (items : List StartItem) : Watched (r.proceed categories items) := by
  fun_induction proceed r categories items with
  | case1 categories c rest aborted => exact failStart_watched watched none_entering
  | case2 categories c rest _ => exact same_watched watched rfl
  | case3 categories c rest => exact same_watched watched rfl
  | case4 => exact same_watched watched rfl
  | case5 category categories ih => exact ih

theorem start_watched (watched : Watched r) (context : Nat) (admission : Bool) :
    Watched (r.start context admission) := by
  unfold start
  split
  · exact same_watched watched rfl
  · exact watched

theorem built_watched (watched : Watched r) (none_entering : r.tasks.entering = []) {succeeds valid : Bool}
    (built : r.built succeeds valid = some r') : Watched r' := by
  unfold Runtime.built at built
  split at built
  · split at built
    · cases built
      exact failStart_watched watched none_entering
    · cases built
      exact proceed_watched watched none_entering _ _
  · cases built

theorem itemSettles_watched (watched : Watched r) (none_entering : r.tasks.entering = []) {succeeds : Bool}
    (settled : r.itemSettles succeeds = some r') : Watched r' := by
  unfold itemSettles at settled
  split at settled
  · rename_i item items categories awaiting
    split at settled
    · cases settled
      exact failStart_watched watched none_entering
    · cases item with
      | component c =>
        have completed : Watched { r with ledger := r.ledger.complete c } := same_watched watched rfl
        dsimp only at settled
        split at settled
        · cases settled
          exact failStart_watched completed none_entering
        · cases settled
          exact proceed_watched completed none_entering _ _
      | admission c =>
        dsimp only at settled
        split at settled
        · cases settled
          exact failStart_watched watched none_entering
        · cases settled
          exact proceed_watched watched none_entering _ _
  · cases settled

theorem resumeStart_watched (watched : Watched r) {seen : Bool} (resumed : r.resumeStart seen = some r') :
    Watched r' := by
  unfold resumeStart at resumed
  split at resumed
  · split at resumed
    · cases resumed
    · cases resumed
      exact same_watched watched rfl
    · cases resumed
      exact same_watched watched rfl
    · cases resumed
      exact same_watched watched rfl
  · cases resumed

end Starting

section Tasks
variable {r r' : Runtime}

/-- While tasks can still come or run, only an attempt in its gap knows of them. -/
theorem tasksOk_busy (busy : ¬Idle r) {s : AttemptState} (ok : TasksOk r s)
    (outside : ∀ graceful, s ≠ .draining graceful .empty) : TasksOk r' s := by
  cases s with
  | awaitingStartup => trivial
  | rolling sequence => trivial
  | group phase members =>
    cases phase with
    | sinks => exact absurd ok busy
    | connectors => exact absurd ok busy
    | admission | producers | managed | resources => trivial
  | draining graceful drain =>
    cases drain with
    | empty => exact absurd rfl (outside graceful)
    | waiting snapshot => trivial
    | timedOut => trivial
  | telemetry sequence => exact absurd ok busy
  | fulfilled => exact absurd ok busy
  | rejected => trivial

theorem admitTask_watched (watched : Watched r) (careful : Careful r .admitTask) : Watched r.admitTask := by
  unfold admitTask
  split
  · rename_i accepting
    have open_registry : r.tasks.accepting ≠ false := by simp [accepting]
    have busy : ¬Idle r := fun idle => open_registry idle.1
    exact {
      closed := fun closed => absurd closed open_registry
      failed := watched.failed
      begun := fun sinks => absurd (watched.begun sinks) busy
      attempts := by
        intro k inside
        apply tasksOk_busy busy (watched.attempts k inside)
        exact fun graceful state => careful ⟨accepting, k, graceful, inside, state⟩
      calls := fun n inside fulfilled => absurd (watched.calls n inside fulfilled) busy
      accounted := by
        intro task positive below
        simp only at below
        rcases Nat.lt_or_ge task r.tasks.nextId with older | newest
        · rcases watched.accounted task positive older with settled | active | entering
          · exact .inl settled
          · exact .inr (.inl active)
          · exact .inr (.inr (List.mem_cons_of_mem _ entering))
        · have same : task = r.tasks.nextId := by omega
          rw [same]
          exact .inr (.inr List.mem_cons_self) }
  · exact watched

theorem enter_watched (watched : Watched r) (entered : r.enter = some r') : Watched r' := by
  unfold enter at entered
  split at entered
  · cases entered
  · rename_i task others entering
    cases entered
    have open_registry : r.tasks.accepting ≠ false := by
      intro closed
      rw [watched.closed closed] at entering
      cases entering
    have busy : ¬Idle r := fun idle => open_registry idle.1
    exact {
      closed := fun closed => absurd closed open_registry
      failed := watched.failed
      begun := fun sinks => absurd (watched.begun sinks) busy
      attempts := by
        intro k inside
        have ok := watched.attempts k inside
        apply tasksOk_busy busy ok
        intro graceful state
        simp only [state, TasksOk, entering] at ok
        cases ok.2
      calls := fun n inside fulfilled => absurd (watched.calls n inside fulfilled) busy
      accounted := by
        intro other positive below
        rcases watched.accounted other positive below with settled | active | waiting
        · exact .inl settled
        · exact .inr (.inl (List.mem_append_left _ active))
        · rw [entering] at waiting
          rcases List.mem_cons.mp waiting with same | later
          · exact .inr (.inl (List.mem_append_right _ (by simp [same])))
          · exact .inr (.inr later) }

theorem taskSettles_watched (watched : Watched r) {task : Nat} (settles : r.taskSettles task = some r') :
    Watched r' := by
  unfold taskSettles at settles
  split at settles
  · rename_i active
    cases settles
    have busy : r.tasks.active ≠ [] := List.ne_nil_of_mem active
    have never : ¬Idle r := fun idle => busy idle.2.1
    exact {
      closed := watched.closed
      failed := watched.failed
      begun := fun sinks => absurd (watched.begun sinks) never
      attempts := by
        intro k inside
        have ok := watched.attempts k inside
        apply tasksOk_busy never ok
        intro graceful state
        simp only [state, TasksOk] at ok
        exact busy ok.1
      calls := fun n inside fulfilled => absurd (watched.calls n inside fulfilled) never
      accounted := by
        intro other positive below
        rcases watched.accounted other positive below with settled | running | entering
        · exact .inl (List.mem_cons_of_mem _ settled)
        · rcases eq_or_ne other task with same | differs
          · exact .inl (by simp [same])
          · exact .inr (.inl ((List.mem_erase_of_ne differs).mpr running))
        · exact .inr (.inr entering) }
  · cases settles

end Tasks

section Runs
variable {r r' : Runtime}

theorem step_watched (watched : Watched r) (governed : Governed r) {a : Action} (careful : Careful r a)
    (stepped : step r a = some r') : Watched r' := by
  unfold step at stepped
  split at stepped
  · rename_i enabled
    have calm : a.synchronous = false → r.tasks.entering = [] := by
      intro deferred
      rw [deferred] at enabled
      simpa using enabled
    have stops : ∀ l : Option Ledger, r.withLedger l = some r' → Watched r' := by
      intro l changed
      obtain ⟨l', _, same⟩ := Option.map_eq_some_iff.mp changed
      subst same
      exact same_watched watched rfl
    cases a with
    | register component =>
      cases stepped
      unfold register
      split
      · exact watched
      · exact same_watched watched rfl
    | start context admission =>
      cases stepped
      exact start_watched watched context admission
    | built succeeds valid => exact built_watched watched (calm rfl) stepped
    | itemSettles succeeds => exact itemSettles_watched watched (calm rfl) stepped
    | resumeStart seen => exact resumeStart_watched watched stepped
    | stop context =>
      cases stepped
      exact stop_watched watched careful
    | stopFromListener context joined => exact stopFromListener_watched watched stepped
    | resumeAttempt k seen => exact moves_watched watched (resumeAttempt_moves watched (calm rfl) stepped)
    | poll k => exact moves_watched watched (poll_moves (calm rfl) stepped)
    | drainTimeout k => exact moves_watched watched (drainTimeout_moves stepped)
    | release =>
      simp only [perform, release] at stepped
      split at stepped
      · split at stepped
        · cases stepped
          exact same_watched watched rfl
        · cases stepped
      · cases stepped
    | resumeCall n seen => exact resumeCall_watched watched governed (calm rfl) stepped
    | invoke i => exact stops _ stepped
    | answer i failure => exact stops _ stepped
    | settle i => exact stops _ stepped
    | rejoin j => exact stops _ stepped
    | follow j => exact stops _ stepped
    | admitTask =>
      cases stepped
      exact admitTask_watched watched careful
    | enter => exact enter_watched watched stepped
    | taskSettles task => exact taskSettles_watched watched stepped
    | abort context =>
      cases stepped
      exact same_watched watched rfl
    | expire context =>
      cases stepped
      exact same_watched watched rfl
  · cases stepped

theorem initial_watched : Watched {} where
  closed _ := rfl
  failed failed := by cases failed
  begun sinks := by cases sinks
  attempts k inside := by cases inside
  calls n inside := by cases inside
  accounted task positive below := by
    simp only at below
    omega

theorem reached_watched (reached : Reached Careful r) : Watched r := by
  have both : Governed r ∧ Watched r :=
    steps_invariant (fun r => Governed r ∧ Watched r)
      (fun _ _ _ held careful stepped =>
        ⟨step_governed held.1 stepped, step_watched held.2 held.1 careful stepped⟩)
      reached ⟨initial_governed, initial_watched⟩
  exact both.2

/-- No task is left behind: none is active, or can be admitted, once the stops of the sinks
    have begun, and all have settled when a call of `stop` is fulfilled. -/
def NoneLeftBehind (r : Runtime) : Prop :=
  (r.sinksBegun = true → r.tasks.active = [] ∧ r.tasks.entering = [] ∧ r.tasks.accepting = false) ∧
  (∀ n, n < r.calls → (r.call n).status = .fulfilled →
    ∀ task, 0 < task → task < r.tasks.nextId → task ∈ r.tasks.settled)

/- In every run that admits no task in the gap of a drain, and calls `stop`
   from the synchronous part of a task only while there is something to stop, no
   task is left behind. -/
theorem none_left_behind (reached : Reached Careful r) : NoneLeftBehind r := by
  have watched := reached_watched reached
  constructor
  · intro sinks
    obtain ⟨closed, active, entering⟩ := watched.begun sinks
    exact ⟨active, entering, closed⟩
  · intro n inside fulfilled task positive below
    obtain ⟨_, active, entering⟩ := watched.calls n inside fulfilled
    rcases watched.accounted task positive below with settled | running | waiting
    · exact settled
    · rw [active] at running
      cases running
    · rw [entering] at waiting
      cases waiting

def carefulCheck (r : Runtime) : Action → Bool
  | .admitTask => !r.tasks.accepting || (List.range r.attempts).all fun k =>
      match (r.attempt k).state with
      | .draining _ .empty => false
      | _ => true
  | .stop _ => decide (r.tasks.entering = [])
  | _ => true

theorem carefulCheck_sound (r : Runtime) (a : Action) (passed : carefulCheck r a = true) : Careful r a := by
  cases a with
  | admitTask =>
    rintro ⟨accepting, k, graceful, inside, state⟩
    simp only [carefulCheck, accepting, Bool.not_true, Bool.false_or, List.all_eq_true] at passed
    have seen := passed k (List.mem_range.mpr inside)
    rw [state] at seen
    cases seen
  | stop context =>
    intro _
    exact of_decide_eq_true passed
  | _ => trivial

theorem sink_unmanaged : Category.dataSink = .managedDataConnector → false = true := by
  intro managed
  cases managed

/-- A sink is running and a task is active when the service is stopped, and the
    stop comes as far as its drain. -/
def stopToDrain : List Action :=
  [.register ⟨.dataSink, "sink", false, sink_unmanaged⟩, .start 0 true, .built true true, .itemSettles true,
    .admitTask, .enter, .stop 1] ++ List.replicate 4 (.resumeAttempt 0 [])

/-- The task admits another one as it ends; the drain sees both settle. -/
def drainedStop : List Action :=
  [.admitTask, .enter, .taskSettles 1, .poll 0, .taskSettles 2, .poll 0, .resumeAttempt 0 [true], .invoke 0,
    .answer 0 none, .settle 0, .resumeAttempt 0 [true], .resumeAttempt 0 [], .resumeAttempt 0 [], .release,
    .resumeCall 0 true]

theorem none_left_behind_nested :
    ∃ r, Reached Careful r ∧ (r.call 0).status = .fulfilled ∧ r.tasks.nextId = 3 ∧ NoneLeftBehind r := by
  have runs : (execWhere step carefulCheck {} (stopToDrain ++ drainedStop)).map (fun r =>
      ((r.call 0).status, r.tasks.nextId)) = some (.fulfilled, 3) := by
    decide +kernel
  obtain ⟨r, run, facts⟩ := Option.map_eq_some_iff.mp runs
  obtain ⟨fulfilled, nextId⟩ := Prod.mk.inj facts
  have reached : Reached Careful r := execWhere_steps carefulCheck_sound run
  exact ⟨r, reached, fulfilled, nextId, none_left_behind reached⟩

/- The drain has seen the registry empty; the continuation of the task that has
   just ended admits another one before admission is sealed, and the stops of
   the sinks begin with that task active. -/
theorem task_admitted_after_drain : ¬∀ r, Reached Any r → NoneLeftBehind r := by
  intro all
  have runs : (exec step {} (stopToDrain ++ [.taskSettles 1, .poll 0, .admitTask, .enter,
      .resumeAttempt 0 [true]])).map (fun r => (r.sinksBegun, r.tasks.active)) = some (true, [2]) := by
    decide +kernel
  obtain ⟨r, run, facts⟩ := Option.map_eq_some_iff.mp runs
  obtain ⟨sinks, active⟩ := Prod.mk.inj facts
  have empty := ((all r (exec_steps run)).1 sinks).1
  rw [active] at empty
  cases empty

end Runs

end Runtime

end Services
