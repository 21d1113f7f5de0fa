import TsServiceLib.Workflow.IdlePromise
import TsServiceLib.Workflow.WorkflowEnvironment

/-!
Waiting for the graph to come to rest. A call of `waitForQuiescence` holds
promises it read earlier, and each of them that is still open is the current
one of a busy pool; the check that ends the call is made on the pools and the
registry themselves. After `finish` has stopped the pools and drained the
registry nothing of the graph is left that could still fail.
-/
namespace WorkflowEnvironments
open Transitions WorkflowPools

variable {E : Type}

/-- Each pool has moved on, or is where it was. -/
def PoolsMove (before after : List WorkflowPool) : Prop :=
  after.length = before.length ∧ ∀ (i : Nat) (w : WorkflowPool), before[i]? = some w →
    ∃ v, after[i]? = some v ∧ Steps WorkflowPools.step Any w v

/-- What tasks may do to the registry: one that does not accept gains none. -/
def RegistryMoves (before after : Registry) : Prop :=
  after.accepting = before.accepting ∧
    (before.accepting = false → before.entering = [] → after.entering = [] ∧ after.tasks ⊆ before.tasks)

/-- What the failure and its history may become. -/
def Records (before after : Environment E) : Prop :=
  (after.failure = before.failure ∧ after.recorded = before.recorded) ∨
    ∃ error, after.failure = before.failure.or (some error) ∧ after.recorded = error :: before.recorded

/-- A turn of a call of `waitForQuiescence`. -/
inductive Turn (env : Environment E) : QuiescenceCall → QuiescenceCall → Prop where
  | drain (idles snapshot : List Nat) : Turn env (.awaiting idles (.awaiting snapshot)) (.awaiting idles (drain env.registry))
  | settled (idles : List Nat) (resolved : idlesResolved env.pools idles = true) : Turn env (.awaiting idles .drained) .rechecking
  | returned (quiet : quiescent env = true) : Turn env .rechecking .returned
  | again : Turn env .rechecking (quiescenceTurn env)

/-- A turn of a call of `finish` that changes nothing else. -/
inductive FinishTurn (env : Environment E) : FinishCall → FinishCall → Prop where
  | drain (snapshot : List Nat) : FinishTurn env (.draining (.awaiting snapshot)) (.draining (drain env.registry))
  | threw (storage : Nat) : FinishTurn env (.stoppingStorage storage) .threw

inductive Move (env : Environment E) : Environment E → Prop where
  | works (pools : List WorkflowPool) (registry : Registry) (failure : Option E) (recorded : List E) (started : Bool)
      (moved : PoolsMove env.pools pools) (registered : RegistryMoves env.registry registry)
      (records : Records env { env with failure := failure, recorded := recorded }) :
      Move env { env with
        pools := pools, registry := registry, failure := failure, recorded := recorded, started := started }
  | begins (finishes : List FinishCall) (completions : List CompletionCall)
      (added : finishes = env.finishes ∨ finishes = env.finishes ++ [.quiescing env.waits.length]) :
      Move env { beginWait env with finishes := finishes, completions := completions }
  | turns (k : Nat) (old new : QuiescenceCall) (found : env.waits[k]? = some old) (turn : Turn env old new)
      (free : env.registry.entering = []) : Move env { env with waits := env.waits.set k new }
  | skips : Move env { env with finishes := env.finishes ++ [.skipped] }
  | completes (completions : List CompletionCall) : Move env { env with completions := completions }
  | quiesced (f wait : Nat) (found : env.finishes[f]? = some (.quiescing wait)) (free : env.registry.entering = []) :
      Move env (stopPool { env with registry := { env.registry with accepting := false } } f 0)
  | poolStopped (f i : Nat) (w : WorkflowPool) (found : env.finishes[f]? = some (.stoppingPool i))
      (here : env.pools[i]? = some w) (stopped : w.state = .stopped) : Move env (stopPool env f (i + 1))
  | finishTurns (f : Nat) (old new : FinishCall) (found : env.finishes[f]? = some old) (turn : FinishTurn env old new) :
      Move env (setFinish env f new)
  | drained (f : Nat) (found : env.finishes[f]? = some (.draining .drained)) : Move env (stopStorage env f 0)
  | storageStopped (f j : Nat) (found : env.finishes[f]? = some (.stoppingStorage j)) :
      Move env (stopStorage env f (j + 1))

section Moves
variable {env : Environment E}

theorem steps_one {w v : WorkflowPool} {a : WorkflowPools.Action} (next : WorkflowPools.step w a = some v) :
    Steps WorkflowPools.step Any w v :=
  steps_single trivial next

theorem poolsMove_refl (pools : List WorkflowPool) : PoolsMove pools pools :=
  ⟨rfl, fun _ w here => ⟨w, here, .refl w⟩⟩

theorem poolsMove_set {pools : List WorkflowPool} {i : Nat} {w v : WorkflowPool} (here : pools[i]? = some w)
    (run : Steps WorkflowPools.step Any w v) : PoolsMove pools (pools.set i v) := by
  refine ⟨List.length_set, ?_⟩
  intro j u found
  rcases eq_or_ne i j with same | other
  · subst same
    rw [here] at found
    cases found
    have inside := (List.getElem?_eq_some_iff.mp here).1
    exact ⟨v, List.getElem?_set_self inside, run⟩
  · exact ⟨u, (List.getElem?_set_ne other).trans found, .refl u⟩

theorem startPools_moves (pools : List WorkflowPool) : PoolsMove pools (startPools pools).1 := by
  induction pools with
  | nil => exact poolsMove_refl []
  | cons w rest ih =>
    unfold startPools
    split
    · exact poolsMove_refl _
    · rename_i v started
      have next : WorkflowPools.step w .start = some v := by simp only [WorkflowPools.step, orUnchanged, started]
      refine ⟨by simp [ih.1], ?_⟩
      intro i u found
      cases i with
      | zero =>
        cases found
        exact ⟨v, rfl, steps_one next⟩
      | succ i => exact ih.2 i u found

theorem registryMoves_refl (r : Registry) : RegistryMoves r r := ⟨rfl, fun _ free => ⟨free, List.Subset.refl _⟩⟩

theorem records_same (env : Environment E) : Records env env := .inl ⟨rfl, rfl⟩

theorem records_failure (env : Environment E) (error : E) : Records env (recordFailure env error) :=
  .inr ⟨error, rfl, rfl⟩

theorem admit_moves {r : Registry} (accepting : r.accepting = true) (started : Nat) (entering tasks : List Nat) :
    RegistryMoves r { r with started := started, entering := entering, tasks := tasks } :=
  ⟨rfl, fun refusing => absurd (accepting.symm.trans refusing) nofun⟩

theorem pool_move {i : Nat} {w v : WorkflowPool} (here : env.pools[i]? = some w) {a : WorkflowPools.Action}
    (next : WorkflowPools.step w a = some v) (error : E) :
    Move env (if reports a then recordFailure { env with pools := env.pools.set i v } error
      else { env with pools := env.pools.set i v }) := by
  have moved := poolsMove_set here (steps_one next)
  split
  · exact .works _ _ _ _ _ moved (registryMoves_refl _) (records_failure env error)
  · exact .works _ _ _ _ _ moved (registryMoves_refl _) (records_same env)

theorem settles_move (task : Nat) (rejection : Option (E × Bool)) :
    Move env (match rejection with
      | some (error, false) => recordFailure
          { env with registry := { env.registry with tasks := env.registry.tasks.filter (· ≠ task) } } error
      | _ => { env with registry := { env.registry with tasks := env.registry.tasks.filter (· ≠ task) } }) := by
  have fewer : RegistryMoves env.registry
      { env.registry with tasks := env.registry.tasks.filter (· ≠ task) } :=
    ⟨rfl, fun _ free => ⟨free, List.filter_subset_self _⟩⟩
  split
  · rename_i error
    exact .works _ _ _ _ _ (poolsMove_refl _) fewer (records_failure env error)
  · exact .works _ _ _ _ _ (poolsMove_refl _) fewer (records_same env)

theorem step_move {env' : Environment E} {a : Action E} (next : step env a = some env') : Move env env' := by
  cases a with
  | start =>
    simp only [step] at next
    split at next
    · cases next
      unfold start
      split
      · exact .completes env.completions
      · exact .works _ _ _ _ _ (startPools_moves _) (registryMoves_refl _) (records_same env)
    · cases next
  | pool i a error =>
    simp only [step] at next
    split at next
    · cases next
    · rename_i w here
      obtain ⟨v, moved, rfl⟩ := Option.map_eq_some_iff.mp next
      exact pool_move here moved error
  | rejected error =>
    cases next
    exact .works _ _ _ _ _ (poolsMove_refl _) (registryMoves_refl _) (records_failure env error)
  | admits detached stopped =>
    simp only [step] at next
    split at next
    · rename_i accepting
      cases next
      exact .works _ _ _ _ _ (poolsMove_refl _) (admit_moves accepting _ _ _) (records_same env)
    · split at next
      · cases next
        exact .works _ _ _ _ _ (poolsMove_refl _) (registryMoves_refl _) (records_failure env stopped)
      · cases next
        exact .completes env.completions
  | enters =>
    simp only [step] at next
    split at next
    · cases next
    · rename_i task rest here
      cases next
      have entered : RegistryMoves env.registry
          { env.registry with entering := rest, tasks := env.registry.tasks ++ [task] } :=
        ⟨rfl, fun _ free => absurd (here.symm.trans free) nofun⟩
      exact .works _ _ _ _ _ (poolsMove_refl _) entered (records_same env)
  | settles task rejection =>
    simp only [step] at next
    split at next
    · have move : Move env _ := settles_move task rejection
      split at next
      · cases next
        exact move
      · rename_i other
        cases next
        split at move
        · exact absurd rfl (other _)
        · exact move
    · cases next
  | waitForQuiescence =>
    cases next
    exact .begins env.finishes env.completions (.inl rfl)
  | drainTurn k =>
    simp only [step] at next
    split at next
    · rename_i idles snapshot found
      split at next
      · rename_i free
        cases next
        exact .turns k _ _ found (.drain idles snapshot) free.1
      · cases next
    · cases next
  | settled k =>
    simp only [step] at next
    split at next
    · rename_i idles found
      split at next
      · rename_i free
        cases next
        exact .turns k _ _ found (.settled idles free.2) free.1
      · cases next
    · cases next
  | recheck k =>
    simp only [step] at next
    split at next
    · rename_i found
      split at next
      · rename_i free
        cases next
        split
        · rename_i quiet
          exact .turns k _ _ found (.returned quiet) free
        · exact .turns k _ _ found .again free
      · cases next
    · cases next
  | finish =>
    cases next
    unfold finish
    split
    · exact .begins _ env.completions (.inr rfl)
    · exact .skips
  | quiesced f =>
    simp only [step] at next
    split at next
    · rename_i k found
      split at next
      · split at next
        · rename_i free
          cases next
          exact .quiesced f k found free
        · cases next
      · split at next
        · rename_i free
          cases next
          exact .quiesced f k found free
        · cases next
      · cases next
    · cases next
  | poolStopped f =>
    simp only [step] at next
    split at next
    · rename_i i found
      split at next
      · rename_i w here
        split at next
        · rename_i free
          cases next
          exact .poolStopped f i w found here free.2
        · cases next
      · cases next
    · cases next
  | finishDrainTurn f =>
    simp only [step] at next
    split at next
    · rename_i snapshot found
      split at next
      · cases next
        exact .finishTurns f _ _ found (.drain snapshot)
      · cases next
    · cases next
  | drained f =>
    simp only [step] at next
    split at next
    · rename_i found
      split at next
      · cases next
        exact .drained f found
      · cases next
    · cases next
  | storageStopped f rejected =>
    simp only [step] at next
    split at next
    · rename_i j found
      split at next
      · cases next
        split
        · exact .finishTurns f _ _ found (.threw j)
        · exact .storageStopped f j found
      · cases next
    · cases next
  | waitForCompletion result =>
    cases next
    unfold waitForCompletion
    split
    · exact .completes _
    · exact .begins env.finishes _ (.inl rfl)
  | raceEnded c failed =>
    simp only [step] at next
    split at next
    · split at next
      · cases next
        unfold raceEnded
        split
        · exact .completes _
        · exact .begins env.finishes _ (.inl rfl)
      · cases next
    · cases next
  | completed c =>
    simp only [step] at next
    split at next
    · split at next
      · cases next
        exact .completes _
      · cases next
        exact .completes _
      · cases next
    · cases next

end Moves

/-- The promises a call awaits were made by the pools it read them from. -/
def Snapshot (pools : List WorkflowPool) (idles : List Nat) : Prop :=
  ∀ (i : Nat) (w : WorkflowPool) (promise : Nat), pools[i]? = some w → idles[i]? = some promise → promise < w.promises

/-- All pools have stopped and the registry takes no task. -/
def Closed (env : Environment E) : Prop :=
  env.registry.accepting = false ∧ env.registry.entering = [] ∧ ∀ w ∈ env.pools, w.state = .stopped

/-- What a call of `finish` has behind it. -/
def Behind (env : Environment E) : FinishCall → Prop
  | .stoppingPool i => env.registry.accepting = false ∧ env.registry.entering = [] ∧
      ∀ (j : Nat) (w : WorkflowPool), j < i → env.pools[j]? = some w → w.state = .stopped
  | .draining drain => Closed env ∧ (drain = .drained → env.registry.tasks = [])
  | .stoppingStorage _ | .returned => Closed env ∧ env.registry.tasks = []
  | _ => True

/-- What holds in every reachable state of the environment. -/
structure Sound (env : Environment E) : Prop where
  pools : ∀ w ∈ env.pools, Reached w
  waits : ∀ (k : Nat) (idles : List Nat) (drain : DrainCall),
    env.waits[k]? = some (.awaiting idles drain) → Snapshot env.pools idles
  recorded : env.failure.isSome ↔ env.recorded ≠ []
  finishes : ∀ (f : Nat) (call : FinishCall), env.finishes[f]? = some call → Behind env call

section Soundness
variable {env : Environment E}

theorem reached_steps {w v : WorkflowPool} (reached : Reached w) (run : Steps WorkflowPools.step Any w v) : Reached v := by
  obtain ⟨name, executors, priority, first, made, start⟩ := reached
  exact ⟨name, executors, priority, first, made, steps_trans start run⟩

theorem steps_promises {w v : WorkflowPool} (run : Steps WorkflowPools.step Any w v) : w.promises ≤ v.promises := by
  induction run with
  | refl => exact Nat.le_refl _
  | tail _ _ next ih => exact Nat.le_trans ih (move_promises (WorkflowPools.step_move next))

theorem steps_stopped {w v : WorkflowPool} (reached : Reached w) (run : Steps WorkflowPools.step Any w v)
    (stopped : w.state = .stopped) : v.state = .stopped := by
  induction run with
  | refl => exact stopped
  | tail before _ next ih =>
    exact move_stopped (reached_accounted (reached_steps reached before)) ih (WorkflowPools.step_move next)

theorem poolsMove_back {before after : List WorkflowPool} (moved : PoolsMove before after) {i : Nat} {v : WorkflowPool}
    (here : after[i]? = some v) : ∃ w, before[i]? = some w ∧ Steps WorkflowPools.step Any w v := by
  have inside : i < before.length := moved.1 ▸ (List.getElem?_eq_some_iff.mp here).1
  obtain ⟨u, found, run⟩ := moved.2 i _ (List.getElem?_eq_getElem inside)
  rw [here] at found
  cases found
  exact ⟨_, List.getElem?_eq_getElem inside, run⟩

theorem moved_reached {before after : List WorkflowPool} (moved : PoolsMove before after)
    (reached : ∀ w ∈ before, Reached w) : ∀ w ∈ after, Reached w := by
  intro v mem
  obtain ⟨i, here⟩ := List.mem_iff_getElem?.mp mem
  obtain ⟨w, found, run⟩ := poolsMove_back moved here
  exact reached_steps (reached w (List.mem_of_getElem? found)) run

theorem moved_snapshot {before after : List WorkflowPool} (moved : PoolsMove before after) {idles : List Nat}
    (snapshot : Snapshot before idles) : Snapshot after idles := by
  intro i v promise here awaited
  obtain ⟨w, found, run⟩ := poolsMove_back moved here
  exact Nat.lt_of_lt_of_le (snapshot i w promise found awaited) (steps_promises run)

theorem current_snapshot {pools : List WorkflowPool} (reached : ∀ w ∈ pools, Reached w) :
    Snapshot pools (pools.map WorkflowPool.idle) := by
  intro i w promise here awaited
  rw [List.getElem?_map, here] at awaited
  cases awaited
  exact (reached_rest (reached w (List.mem_of_getElem? here))).promised.made

/-- The pools and the registry have gone on from one environment to another. -/
structure Onward (before after : Environment E) : Prop where
  pools : PoolsMove before.pools after.pools
  accepting : before.registry.accepting = false → after.registry.accepting = false
  entering : before.registry.accepting = false → before.registry.entering = [] → after.registry.entering = []
  tasks : before.registry.accepting = false → before.registry.entering = [] → after.registry.tasks ⊆ before.registry.tasks

theorem onward_closed {before after : Environment E} (reached : ∀ w ∈ before.pools, Reached w)
    (onward : Onward before after) (closed : Closed before) : Closed after := by
  refine ⟨onward.accepting closed.1, onward.entering closed.1 closed.2.1, ?_⟩
  intro v mem
  obtain ⟨i, here⟩ := List.mem_iff_getElem?.mp mem
  obtain ⟨w, found, run⟩ := poolsMove_back onward.pools here
  have there := List.mem_of_getElem? found
  exact steps_stopped (reached w there) run (closed.2.2 w there)

theorem onward_empty {before after : Environment E} (onward : Onward before after) (closed : Closed before)
    (empty : before.registry.tasks = []) : after.registry.tasks = [] := by
  have fewer := onward.tasks closed.1 closed.2.1
  rw [empty] at fewer
  exact List.subset_nil.mp fewer

theorem onward_behind {before after : Environment E} (reached : ∀ w ∈ before.pools, Reached w)
    (onward : Onward before after) {call : FinishCall} (behind : Behind before call) : Behind after call := by
  cases call with
  | stoppingPool i =>
    obtain ⟨refusing, free, stopped⟩ := behind
    refine ⟨onward.accepting refusing, onward.entering refusing free, ?_⟩
    intro j v earlier here
    obtain ⟨w, found, run⟩ := poolsMove_back onward.pools here
    exact steps_stopped (reached w (List.mem_of_getElem? found)) run (stopped j w earlier found)
  | draining drain => exact ⟨onward_closed reached onward behind.1, fun drained => onward_empty onward behind.1 (behind.2 drained)⟩
  | stoppingStorage storage => exact ⟨onward_closed reached onward behind.1, onward_empty onward behind.1 behind.2⟩
  | returned => exact ⟨onward_closed reached onward behind.1, onward_empty onward behind.1 behind.2⟩
  | quiescing wait => trivial
  | skipped => trivial
  | threw => trivial

theorem drain_drained {r : Registry} (drained : drain r = .drained) : r.tasks = [] := by
  unfold drain at drained
  split at drained
  · rename_i empty
    exact empty
  · cases drained

/-- An entry of a list in which one entry has been replaced. -/
theorem set_cases {T : Type} {l : List T} {i j : Nat} {x y : T} (found : (l.set i x)[j]? = some y) :
    (i = j ∧ y = x) ∨ l[j]? = some y := by
  rcases eq_or_ne i j with same | other
  · subst same
    by_cases inside : i < l.length
    · rw [List.getElem?_set_self inside] at found
      cases found
      exact .inl ⟨rfl, rfl⟩
    · rw [List.getElem?_eq_none (by rw [List.length_set]; omega)] at found
      cases found
  · exact .inr ((List.getElem?_set_ne other).symm.trans found)

theorem append_cases {T : Type} {l : List T} {j : Nat} {x y : T} (found : (l ++ [x])[j]? = some y) :
    y = x ∨ l[j]? = some y := by
  by_cases inside : j < l.length
  · rw [List.getElem?_append_left inside] at found
    exact .inr found
  · have mem := List.mem_of_getElem? found
    rw [List.getElem?_append_right (by omega)] at found
    rw [List.mem_singleton.mp (List.mem_of_getElem? found)]
    exact .inl rfl

theorem onward_works {pools : List WorkflowPool} {registry : Registry} (failure : Option E) (recorded : List E)
    (started : Bool) (moved : PoolsMove env.pools pools) (registered : RegistryMoves env.registry registry) :
    Onward env { env with
      pools := pools, registry := registry, failure := failure, recorded := recorded, started := started } where
  pools := moved
  accepting refusing := registered.1.trans refusing
  entering refusing free := (registered.2 refusing free).1
  tasks refusing free := (registered.2 refusing free).2

theorem stopPool_cases (env : Environment E) (f i : Nat) :
    (∃ w, env.pools[i]? = some w ∧ stopPool env f i =
      setFinish { env with pools := env.pools.set i (WorkflowPools.stop w) } f (.stoppingPool i)) ∨
    (env.pools[i]? = none ∧ stopPool env f i = setFinish env f (.draining (drain env.registry))) := by
  unfold stopPool
  cases here : env.pools[i]? with
  | some w => exact .inl ⟨w, rfl, rfl⟩
  | none => exact .inr ⟨rfl, rfl⟩

theorem stop_step (w : WorkflowPool) : WorkflowPools.step w .stop = some (WorkflowPools.stop w) := rfl

theorem stopPool_sound (sound : Sound env) {f i : Nat} (refusing : env.registry.accepting = false)
    (free : env.registry.entering = [])
    (earlier : ∀ (j : Nat) (w : WorkflowPool), j < i → env.pools[j]? = some w → w.state = .stopped) :
    Sound (stopPool env f i) := by
  rcases stopPool_cases env f i with ⟨w, here, result⟩ | ⟨none, result⟩
  · rw [result]
    have moved := poolsMove_set here (steps_one (stop_step w))
    have onward : Onward env (setFinish { env with pools := env.pools.set i (WorkflowPools.stop w) } f (.stoppingPool i)) :=
      ⟨moved, id, fun _ => id, fun _ _ => List.Subset.refl _⟩
    refine ⟨moved_reached moved sound.pools, fun k idles drain found => moved_snapshot moved (sound.waits k idles drain found),
      sound.recorded, ?_⟩
    intro g call found
    rcases set_cases found with ⟨_, rfl⟩ | old
    · refine ⟨refusing, free, ?_⟩
      intro j v before there
      have other : i ≠ j := by omega
      exact earlier j v before ((List.getElem?_set_ne other).symm.trans there)
    · exact onward_behind sound.pools onward (sound.finishes g call old)
  · rw [result]
    refine ⟨sound.pools, sound.waits, sound.recorded, ?_⟩
    intro g call found
    rcases set_cases found with ⟨_, rfl⟩ | old
    · refine ⟨⟨refusing, free, ?_⟩, drain_drained⟩
      intro w mem
      obtain ⟨j, here⟩ := List.mem_iff_getElem?.mp mem
      have inside : j < env.pools.length := (List.getElem?_eq_some_iff.mp here).1
      have last := List.getElem?_eq_none_iff.mp none
      exact earlier j w (by omega) here
    · exact sound.finishes g call old

theorem stopStorage_sound (sound : Sound env) {f j : Nat} (closed : Closed env) (empty : env.registry.tasks = []) :
    Sound (stopStorage env f j) := by
  unfold stopStorage
  split
  · refine ⟨sound.pools, sound.waits, sound.recorded, ?_⟩
    intro g call found
    rcases set_cases found with ⟨_, rfl⟩ | old
    · exact ⟨closed, empty⟩
    · exact sound.finishes g call old
  · refine ⟨sound.pools, sound.waits, sound.recorded, ?_⟩
    intro g call found
    rcases set_cases found with ⟨_, rfl⟩ | old
    · simp only
      split
      · trivial
      · exact ⟨closed, empty⟩
    · exact sound.finishes g call old

theorem turn_snapshot (sound : Sound env) {k : Nat} {old : QuiescenceCall} (found : env.waits[k]? = some old)
    {idles : List Nat} {drain : DrainCall} (turn : Turn env old (.awaiting idles drain)) : Snapshot env.pools idles := by
  generalize result : QuiescenceCall.awaiting idles drain = new at turn
  cases turn with
  | drain idles' snapshot =>
    cases result
    exact sound.waits k _ _ found
  | settled idles' resolved => cases result
  | returned quiet => cases result
  | again =>
    unfold quiescenceTurn at result
    split at result
    · cases result
    · cases result
      exact current_snapshot sound.pools

theorem begins_sound (sound : Sound env) {finishes : List FinishCall} (completions : List CompletionCall)
    (added : finishes = env.finishes ∨ finishes = env.finishes ++ [.quiescing env.waits.length]) :
    Sound { beginWait env with finishes := finishes, completions := completions } := by
  refine ⟨sound.pools, ?_, sound.recorded, ?_⟩
  · intro k idles drain found
    rcases append_cases found with new | old
    · unfold quiescenceTurn at new
      split at new
      · cases new
      · cases new
        exact current_snapshot sound.pools
    · exact sound.waits k idles drain old
  · intro f call found
    rcases added with same | more
    · subst same
      exact sound.finishes f call found
    · subst more
      rcases append_cases found with new | old
      · subst new
        trivial
      · exact sound.finishes f call old

theorem move_sound {env' : Environment E} (sound : Sound env) (move : Move env env') : Sound env' := by
  cases move with
  | works pools registry failure recorded started moved registered records =>
    have onward := onward_works failure recorded started moved registered
    refine ⟨moved_reached moved sound.pools, fun k idles drain found => moved_snapshot moved (sound.waits k idles drain found),
      ?_, fun f call found => onward_behind sound.pools onward (sound.finishes f call found)⟩
    rcases records with ⟨same, kept⟩ | ⟨error, first, more⟩
    · simp only at same kept ⊢
      rw [same, kept]
      exact sound.recorded
    · simp only at first more ⊢
      rw [first, more]
      simp
  | begins finishes completions added => exact begins_sound sound completions added
  | turns k old new found turn free =>
    refine ⟨sound.pools, ?_, sound.recorded, sound.finishes⟩
    intro k' idles drain here
    rcases set_cases here with ⟨_, result⟩ | before
    · subst result
      exact turn_snapshot sound found turn
    · exact sound.waits k' idles drain before
  | skips =>
    refine ⟨sound.pools, sound.waits, sound.recorded, ?_⟩
    intro f call found
    rcases append_cases found with new | old
    · subst new
      trivial
    · exact sound.finishes f call old
  | completes completions => exact ⟨sound.pools, sound.waits, sound.recorded, sound.finishes⟩
  | quiesced f wait found free =>
    have onward : Onward env { env with registry := { env.registry with accepting := false } } :=
      ⟨poolsMove_refl _, fun _ => rfl, fun _ => id, fun _ _ => List.Subset.refl _⟩
    have refusing : Sound { env with registry := { env.registry with accepting := false } } :=
      ⟨sound.pools, sound.waits, sound.recorded,
        fun g call there => onward_behind sound.pools onward (sound.finishes g call there)⟩
    exact stopPool_sound refusing rfl free (fun j w before => absurd before (Nat.not_lt_zero j))
  | poolStopped f i w found here stopped =>
    obtain ⟨refusing, free, earlier⟩ := sound.finishes f _ found
    apply stopPool_sound sound refusing free
    intro j v before there
    rcases Nat.lt_succ_iff_lt_or_eq.mp before with less | same
    · exact earlier j v less there
    · subst same
      rw [here] at there
      cases there
      exact stopped
  | finishTurns f old new found turn =>
    refine ⟨sound.pools, sound.waits, sound.recorded, ?_⟩
    intro g call there
    rcases set_cases there with ⟨_, result⟩ | before
    · subst result
      have behind := sound.finishes f old found
      cases turn with
      | drain snapshot => exact ⟨behind.1, drain_drained⟩
      | threw storage => trivial
    · exact sound.finishes g call before
  | drained f found =>
    obtain ⟨closed, empty⟩ := sound.finishes f _ found
    exact stopStorage_sound sound closed (empty rfl)
  | storageStopped f j found =>
    obtain ⟨closed, empty⟩ := sound.finishes f _ found
    exact stopStorage_sound sound closed empty

theorem initial_sound {pools : List WorkflowPool} {storages : Nat} (made : ∀ w ∈ pools, Reached w) :
    Sound (initial pools storages : Environment E) := by
  refine ⟨made, ?_, ?_, ?_⟩
  · intro k idles drain found
    simp [initial] at found
  · simp [initial]
  · intro f call found
    simp [initial] at found

/-- The pools and the registry are empty. -/
def Quiet (env : Environment E) : Prop :=
  env.registry.tasks = [] ∧ env.registry.entering = [] ∧ ∀ w ∈ env.pools, ¬w.busy

theorem quiescent_quiet (free : env.registry.entering = []) (quiet : quiescent env = true) : Quiet env := by
  simp only [quiescent, Bool.and_eq_true, List.isEmpty_iff, List.all_eq_true, beq_iff_eq] at quiet
  refine ⟨quiet.1, free, ?_⟩
  intro w mem
  obtain ⟨inactive, vacant⟩ := quiet.2 w mem
  rw [WorkflowPool.busy]
  omega

theorem quiescenceTurn_open (env : Environment E) : quiescenceTurn env ≠ .returned := by
  unfold quiescenceTurn
  split <;> nofun

/-- A call of `waitForQuiescence` returns only when everything is empty. -/
theorem wait_returns {env' : Environment E} (move : Move env env') {k : Nat}
    (waiting : env.waits[k]? ≠ some .returned) (returned : env'.waits[k]? = some .returned) : Quiet env' := by
  have stopped : ∀ (env : Environment E) f i, (stopPool env f i).waits = env.waits := by
    intro env f i
    rcases stopPool_cases env f i with ⟨w, _, result⟩ | ⟨_, result⟩ <;> rw [result] <;> rfl
  have stored : ∀ (env : Environment E) f j, (stopStorage env f j).waits = env.waits := by
    intro env f j
    unfold stopStorage
    split <;> rfl
  cases move with
  | works pools registry failure recorded started moved registered records => exact absurd returned waiting
  | begins finishes completions added =>
    rcases append_cases returned with new | old
    · exact absurd new.symm (quiescenceTurn_open env)
    · exact absurd old waiting
  | turns k' old new found turn free =>
    rcases set_cases returned with ⟨_, result⟩ | before
    · subst result
      generalize result : QuiescenceCall.returned = new at turn
      cases turn with
      | drain idles snapshot => cases result
      | settled idles resolved => cases result
      | returned quiet => exact quiescent_quiet free quiet
      | again => exact absurd result.symm (quiescenceTurn_open env)
    · exact absurd before waiting
  | skips => exact absurd returned waiting
  | completes completions => exact absurd returned waiting
  | quiesced f wait found free =>
    rw [stopped] at returned
    exact absurd returned waiting
  | poolStopped f i w found here still =>
    rw [stopped] at returned
    exact absurd returned waiting
  | finishTurns f old new found turn => exact absurd returned waiting
  | drained f found =>
    rw [stored] at returned
    exact absurd returned waiting
  | storageStopped f j found =>
    rw [stored] at returned
    exact absurd returned waiting

theorem stopStorage_returned {f g j : Nat} (pending : env.finishes[g]? ≠ some .returned)
    (returned : (stopStorage env f j).finishes[g]? = some .returned) : (stopStorage env f j).failure = none := by
  unfold stopStorage at returned ⊢
  split at returned
  · rcases set_cases returned with ⟨_, result⟩ | old
    · cases result
    · exact absurd old pending
  · rename_i last
    rw [if_neg last]
    rcases set_cases returned with ⟨_, result⟩ | old
    · simp only at result
      split at result
      · cases result
      · rename_i clean
        exact Option.not_isSome_iff_eq_none.mp clean
    · exact absurd old pending

theorem finish_returns {env' : Environment E} (move : Move env env') {f : Nat}
    (pending : env.finishes[f]? ≠ some .returned) (returned : env'.finishes[f]? = some .returned) :
    env'.failure = none := by
  have stopping : ∀ (env : Environment E) g i, env.finishes[f]? ≠ some .returned →
      (stopPool env g i).finishes[f]? ≠ some .returned := by
    intro env g i pending returned
    rcases stopPool_cases env g i with ⟨w, _, result⟩ | ⟨_, result⟩
    · rw [result] at returned
      rcases set_cases returned with ⟨_, new⟩ | old
      · cases new
      · exact pending old
    · rw [result] at returned
      rcases set_cases returned with ⟨_, new⟩ | old
      · cases new
      · exact pending old
  cases move with
  | works pools registry failure recorded started moved registered records => exact absurd returned pending
  | begins finishes completions added =>
    rcases added with same | more
    · subst same
      exact absurd returned pending
    · subst more
      rcases append_cases returned with new | old
      · cases new
      · exact absurd old pending
  | turns k old new found turn free => exact absurd returned pending
  | skips =>
    rcases append_cases returned with new | old
    · cases new
    · exact absurd old pending
  | completes completions => exact absurd returned pending
  | quiesced g wait found free => exact absurd returned (stopping _ g 0 pending)
  | poolStopped g i w found here still => exact absurd returned (stopping env g (i + 1) pending)
  | finishTurns g old new found turn =>
    rcases set_cases returned with ⟨_, result⟩ | before
    · subst result
      cases turn
    · exact absurd before pending
  | drained g found => exact stopStorage_returned pending returned
  | storageStopped g j found => exact stopStorage_returned pending returned

theorem sound_reached {pools : List WorkflowPool} {storages : Nat}
    (made : ∀ w ∈ pools, ∃ name executors priority, make name executors priority = .ok w)
    (run : Steps step Any (initial pools storages) env) : Sound env := by
  have fresh : ∀ w ∈ pools, Reached w := by
    intro w mem
    obtain ⟨name, executors, priority, first⟩ := made w mem
    exact ⟨name, executors, priority, w, first, .refl w⟩
  exact steps_invariant Sound (fun _ _ _ held _ next => move_sound held (step_move next)) run (initial_sound fresh)

end Soundness

end WorkflowEnvironments
