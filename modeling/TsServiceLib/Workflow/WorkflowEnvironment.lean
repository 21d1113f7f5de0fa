import TsServiceLib.Workflow.WorkflowPool

/-!
The environment a graph runs in inside a workflow: its pools, the registry of
its other tasks, and the calls that wait for all of them. Each await splits a
call into actions, and a continuation runs only when no task function is on the
stack. Tasks submit work wherever they like, so every action on the pools and
the registry may come in between.
-/
namespace WorkflowEnvironments
open Transitions WorkflowPools Pools Numbers

/-- `entering` are the tasks whose function has not returned yet, the innermost
    first; a task enters the map `#tasks` when its function has returned. -/
structure Registry where
  accepting : Bool := true
  started : Nat := 0
  entering : List Nat := []
  tasks : List Nat := []

/-- A call of `drain`, with the tasks of the snapshot it awaits. -/
inductive DrainCall where
  | awaiting (snapshot : List Nat)
  | drained
  deriving DecidableEq

def drain (r : Registry) : DrainCall := if r.tasks = [] then .drained else .awaiting r.tasks

/-- A call of `waitForQuiescence`: the idle promise it awaits of each pool, in
    the order of the pools, and its call of `drain`. -/
inductive QuiescenceCall where
  | awaiting (idles : List Nat) (drain : DrainCall)
  | rechecking
  | returned
  | threw
  deriving DecidableEq

/-- A call of `finish`; `skipped` is one that found nothing to stop. -/
inductive FinishCall where
  | quiescing (wait : Nat)
  | stoppingPool (pool : Nat)
  | draining (drain : DrainCall)
  | stoppingStorage (storage : Nat)
  | skipped
  | returned
  | threw
  deriving DecidableEq

/-- A call of `waitForCompletion`. -/
inductive CompletionCall where
  | racing
  | quiescing (wait : Nat)
  | returned
  | threw

/-- The task pools come before the priority pools, as in every loop of the
    source. `recorded` lists what `recordFailure` was called with, the latest first. -/
structure Environment (E : Type) where
  pools : List WorkflowPool
  storages : Nat
  registry : Registry := {}
  failure : Option E := none
  started : Bool := false
  waits : List QuiescenceCall := []
  finishes : List FinishCall := []
  completions : List CompletionCall := []
  recorded : List E := []

variable {E : Type}

def recordFailure (env : Environment E) (error : E) : Environment E :=
  { env with failure := env.failure.or (some error), recorded := error :: env.recorded }

/-- `pool.start()` of each pool in order; one that throws ends the loop and `start`. -/
def startPools : List WorkflowPool → List WorkflowPool × Bool
  | [] => ([], true)
  | w :: rest =>
    match WorkflowPools.start w with
    | .error _ => (w :: rest, false)
    | .ok v => (v :: (startPools rest).1, (startPools rest).2)

/-- What `start` does after its last await. -/
def start (env : Environment E) : Environment E :=
  if env.started then env
  else { env with pools := (startPools env.pools).1, started := (startPools env.pools).2 }

/-- The loop of `waitForQuiescence` from its head to its await. -/
def quiescenceTurn (env : Environment E) : QuiescenceCall :=
  if env.failure.isSome then .threw else .awaiting (env.pools.map WorkflowPool.idle) (drain env.registry)

/-- The check at the end of the loop. -/
def quiescent (env : Environment E) : Bool :=
  env.registry.tasks.isEmpty && env.pools.all fun w => w.active == 0 && w.queue.length == 0

def beginWait (env : Environment E) : Environment E := { env with waits := env.waits ++ [quiescenceTurn env] }

def setFinish (env : Environment E) (call : Nat) (stage : FinishCall) : Environment E :=
  { env with finishes := env.finishes.set call stage }

/-- The loop over the storages from the one given, and what follows it. -/
def stopStorage (env : Environment E) (call storage : Nat) : Environment E :=
  if storage < env.storages then setFinish env call (.stoppingStorage storage)
  else
    let ended := { env with started := false }
    setFinish ended call (if ended.failure.isSome then .threw else .returned)

/-- The loops over the pools from the one given, and what follows them. -/
def stopPool (env : Environment E) (call pool : Nat) : Environment E :=
  match env.pools[pool]? with
  | some w => setFinish { env with pools := env.pools.set pool (WorkflowPools.stop w) } call (.stoppingPool pool)
  | none => setFinish env call (.draining (drain env.registry))

def finish (env : Environment E) : Environment E :=
  if env.started then
    let waiting := beginWait env
    { waiting with finishes := env.finishes ++ [.quiescing env.waits.length] }
  else { env with finishes := env.finishes ++ [.skipped] }

def waitForCompletion (env : Environment E) (result : Bool) : Environment E :=
  if result then { env with completions := env.completions ++ [.racing] }
  else
    let waiting := beginWait env
    { waiting with completions := env.completions ++ [.quiescing env.waits.length] }

/-- After the race: `failed` says that it was not won by a value of the result. -/
def raceEnded (env : Environment E) (call : Nat) (failed : Bool) : Environment E :=
  if env.failure.isSome ∨ failed = true then { env with completions := env.completions.set call .threw }
  else
    let waiting := beginWait env
    { waiting with completions := env.completions.set call (.quiescing env.waits.length) }

/-- `pool`: an action of a pool, with the error its reporter hands on if it
    reports one. `rejected`: a caller whose task was rejected. `admits` to
    `settles`: the tasks of the registry, a rejection coming with whether it is
    the cancellation of its signal. The rest are the calls and their continuations. -/
inductive Action (E : Type) where
  | start
  | pool (pool : Nat) (action : WorkflowPools.Action) (error : E)
  | rejected (error : E)
  | admits (detached : Bool) (stopped : E)
  | enters
  | settles (task : Nat) (rejection : Option (E × Bool))
  | waitForQuiescence
  | drainTurn (wait : Nat)
  | settled (wait : Nat)
  | recheck (wait : Nat)
  | finish
  | quiesced (call : Nat)
  | poolStopped (call : Nat)
  | finishDrainTurn (call : Nat)
  | drained (call : Nat)
  | storageStopped (call : Nat) (rejected : Bool)
  | waitForCompletion (result : Bool)
  | raceEnded (call : Nat) (failed : Bool)
  | completed (call : Nat)

/-- The actions of a pool task after which `run` reports an error. -/
def reports : WorkflowPools.Action → Bool
  | .throws _ => true
  | .settles _ rejected => rejected
  | _ => false

def snapshotSettled (r : Registry) (snapshot : List Nat) : Bool := snapshot.all fun task => !r.tasks.contains task

/-- Every promise of the snapshot has been resolved. -/
def idlesResolved (pools : List WorkflowPool) (idles : List Nat) : Bool :=
  (pools.zip idles).all fun (w, promise) => w.resolved promise

def step (env : Environment E) : Action E → Option (Environment E)
  | .start => if env.registry.entering = [] then some (start env) else none
  | .pool i a error =>
    match env.pools[i]? with
    | none => none
    | some w =>
      (WorkflowPools.step w a).map fun v =>
        let moved := { env with pools := env.pools.set i v }
        if reports a then recordFailure moved error else moved
  | .rejected error => some (recordFailure env error)
  | .admits detached stopped =>
    if env.registry.accepting then
      some { env with registry := { env.registry with
        started := env.registry.started + 1
        entering := env.registry.started :: env.registry.entering } }
    else if detached then some (recordFailure env stopped)
    else some env
  | .enters =>
    match env.registry.entering with
    | [] => none
    | task :: rest =>
      some { env with registry := { env.registry with
        entering := rest
        tasks := env.registry.tasks ++ [task] } }
  | .settles task rejection =>
    if task ∈ env.registry.tasks then
      let left := { env with registry := { env.registry with tasks := env.registry.tasks.filter (· ≠ task) } }
      match rejection with
      | some (error, false) => some (recordFailure left error)
      | _ => some left
    else none
  | .waitForQuiescence => some (beginWait env)
  | .drainTurn k =>
    match env.waits[k]? with
    | some (.awaiting idles (.awaiting snapshot)) =>
      if env.registry.entering = [] ∧ snapshotSettled env.registry snapshot then
        some { env with waits := env.waits.set k (.awaiting idles (drain env.registry)) }
      else none
    | _ => none
  | .settled k =>
    match env.waits[k]? with
    | some (.awaiting idles .drained) =>
      if env.registry.entering = [] ∧ idlesResolved env.pools idles then
        some { env with waits := env.waits.set k .rechecking }
      else none
    | _ => none
  | .recheck k =>
    match env.waits[k]? with
    | some .rechecking =>
      if env.registry.entering = [] then
        some { env with waits := env.waits.set k (if quiescent env then .returned else quiescenceTurn env) }
      else none
    | _ => none
  | .finish => some (finish env)
  | .quiesced f =>
    match env.finishes[f]? with
    | some (.quiescing k) =>
      match env.waits[k]? with
      | some .returned | some .threw =>
        if env.registry.entering = [] then
          some (stopPool { env with registry := { env.registry with accepting := false } } f 0)
        else none
      | _ => none
    | _ => none
  | .poolStopped f =>
    match env.finishes[f]? with
    | some (.stoppingPool i) =>
      match env.pools[i]? with
      | some w => if env.registry.entering = [] ∧ w.state = .stopped then some (stopPool env f (i + 1)) else none
      | none => none
    | _ => none
  | .finishDrainTurn f =>
    match env.finishes[f]? with
    | some (.draining (.awaiting snapshot)) =>
      if env.registry.entering = [] ∧ snapshotSettled env.registry snapshot then
        some (setFinish env f (.draining (drain env.registry)))
      else none
    | _ => none
  | .drained f =>
    match env.finishes[f]? with
    | some (.draining .drained) => if env.registry.entering = [] then some (stopStorage env f 0) else none
    | _ => none
  | .storageStopped f rejected =>
    match env.finishes[f]? with
    | some (.stoppingStorage j) =>
      if env.registry.entering = [] then
        some (if rejected then setFinish env f .threw else stopStorage env f (j + 1))
      else none
    | _ => none
  | .waitForCompletion result => some (waitForCompletion env result)
  | .raceEnded c failed =>
    match env.completions[c]? with
    | some .racing => if env.registry.entering = [] then some (raceEnded env c failed) else none
    | _ => none
  | .completed c =>
    match env.completions[c]? with
    | some (.quiescing k) =>
      match env.waits[k]? with
      | some .returned => some { env with completions := env.completions.set c .returned }
      | some .threw => some { env with completions := env.completions.set c .threw }
      | _ => none
    | _ => none

/-- An environment before `start`, its pools newly made. -/
def initial (pools : List WorkflowPool) (storages : Nat) : Environment E := { pools, storages }

end WorkflowEnvironments
