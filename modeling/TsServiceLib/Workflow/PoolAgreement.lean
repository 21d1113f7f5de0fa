import TsServiceLib.Library.Observation
import TsServiceLib.Workflow.WorkflowPool

/-!
The pool inside a workflow orders work as the pools of the live service do.
Seen from outside a pool is started, given tasks, told of aborts and of
completions, and stopped; what happens in a task between its start and its
completion is not seen. Over any such events the two agree on everything that
decides the order, because their comparisons fall on the same side of zero.
-/
namespace WorkflowPools
open Pools Transitions Numbers

inductive Event (A : Type) where
  | start
  | submit (signal : Nat) (expired : Bool) (argument : A)
  | abort (signal : Nat)
  | complete (task : Nat)
  | stop
  deriving DecidableEq

/-- The event an action of the workflow pool shows, `argument` being what the
    pool it stands for is given for a priority. -/
def shown {A : Type} (argument : Number → A) (_ : WorkflowPool) : Action → Option (Event A)
  | .start => some .start
  | .addTask signal expired priority => some (.submit signal expired (argument priority))
  | .abort signal => some (.abort signal)
  | .settles task false => some (.complete task)
  | .reporterEnds task _ => some (.complete task)
  | .stop => some .stop
  | _ => none

def liveShown {A Q : Type} (p : Pool A Q) : Pools.Action A → Option (Event A)
  | .start => some .start
  | .addTask signal expired argument => some (.submit signal expired argument)
  | .abort signal => some (.abort signal)
  | .throws task ownReason => if isTaskCancellation p task ownReason then some (.complete task) else none
  | .reporterEnds task _ => if p.stage task = .reporting .thrown then some (.complete task) else none
  | .completes task => some (.complete task)
  | .stop => some .stop
  | _ => none

/-- A live pool whose executors stay as they were made. -/
def liveStep {A Q : Type} (D : Discipline A Q) (p : Pool A Q) : Pools.Action A → Option (Pool A Q)
  | .resize _ => none
  | a => Pools.step D p a

/-- The queue of the workflow pool does what the queue of a live pool does. -/
structure Mirrors {A Q : Type} (D : Discipline A Q) (argument : Number → A)
    (same : WorkflowQueue → Q → Prop) : Prop where
  length : ∀ {w q}, same w q → w.length = D.length q
  contents : ∀ {w q}, same w q → w.contents = D.contents q
  create : ∀ {w q}, same w q → ∀ task priority, same (w.create task priority) (D.create q task (argument priority))
  push : ∀ {w q}, same w q → ∀ task, same (w.push task) (D.push q task)
  taken : ∀ {w q}, same w q → w.take.1 = (D.take q).1
  rest : ∀ {w q}, same w q → same w.take.2 (D.take q).2
  promote : ∀ {w q}, same w q → ∀ task, same (w.promote task) (D.promote q task)

/-- The two pools have accepted, queued and started the same tasks in the same
    order, and everything their next moves depend on is the same. -/
structure Agrees {A Q : Type} (argument : Number → A) (same : WorkflowQueue → Q → Prop)
    (w : WorkflowPool) (p : Pool A Q) : Prop where
  executors : w.executors = p.executorsCount
  accepted : w.submissions.map (fun submission => ⟨submission.signal, argument submission.argument⟩) = p.submissions
  queue : same w.queue p.queue
  starts : w.starts = p.starts
  active : w.active = p.active
  state : w.state = p.state
  drain : w.drain = p.drain
  listeners : w.listeners = p.listeners
  aborted : w.aborted = p.aborted
  stage : ∀ task, (w.stage task).isActive = (p.stage task).isActive

section Comparison

/-- The two comparisons fall on the same side of zero, whatever the priorities. -/
theorem compareTasks_sides (tasks : Nat → PriorityTask) :
    IndexedHeap.SameSides (compareTasks tasks) (comparePriority tasks) := by
  intro a b
  obtain ⟨below, above⟩ := Number.sub_sides (tasks a).priority (tasks b).priority
  simp only [compareTasks, comparePriority, Number.orElse_eq, below, above]
  by_cases less : (tasks a).priority.lt (tasks b).priority = true
  · simp [less, Number.sign, below]
  · by_cases more : (tasks b).priority.lt (tasks a).priority = true
    · simp [less, more, Number.sign, below, above]
    · have level : ¬((tasks a).priority.lt (tasks b).priority = true ∨ (tasks b).priority.lt (tasks a).priority = true) :=
        not_or.mpr ⟨less, more⟩
      rw [if_neg level, if_neg less, if_neg more, Number.sign_finite]
      rcases Nat.lt_trichotomy (tasks a).sequence (tasks b).sequence with earlier | same | later
      · have negative : ((tasks a).sequence : ℚ) - (tasks b).sequence < 0 := by
          rw [sub_neg]
          exact_mod_cast earlier
        rw [if_pos negative]
        omega
      · simp [same]
      · have positive : (0 : ℚ) < ((tasks a).sequence : ℚ) - (tasks b).sequence := by
          rw [sub_pos]
          exact_mod_cast later
        rw [if_neg (not_lt_of_gt positive), if_pos positive]
        omega

/-- A workflow pool without priorities has the queue of the task pool. -/
def sameFifo (w : WorkflowQueue) (q : FifoQueue Nat) : Prop := w.entries = .fifo q

/-- A workflow pool with priorities has the heap and the task objects of the priority pool. -/
def samePriorities (w : WorkflowQueue) (q : PriorityQueue) : Prop :=
  w = ⟨.heap q.heap, q.tasks, q.sequence⟩

theorem fifo_mirrors : Mirrors fifo (fun _ => ()) sameFifo where
  length same := by simp only [WorkflowQueue.length, sameFifo] at *; rw [same]; rfl
  contents same := by simp only [WorkflowQueue.contents, sameFifo] at *; rw [same]; rfl
  create same _ _ := same
  push same task := by simp only [WorkflowQueue.push, sameFifo] at *; rw [same]; rfl
  taken same := by simp only [WorkflowQueue.take, sameFifo] at *; rw [same]; rfl
  rest same := by simp only [WorkflowQueue.take, sameFifo] at *; rw [same]; rfl
  promote same task := by simp only [WorkflowQueue.promote, sameFifo] at *; rw [same]; rfl

theorem priorities_mirror : Mirrors prioritised id samePriorities where
  length same := by subst same; rfl
  contents same := by subst same; rfl
  create same task priority := by subst same; rfl
  push {w q} same task := by
    subst same
    simp only [WorkflowQueue.push, IndexedHeap.push_sides (compareTasks_sides _)]
    rfl
  taken {w q} same := by
    subst same
    simp only [WorkflowQueue.take, IndexedHeap.pop_sides (compareTasks_sides _)]
    rfl
  rest {w q} same := by
    subst same
    simp only [WorkflowQueue.take, IndexedHeap.pop_sides (compareTasks_sides _)]
    rfl
  promote {w q} same task := by
    subst same
    simp only [WorkflowQueue.promote, IndexedHeap.fix_sides (compareTasks_sides _), prioritised]
    split <;> rfl

end Comparison

section Operations
variable {A Q : Type} {D : Discipline A Q} {argument : Number → A} {same : WorkflowQueue → Q → Prop}
variable {w : WorkflowPool} {p : Pool A Q}

theorem listenersWithout_agrees (agrees : Agrees argument same w p) (task : Nat) :
    listenersWithout w task = Pools.listenersWithout p task := by
  have signals : signalOf w task = Pools.signalOf p task := by
    simp only [signalOf, Pools.signalOf, ← agrees.accepted, List.getElem?_map]
    cases w.submissions[task]? <;> rfl
  cases here : Pools.signalOf p task with
  | none => simp only [listenersWithout, Pools.listenersWithout, signals, here, agrees.listeners]
  | some signal => simp only [listenersWithout, Pools.listenersWithout, signals, here, agrees.listeners]

theorem dispatch_agrees (mirrors : Mirrors D argument same) (agrees : Agrees argument same w p) (task : Nat)
    {queue : WorkflowQueue} {rest : Q} (left : same queue rest) :
    Agrees argument same (dispatch w task queue) (Pools.dispatch D p task rest) := by
  have before := mirrors.contents agrees.queue
  constructor
  · exact agrees.executors
  · exact agrees.accepted
  · exact left
  · simp only [dispatch, Pools.dispatch, agrees.active, agrees.executors, agrees.aborted, agrees.starts, before]
  · simp only [dispatch, Pools.dispatch, agrees.active]
  · exact agrees.state
  · exact agrees.drain
  · exact listenersWithout_agrees agrees task
  · exact agrees.aborted
  · intro other
    simp only [dispatch, Pools.dispatch, Function.update_apply]
    split
    · rfl
    · exact agrees.stage other

theorem startNext_agrees (mirrors : Mirrors D argument same) (agrees : Agrees argument same w p) :
    (startNext w = none ∧ Pools.startNext D p = none) ∨
      ∃ v q, startNext w = some v ∧ Pools.startNext D p = some q ∧ Agrees argument same v q := by
  have taken := mirrors.taken agrees.queue
  have left := mirrors.rest agrees.queue
  simp only [startNext, Pools.startNext, agrees.active, agrees.executors, mirrors.length agrees.queue]
  split
  · rcases found : w.queue.take with ⟨head, queue⟩
    rcases live : D.take p.queue with ⟨head', rest⟩
    rw [found, live] at taken left
    subst taken
    cases head with
    | none => exact .inl ⟨rfl, rfl⟩
    | some task => exact .inr ⟨_, _, rfl, rfl, dispatch_agrees mirrors agrees task left⟩
  · exact .inl ⟨rfl, rfl⟩

theorem pumpLoop_agrees (mirrors : Mirrors D argument same) (turns : Nat) (agrees : Agrees argument same w p) :
    Agrees argument same (pumpLoop turns w) (Pools.pumpLoop D turns p) := by
  induction turns generalizing w p with
  | zero => exact agrees
  | succ turns ih =>
    rcases startNext_agrees mirrors agrees with ⟨rests, idle⟩ | ⟨v, q, next, live, kept⟩
    · simp only [pumpLoop, Pools.pumpLoop, rests, idle]
      exact agrees
    · simp only [pumpLoop, Pools.pumpLoop, next, live]
      exact ih kept

theorem settleIdle_agrees (agrees : Agrees argument same w p) : Agrees argument same (settleIdle w) p := by
  unfold settleIdle
  split
  · exact agrees
  · exact { agrees with }

theorem finishDrain_agrees (mirrors : Mirrors D argument same) (agrees : Agrees argument same w p) :
    Agrees argument same (finishDrainIfIdle w) (Pools.finishDrainIfIdle D p) := by
  have settled := settleIdle_agrees agrees
  simp only [finishDrainIfIdle, Pools.finishDrainIfIdle, agrees.active, mirrors.length agrees.queue, settled.state]
  by_cases idle : p.active = 0 ∧ D.length p.queue = 0
  · by_cases stopping : p.state = .stopping
    · rw [if_pos idle, if_pos stopping, if_pos ⟨stopping, idle⟩]
      exact { settled with state := rfl, drain := rfl }
    · rw [if_pos idle, if_neg stopping, if_neg fun both => stopping both.1]
      exact settled
  · rw [if_neg idle, if_neg fun both => idle both.2]
    exact agrees

theorem pump_agrees (mirrors : Mirrors D argument same) (agrees : Agrees argument same w p) :
    Agrees argument same (pump w) (Pools.pump D p) := by
  simp only [pump, Pools.pump, agrees.state, mirrors.length agrees.queue]
  split
  · exact finishDrain_agrees mirrors (pumpLoop_agrees mirrors _ agrees)
  · exact agrees

theorem start_agrees (mirrors : Mirrors D argument same) (agrees : Agrees argument same w p) :
    Agrees argument same (orUnchanged w (start w)) (Pools.orUnchanged p (Pools.start D p)) := by
  simp only [start, Pools.start, agrees.state]
  split
  · exact pump_agrees mirrors { agrees with state := rfl }
  · exact agrees

theorem cancel_agrees (mirrors : Mirrors D argument same) (agrees : Agrees argument same w p) (task : Nat) :
    Agrees argument same (cancel w task) (Pools.cancel D p task) := by
  apply pump_agrees mirrors
  exact { agrees with queue := mirrors.promote agrees.queue task }

theorem renewIdle_agrees (agrees : Agrees argument same w p) : Agrees argument same (renewIdle w) p := by
  unfold renewIdle
  split
  · exact { agrees with }
  · exact agrees

theorem subscribeAbort_agrees (mirrors : Mirrors D argument same) (agrees : Agrees argument same w p)
    (signal task : Nat) :
    Agrees argument same (subscribeAbort w signal task) (Pools.subscribeAbort D p signal task) := by
  unfold subscribeAbort Pools.subscribeAbort
  by_cases fired : signal ∈ p.aborted
  · rw [if_pos fired, if_pos (agrees.aborted ▸ fired)]
    exact cancel_agrees mirrors agrees task
  · rw [if_neg fired, if_neg (agrees.aborted ▸ fired)]
    exact { agrees with listeners := by simp only [agrees.listeners] }

theorem addTask_agrees (mirrors : Mirrors D argument same) (agrees : Agrees argument same w p) (signal : Nat)
    (expired : Bool) (priority : Number) :
    Agrees argument same (orUnchanged w (addTask w signal expired priority))
      (Pools.orUnchanged p (Pools.addTask D p signal expired (argument priority))) := by
  simp only [addTask, Pools.addTask, agrees.aborted, agrees.state]
  split
  · exact agrees
  · split
    · exact agrees
    · have renewed := renewIdle_agrees agrees
      have task : (renewIdle w).submissions.length = p.submissions.length := by
        rw [← renewed.accepted, List.length_map]
      simp only [orUnchanged, Pools.orUnchanged, task]
      have created : Agrees argument same
          { renewIdle w with
            submissions := (renewIdle w).submissions ++ [⟨signal, priority⟩]
            queue := (renewIdle w).queue.create p.submissions.length priority }
          { p with
            submissions := p.submissions ++ [⟨signal, argument priority⟩]
            queue := D.create p.queue p.submissions.length (argument priority) } :=
        { renewed with
          accepted := by rw [List.map_append, renewed.accepted]; rfl
          queue := mirrors.create renewed.queue _ _ }
      have subscribed := subscribeAbort_agrees mirrors created signal p.submissions.length
      exact pump_agrees mirrors { subscribed with queue := mirrors.push subscribed.queue _ }

theorem notify_agrees (mirrors : Mirrors D argument same) (signal : Nat) (tasks : List Nat)
    (agrees : Agrees argument same w p) :
    Agrees argument same (tasks.foldl (notify signal) w) (tasks.foldl (Pools.notify D signal) p) := by
  induction tasks generalizing w p with
  | nil => exact agrees
  | cons task rest ih =>
    apply ih
    simp only [notify, Pools.notify, agrees.listeners]
    split
    · exact cancel_agrees mirrors agrees task
    · exact agrees

theorem abort_agrees (mirrors : Mirrors D argument same) (agrees : Agrees argument same w p) (signal : Nat) :
    Agrees argument same (abort w signal) (Pools.abort D p signal) := by
  have fired : Agrees argument same { w with aborted := signal :: w.aborted }
      { p with aborted := signal :: p.aborted } := { agrees with aborted := by rw [agrees.aborted] }
  have notified := notify_agrees mirrors signal (p.listeners signal) fired
  simp only [abort, Pools.abort, agrees.listeners] at notified ⊢
  exact { notified with listeners := by simp only [notified.listeners] }

theorem stop_agrees (mirrors : Mirrors D argument same) (agrees : Agrees argument same w p) :
    Agrees argument same (stop w) (Pools.stop D p) := by
  simp only [stop, Pools.stop, Pools.beginStop, agrees.state, agrees.drain]
  split
  · exact { agrees with }
  · split
    · have begun : Agrees argument same { w with state := .stopping, drain := .pending }
          { p with state := .stopping, drain := .pending } := { agrees with state := rfl, drain := rfl }
      have ended := finishDrain_agrees mirrors (pump_agrees mirrors begun)
      exact { ended with }
    · exact { agrees with }

/-- A task that stays active on both sides, or is left as it is. -/
theorem toStage_agrees (agrees : Agrees argument same w p) {task : Nat} {stage : Stage}
    (active : stage.isActive = (p.stage task).isActive) : Agrees argument same (toStage w task stage) p := by
  have kept : ∀ other, ((toStage w task stage).stage other).isActive = (p.stage other).isActive := by
    intro other
    simp only [toStage, Function.update_apply]
    split
    · rename_i here
      rw [here, active]
    · exact agrees.stage other
  exact { agrees with stage := kept }

theorem liveToStage_agrees (agrees : Agrees argument same w p) {task : Nat} {stage : Pools.Stage}
    (active : stage.isActive = (p.stage task).isActive) : Agrees argument same w (Pools.toStage p task stage) := by
  have kept : ∀ other, (w.stage other).isActive = ((Pools.toStage p task stage).stage other).isActive := by
    intro other
    simp only [Pools.toStage, Function.update_apply]
    split
    · rename_i here
      rw [here, active]
      exact agrees.stage task
    · exact agrees.stage other
  exact { agrees with stage := kept }

theorem taskFinished_agrees (mirrors : Mirrors D argument same) (agrees : Agrees argument same w p) (task : Nat) :
    Agrees argument same (taskFinished w task) (Pools.taskFinished D p task) := by
  apply pump_agrees mirrors
  have ended : ∀ other, (Function.update w.stage task Stage.finished other).isActive =
      (Function.update p.stage task Pools.Stage.finished other).isActive := by
    intro other
    simp only [Function.update_apply]
    split
    · rfl
    · exact agrees.stage other
  exact { agrees with active := by simp only [agrees.active], stage := ended }

end Operations

section Runs
variable {A Q : Type} {D : Discipline A Q} {argument : Number → A} {same : WorkflowQueue → Q → Prop}
variable {w : WorkflowPool} {p : Pool A Q}

def Does (argument : Number → A) (w : WorkflowPool) : Event A → WorkflowPool → Prop
  | .start, v => v = orUnchanged w (start w)
  | .submit signal expired x, v =>
    ∃ priority, argument priority = x ∧ v = orUnchanged w (addTask w signal expired priority)
  | .abort signal, v => signal ∉ w.aborted ∧ v = abort w signal
  | .complete task, v => (w.stage task).isActive = true ∧ v = taskFinished w task
  | .stop, v => v = stop w

def LiveDoes (D : Discipline A Q) (p : Pool A Q) : Event A → Pool A Q → Prop
  | .start, q => q = Pools.orUnchanged p (Pools.start D p)
  | .submit signal expired x, q => q = Pools.orUnchanged p (Pools.addTask D p signal expired x)
  | .abort signal, q => signal ∉ p.aborted ∧ q = Pools.abort D p signal
  | .complete task, q => (p.stage task).isActive = true ∧ q = Pools.taskFinished D p task
  | .stop, q => q = Pools.stop D p

theorem shown_does {a : Action} {e : Event A} {v : WorkflowPool} (here : shown argument w a = some e)
    (next : step w a = some v) : Does argument w e v := by
  have ended : ∀ {task stage}, w.stage task = stage → stage.isActive = true → (w.stage task).isActive = true := by
    intro task stage at_stage active
    rw [at_stage, active]
  cases a with
  | start => cases here; cases next; rfl
  | addTask signal expired priority => cases here; cases next; exact ⟨priority, rfl, rfl⟩
  | abort signal =>
    cases here
    simp only [step] at next
    split at next
    · cases next
    · rename_i live
      cases next
      exact ⟨live, rfl⟩
  | run task => cases here
  | throws task => cases here
  | returns task => cases here
  | settles task rejected =>
    cases rejected with
    | true => cases here
    | false =>
      cases here
      simp only [step] at next
      split at next
      · rename_i awaiting
        cases next
        exact ⟨ended awaiting rfl, rfl⟩
      · cases next
  | reporterEnds task threw =>
    cases here
    simp only [step] at next
    split at next
    · rename_i reporting
      cases next
      exact ⟨ended reporting rfl, rfl⟩
    · cases next
  | stop => cases here; cases next; rfl

theorem liveShown_does {a : Pools.Action A} {e : Event A} {q : Pool A Q} (here : liveShown p a = some e)
    (next : liveStep D p a = some q) : LiveDoes D p e q := by
  have ended : ∀ {task stage}, p.stage task = stage → stage.isActive = true → (p.stage task).isActive = true := by
    intro task stage at_stage active
    rw [at_stage, active]
  cases a with
  | start => cases here; cases next; rfl
  | resize size => cases here
  | addTask signal expired x => cases here; cases next; rfl
  | abort signal =>
    cases here
    simp only [liveStep, Pools.step] at next
    split at next
    · cases next
    · rename_i live
      cases next
      exact ⟨live, rfl⟩
  | run task => cases here
  | throws task ownReason =>
    simp only [liveShown] at here
    split at here
    · rename_i cancellation
      cases here
      simp only [liveStep, Pools.step] at next
      split at next
      · rename_i executing
        cases next
        refine ⟨ended executing rfl, ?_⟩
        simp only [reportPoolError, cancellation, if_true, reported]
      · cases next
    · cases here
  | returns task => cases here
  | settles task rejection => cases here
  | reporterEnds task threw =>
    simp only [liveShown] at here
    split at here
    · rename_i reporting
      cases here
      simp only [liveStep, Pools.step, reporting] at next
      cases next
      exact ⟨ended reporting rfl, rfl⟩
    · cases here
  | completes task =>
    cases here
    simp only [liveStep, Pools.step] at next
    split at next
    · rename_i settled
      cases next
      exact ⟨ended settled rfl, rfl⟩
    · cases next
  | stop => cases here; cases next; rfl
  | drained call => cases here
  | gaveUp call => cases here

theorem quiet_agrees (agrees : Agrees argument same w p) {a : Action} {v : WorkflowPool}
    (quiet : shown argument w a = none) (next : step w a = some v) : Agrees argument same v p := by
  have active : ∀ {task stage}, w.stage task = stage → stage.isActive = true → true = (p.stage task).isActive := by
    intro task stage at_stage still
    rw [← agrees.stage task, at_stage, still]
  cases a with
  | start => cases quiet
  | addTask signal expired priority => cases quiet
  | abort signal => cases quiet
  | run task =>
    simp only [step] at next
    split at next
    · rename_i scheduled
      cases next
      exact toStage_agrees agrees (active scheduled rfl)
    · cases next
  | throws task =>
    simp only [step] at next
    split at next
    · rename_i executing
      cases next
      exact toStage_agrees agrees (active executing rfl)
    · cases next
  | returns task =>
    simp only [step] at next
    split at next
    · rename_i executing
      cases next
      exact toStage_agrees agrees (active executing rfl)
    · cases next
  | settles task rejected =>
    cases rejected with
    | false => cases quiet
    | true =>
      simp only [step] at next
      split at next
      · rename_i awaiting
        cases next
        exact toStage_agrees agrees (active awaiting rfl)
      · cases next
  | reporterEnds task threw => cases quiet
  | stop => cases quiet

theorem liveQuiet_agrees (agrees : Agrees argument same w p) {a : Pools.Action A} {q : Pool A Q}
    (quiet : liveShown p a = none) (next : liveStep D p a = some q) : Agrees argument same w q := by
  have active : ∀ {task stage}, p.stage task = stage → stage.isActive = true → true = (p.stage task).isActive := by
    intro task stage at_stage still
    rw [at_stage, still]
  cases a with
  | start => cases quiet
  | resize size => cases next
  | addTask signal expired x => cases quiet
  | abort signal => cases quiet
  | run task =>
    simp only [liveStep, Pools.step] at next
    split at next
    · rename_i scheduled
      cases next
      have sent : Agrees argument same w (Pools.toStage p task .executing) :=
        liveToStage_agrees agrees (active scheduled rfl)
      exact { sent with }
    · cases next
  | throws task ownReason =>
    simp only [liveShown] at quiet
    split at quiet
    · cases quiet
    · rename_i foreign
      simp only [liveStep, Pools.step] at next
      split at next
      · rename_i executing
        cases next
        simp only [reportPoolError, foreign, Bool.false_eq_true, if_false]
        exact liveToStage_agrees agrees (active executing rfl)
      · cases next
  | returns task =>
    simp only [liveStep, Pools.step] at next
    split at next
    · rename_i executing
      cases next
      exact liveToStage_agrees agrees (active executing rfl)
    · cases next
  | settles task rejection =>
    simp only [liveStep, Pools.step] at next
    split at next
    · rename_i awaiting
      cases rejection with
      | none =>
        cases next
        exact liveToStage_agrees agrees (active awaiting rfl)
      | some ownReason =>
        cases next
        simp only [reportPoolError, reported]
        split
        · exact liveToStage_agrees agrees (active awaiting rfl)
        · exact liveToStage_agrees agrees (active awaiting rfl)
    · cases next
  | reporterEnds task threw =>
    simp only [liveShown] at quiet
    split at quiet
    · cases quiet
    · rename_i elsewhere
      simp only [liveStep, Pools.step] at next
      split at next
      · rename_i path reporting
        cases path with
        | thrown => exact absurd reporting elsewhere
        | rejected =>
          cases next
          exact liveToStage_agrees agrees (active reporting rfl)
      · cases next
  | completes task => cases quiet
  | stop => cases quiet
  | drained call =>
    simp only [liveStep, Pools.step] at next
    split at next
    · cases next
      exact { agrees with }
    · cases next
  | gaveUp call =>
    simp only [liveStep, Pools.step] at next
    split at next
    · cases next
      exact { agrees with }
    · cases next

theorem does_agrees (mirrors : Mirrors D argument same) (agrees : Agrees argument same w p) {e : Event A}
    {v : WorkflowPool} {q : Pool A Q} (does : Does argument w e v) (live : LiveDoes D p e q) :
    Agrees argument same v q := by
  cases e with
  | start =>
    subst does live
    exact start_agrees mirrors agrees
  | submit signal expired x =>
    obtain ⟨priority, rfl, rfl⟩ := does
    subst live
    exact addTask_agrees mirrors agrees signal expired priority
  | abort signal =>
    obtain ⟨_, rfl⟩ := does
    obtain ⟨_, rfl⟩ := live
    exact abort_agrees mirrors agrees signal
  | complete task =>
    obtain ⟨_, rfl⟩ := does
    obtain ⟨_, rfl⟩ := live
    exact taskFinished_agrees mirrors agrees task
  | stop =>
    subst does live
    exact stop_agrees mirrors agrees

/-- An active task gets to its end without an event in between. -/
theorem nearly_finished {task : Nat} (active : (w.stage task).isActive = true) :
    ∃ v, Shows step (shown argument) w [] v ∧ (v.stage task = .awaiting ∨ v.stage task = .reporting) := by
  have from_executing : ∀ v : WorkflowPool, v.stage task = .executing →
      Shows step (shown argument) v [] (toStage v task .awaiting) := by
    intro v executing
    have next : step v (.returns task) = some (toStage v task .awaiting) := by simp only [step, executing, if_true]
    exact .silent rfl next (.refl _)
  cases at_stage : w.stage task with
  | waiting => rw [at_stage] at active; cases active
  | scheduled =>
    have next : step w (.run task) = some (toStage w task .executing) := by simp only [step, at_stage, if_true]
    have executing : (toStage w task .executing).stage task = .executing := Function.update_self ..
    exact ⟨_, .silent rfl next (from_executing _ executing), .inl (Function.update_self ..)⟩
  | executing => exact ⟨_, from_executing w at_stage, .inl (Function.update_self ..)⟩
  | awaiting => exact ⟨w, .refl w, .inl at_stage⟩
  | reporting => exact ⟨w, .refl w, .inr at_stage⟩
  | finished => rw [at_stage] at active; cases active

theorem live_nearly_finished {task : Nat} (active : (p.stage task).isActive = true) :
    ∃ q, Shows (liveStep D) liveShown p [] q ∧
      (q.stage task = .settled ∨ q.stage task = .reporting .thrown) := by
  have from_awaiting : ∀ q : Pool A Q, q.stage task = .awaiting →
      Shows (liveStep D) liveShown q [] (Pools.toStage q task .settled) := by
    intro q awaiting
    have next : liveStep D q (.settles task none) = some (Pools.toStage q task .settled) := by
      simp only [liveStep, Pools.step, awaiting, if_true]
    exact .silent rfl next (.refl _)
  have from_executing : ∀ q : Pool A Q, q.stage task = .executing →
      Shows (liveStep D) liveShown q [] (Pools.toStage (Pools.toStage q task .awaiting) task .settled) := by
    intro q executing
    have next : liveStep D q (.returns task) = some (Pools.toStage q task .awaiting) := by
      simp only [liveStep, Pools.step, executing, if_true]
    exact .silent rfl next (from_awaiting _ (Function.update_self ..))
  cases at_stage : p.stage task with
  | waiting => rw [at_stage] at active; cases active
  | scheduled =>
    have next : liveStep D p (.run task) =
        some { Pools.toStage p task .executing with executed := task :: p.executed } := by
      simp only [liveStep, Pools.step, at_stage, if_true]
    exact ⟨_, .silent rfl next (from_executing _ (Function.update_self ..)), .inl (Function.update_self ..)⟩
  | executing => exact ⟨_, from_executing p at_stage, .inl (Function.update_self ..)⟩
  | awaiting => exact ⟨_, from_awaiting p at_stage, .inl (Function.update_self ..)⟩
  | reporting path =>
    cases path with
    | thrown => exact ⟨p, .refl p, .inr at_stage⟩
    | rejected =>
      have next : liveStep D p (.reporterEnds task false) = some (Pools.toStage p task .settled) := by
        simp only [liveStep, Pools.step, at_stage, reported]
      have quiet : liveShown p (.reporterEnds task false) = none := by simp [liveShown, at_stage]
      exact ⟨_, .silent quiet next (.refl _), .inl (Function.update_self ..)⟩
  | settled => exact ⟨p, .refl p, .inl at_stage⟩
  | finished => rw [at_stage] at active; cases active

theorem answers (mirrors : Mirrors D argument same) (onto : ∀ x, ∃ priority, argument priority = x)
    (agrees : Agrees argument same w p) {e : Event A} {q : Pool A Q} (live : LiveDoes D p e q) :
    ∃ v, Shows step (shown argument) w [e] v ∧ Agrees argument same v q := by
  have single : ∀ {a : Action} {v : WorkflowPool}, shown argument w a = some e → step w a = some v →
      ∃ v, Shows step (shown argument) w [e] v ∧ Agrees argument same v q :=
    fun here next => ⟨_, shows_one here next, does_agrees mirrors agrees (shown_does here next) live⟩
  cases e with
  | start => exact single (a := .start) rfl rfl
  | submit signal expired x =>
    obtain ⟨priority, rfl⟩ := onto x
    exact single (a := .addTask signal expired priority) rfl rfl
  | abort signal =>
    have fresh : signal ∉ w.aborted := agrees.aborted ▸ live.1
    exact single (a := .abort signal) rfl (if_neg fresh)
  | complete task =>
    have active : (w.stage task).isActive = true := (agrees.stage task).trans live.1
    obtain ⟨u, quiet, near⟩ : ∃ u, Shows step (shown argument) w [] u ∧ (u.stage task = .awaiting ∨ u.stage task = .reporting) :=
      nearly_finished active
    have still := shows_quiet (Agrees argument same · p) (fun _ _ _ held hush next => quiet_agrees held hush next) quiet agrees
    have ended := taskFinished_agrees mirrors still task
    rw [← live.2] at ended
    rcases near with awaiting | reporting
    · have next : step u (.settles task false) = some (taskFinished u task) := by simp [step, awaiting]
      exact ⟨_, shows_append quiet (shows_one rfl next), ended⟩
    · have next : step u (.reporterEnds task false) = some (taskFinished u task) := by simp [step, reporting]
      exact ⟨_, shows_append quiet (shows_one rfl next), ended⟩
  | stop => exact single (a := .stop) rfl rfl

theorem live_answers (mirrors : Mirrors D argument same) (agrees : Agrees argument same w p) {e : Event A}
    {v : WorkflowPool} (does : Does argument w e v) :
    ∃ q, Shows (liveStep D) liveShown p [e] q ∧ Agrees argument same v q := by
  have single : ∀ {a : Pools.Action A} {q : Pool A Q}, liveShown p a = some e → liveStep D p a = some q →
      ∃ q, Shows (liveStep D) liveShown p [e] q ∧ Agrees argument same v q :=
    fun here next => ⟨_, shows_one here next, does_agrees mirrors agrees does (liveShown_does here next)⟩
  cases e with
  | start => exact single (a := .start) rfl rfl
  | submit signal expired x => exact single (a := .addTask signal expired x) rfl rfl
  | abort signal =>
    have fresh : signal ∉ p.aborted := agrees.aborted ▸ does.1
    exact single (a := .abort signal) rfl (if_neg fresh)
  | complete task =>
    have active : (p.stage task).isActive = true := (agrees.stage task).symm.trans does.1
    obtain ⟨u, quiet, near⟩ := live_nearly_finished (D := D) active
    have still := shows_quiet (Agrees argument same w) (fun _ _ _ held hush next => liveQuiet_agrees held hush next) quiet agrees
    have ended := taskFinished_agrees mirrors still task
    rw [← does.2] at ended
    rcases near with settled | reporting
    · have next : liveStep D u (.completes task) = some (Pools.taskFinished D u task) := by
        simp [liveStep, Pools.step, settled]
      exact ⟨_, shows_append quiet (shows_one rfl next), ended⟩
    · have next : liveStep D u (.reporterEnds task false) = some (Pools.taskFinished D u task) := by
        simp [liveStep, Pools.step, reporting, reported]
      have here : liveShown u (.reporterEnds task false) = some (.complete task) := by simp [liveShown, reporting]
      exact ⟨_, shows_append quiet (shows_one here next), ended⟩
  | stop => exact single (a := .stop) rfl rfl

/-- Two pools in step: any events one of them can go through the other can,
    and after the same events they agree. -/
def InStep (D : Discipline A Q) (argument : Number → A) (same : WorkflowQueue → Q → Prop) (w : WorkflowPool)
    (p : Pool A Q) : Prop :=
  ∀ events : List (Event A),
    ((∃ v, Shows step (shown argument) w events v) ↔ ∃ q, Shows (liveStep D) liveShown p events q) ∧
    ∀ v q, Shows step (shown argument) w events v → Shows (liveStep D) liveShown p events q →
      Agrees argument same v q

theorem agrees_inStep (mirrors : Mirrors D argument same) (onto : ∀ x, ∃ priority, argument priority = x)
    (agrees : Agrees argument same w p) : InStep D argument same w p := by
  intro events
  constructor
  · constructor
    · rintro ⟨v, run⟩
      obtain ⟨q, run', _⟩ := shows_simulation (fun w p => Agrees argument same w p)
        (fun _ _ _ _ held hush next => quiet_agrees held hush next)
        (fun _ _ _ _ _ held here next => live_answers mirrors held (shown_does here next)) run agrees
      exact ⟨q, run'⟩
    · rintro ⟨q, run⟩
      obtain ⟨v, run', _⟩ := shows_simulation (fun p w => Agrees argument same w p)
        (fun _ _ _ _ held hush next => liveQuiet_agrees held hush next)
        (fun _ _ _ _ _ held here next => answers mirrors onto held (liveShown_does here next)) run agrees
      exact ⟨v, run'⟩
  · intro v q run run'
    exact shows_lockstep (Agrees argument same) (fun _ _ _ _ held hush next => quiet_agrees held hush next)
      (fun _ _ _ _ held hush next => liveQuiet_agrees held hush next)
      (fun _ _ _ _ _ _ _ held here here' next next' =>
        does_agrees mirrors held (shown_does here next) (liveShown_does here' next')) run run' agrees

theorem make_agrees {name : String} {parallelism : Option Nat} {executors : Number} {priority : Bool}
    (chosen : executors ≠ .finite 0) (made : make name executors priority = .ok w)
    (live : Pools.make D name parallelism executors = .ok p) (empty : same (.make priority) D.empty) :
    Agrees argument same w p := by
  cases executors with
  | finite count =>
    have nonzero : count ≠ 0 := fun zero => chosen (by rw [zero])
    simp only [make] at made
    simp only [Pools.make, normalizeExecutorsCount] at live
    split at made
    · cases made
    · rename_i sized
      rw [if_neg sized] at live
      cases made
      cases live
      exact ⟨by simp only [nonzero, if_false], rfl, empty, rfl, rfl, rfl, rfl, rfl, rfl, fun _ => rfl⟩
  | nan => cases made
  | negInfinity => cases made
  | posInfinity => cases made

end Runs

/- For every number of executors a pool can be made with, zero apart, the
   workflow pools and the pools of the live service go through the same events,
   and whatever the priorities they accept, queue and start the same tasks in
   the same order. -/
theorem workflow_pools_agree (name : String) (parallelism : Option Nat) (executors : Number)
    (chosen : executors ≠ .finite 0) :
    (∀ w p, make name executors false = .ok w → Pools.make fifo name parallelism executors = .ok p →
      InStep fifo (fun _ => ()) sameFifo w p) ∧
    (∀ w p, make name executors true = .ok w → Pools.make prioritised name parallelism executors = .ok p →
      InStep prioritised id samePriorities w p) := by
  constructor
  · intro w p made live
    have agrees : Agrees (fun _ => ()) sameFifo w p := make_agrees chosen made live rfl
    exact agrees_inStep fifo_mirrors (fun _ => ⟨.finite 0, rfl⟩) agrees
  · intro w p made live
    have agrees : Agrees id samePriorities w p := make_agrees chosen made live rfl
    exact agrees_inStep priorities_mirror (fun priority => ⟨priority, rfl⟩) agrees

/-- Two infinite priorities, a tie of two others and an abort; the starts are
    listed with the latest first. -/
theorem workflow_pools_agree_tie :
    ∃ w p v q events, make "p" (.finite 1) true = .ok w ∧ Pools.make prioritised "p" none (.finite 1) = .ok p ∧
      InStep prioritised id samePriorities w p ∧ Agrees id samePriorities v q ∧
      Shows step (shown id) w events v ∧ v.starts.map Start.task = [1, 0, 3, 2] := by
  let actions : List Action :=
    [.addTask 0 false .posInfinity, .addTask 1 false .posInfinity, .addTask 2 false (.finite 7), .addTask 3 false (.finite 7),
      .abort 2, .start, .run 2, .returns 2, .settles 2 false, .run 3, .throws 3, .reporterEnds 3 true, .stop,
      .run 0, .returns 0, .settles 0 true, .reporterEnds 0 false]
  let w : WorkflowPool := { name := "p", executors := 1, queue := .make true }
  let p : Pool Number PriorityQueue := { name := "p", availableParallelism := none, executorsCount := 1, queue := prioritised.empty }
  have inStep := (workflow_pools_agree "p" none (.finite 1) (by decide)).2 w p (by rfl) (by rfl)
  have runs : (execShown step (shown id) w actions).map (fun r => r.2.starts.map Start.task) = some [1, 0, 3, 2] := by
    decide +kernel
  obtain ⟨⟨events, v⟩, run, order⟩ := Option.map_eq_some_iff.mp runs
  have shows := execShown_shows run
  obtain ⟨q, live⟩ := (inStep events).1.mp ⟨v, shows⟩
  exact ⟨w, p, v, q, events, by rfl, by rfl, inStep, (inStep events).2 v q shows live, shows, order⟩

end WorkflowPools
