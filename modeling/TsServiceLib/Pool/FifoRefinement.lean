import TsServiceLib.Pool.PoolLaw
import Mathlib.Data.Option.Defs

/-!
The task pool over its linked queue against the same pool over a plain list
with push-back, pop-front and move-to-front. The two stay in step: whatever
the pool does in a run, the pool over the list does as well, with the linked
queue holding the list.
-/
namespace Pools
open Transitions Numbers

/-- A plain list as the queue of a pool. -/
def listed : Discipline Unit (List Nat) where
  empty := []
  length := List.length
  create values _ _ := values
  push values task := values ++ [task]
  take
    | [] => (none, [])
    | task :: rest => (some task, rest)
  promote values task := if task ∈ values then task :: values.erase task else values
  contents values := values

/-- A start without the record of what was queued. -/
def Start.outline (start : Start) : Nat × Nat × Nat × List Nat :=
  (start.task, start.active, start.executorsCount, start.aborted)

def withQueue {A Q R : Type} (p : Pool A Q) (queue : R) (starts : List Start) : Pool A R where
  name := p.name
  availableParallelism := p.availableParallelism
  executorsCount := p.executorsCount
  queue := queue
  active := p.active
  state := p.state
  drain := p.drain
  listeners := p.listeners
  aborted := p.aborted
  submissions := p.submissions
  stage := p.stage
  starts := starts
  executed := p.executed
  stopCalls := p.stopCalls

/-- The pool over a list agrees with the pool in everything, and the linked
    queue holds the list. -/
def Refines (p : Pool Unit (FifoQueue Nat)) (abstract : Pool Unit (List Nat)) : Prop :=
  ∃ values starts, abstract = withQueue p values starts ∧ p.queue.Queued values ∧
    starts.map Start.outline = p.starts.map Start.outline

section Refinement
variable {p : Pool Unit (FifoQueue Nat)} {abstract : Pool Unit (List Nat)}

theorem queued_length {q : FifoQueue Nat} {values : List Nat} (queued : q.Queued values) :
    fifo.length q = values.length := by
  have keys := (FifoQueue.queued_keys queued).length_eq
  rw [← keys]
  exact (List.length_map _).symm

theorem promote_queued {q : FifoQueue Nat} {values : List Nat} (queued : q.Queued values) (task : Nat) :
    (fifo.promote q task).Queued (listed.promote values task) := by
  simp only [fifo, listed]
  split
  · rename_i mem
    exact FifoQueue.moveToFront_queued queued mem
  · rename_i absent
    rw [FifoQueue.moveToFront_absent queued absent]
    exact queued

theorem startNext_refines (refines : Refines p abstract) :
    Option.Rel Refines (startNext fifo p) (startNext listed abstract) := by
  obtain ⟨values, starts, rfl, queued, outlines⟩ := refines
  have length := queued_length queued
  simp only [startNext, length]
  simp only [withQueue]
  change Option.Rel Refines _ (if p.active < p.executorsCount ∧ 0 < values.length then _ else none)
  split
  · cases values with
    | nil =>
      have empty : fifo.take p.queue = (none, p.queue) := FifoQueue.shift_empty queued
      simp only [empty]
      exact .none
    | cons task rest =>
      obtain ⟨found, left⟩ := FifoQueue.shift_queued queued
      have taken : fifo.take p.queue = (some task, p.queue.shift.2) := Prod.ext found rfl
      simp only [taken]
      apply Option.Rel.some
      refine ⟨rest, _, rfl, left, ?_⟩
      simp only [dispatch, List.map_cons, outlines, Start.outline]
  · exact .none

theorem pumpLoop_refines (turns : Nat) (refines : Refines p abstract) :
    Refines (pumpLoop fifo turns p) (pumpLoop listed turns abstract) := by
  induction turns generalizing p abstract with
  | zero => exact refines
  | succ turns ih =>
    have turn := startNext_refines refines
    simp only [pumpLoop]
    generalize startNext fifo p = next at turn
    generalize startNext listed abstract = next' at turn
    cases turn with
    | none => exact refines
    | some follows => exact ih follows

theorem finishDrain_refines (refines : Refines p abstract) :
    Refines (finishDrainIfIdle fifo p) (finishDrainIfIdle listed abstract) := by
  obtain ⟨values, starts, rfl, queued, outlines⟩ := refines
  have length := queued_length queued
  simp only [finishDrainIfIdle, length]
  change Refines _ (if p.state = .stopping ∧ p.active = 0 ∧ values.length = 0 then _ else _)
  split
  · exact ⟨values, starts, rfl, queued, outlines⟩
  · exact ⟨values, starts, rfl, queued, outlines⟩

theorem pump_refines (refines : Refines p abstract) :
    Refines (pump fifo p) (pump listed abstract) := by
  obtain ⟨values, starts, rfl, queued, outlines⟩ := refines
  have length := queued_length queued
  simp only [pump, length]
  change Refines _ (if p.state = .running ∨ p.state = .stopping then
    finishDrainIfIdle listed (pumpLoop listed values.length _) else _)
  split
  · apply finishDrain_refines
    apply pumpLoop_refines
    exact ⟨values, starts, rfl, queued, outlines⟩
  · exact ⟨values, starts, rfl, queued, outlines⟩

theorem cancel_refines (task : Nat) (refines : Refines p abstract) :
    Refines (cancel fifo p task) (cancel listed abstract task) := by
  obtain ⟨values, starts, rfl, queued, outlines⟩ := refines
  apply pump_refines
  exact ⟨_, starts, rfl, promote_queued queued task, outlines⟩

theorem notify_refines {signal : Nat} (tasks : List Nat) (refines : Refines p abstract) :
    Refines (tasks.foldl (notify fifo signal) p) (tasks.foldl (notify listed signal) abstract) := by
  induction tasks generalizing p abstract with
  | nil => exact refines
  | cons task rest ih =>
    apply ih
    obtain ⟨values, starts, rfl, queued, outlines⟩ := refines
    have same : Refines p (withQueue p values starts) := ⟨values, starts, rfl, queued, outlines⟩
    simp only [notify]
    change Refines _ (if task ∈ p.listeners signal then _ else _)
    split
    · exact cancel_refines task same
    · exact same

theorem abort_refines (signal : Nat) (refines : Refines p abstract) :
    Refines (abort fifo p signal) (abort listed abstract signal) := by
  obtain ⟨values, starts, rfl, queued, outlines⟩ := refines
  have fired : Refines { p with aborted := signal :: p.aborted }
      { withQueue p values starts with aborted := signal :: p.aborted } :=
    ⟨values, starts, rfl, queued, outlines⟩
  obtain ⟨values', starts', same, queued', outlines'⟩ := notify_refines (p.listeners signal) fired
  simp only [abort]
  refine ⟨values', starts', ?_, queued', outlines'⟩
  simp only [withQueue] at same ⊢
  rw [same]

theorem accept_refines (refines : Refines p abstract) (submission : Submission Unit)
    (listeners : Nat → List Nat) {task : Nat} (fresh : task ∉ fifo.contents p.queue) :
    Refines
      { p with
        submissions := p.submissions ++ [submission]
        listeners := listeners
        queue := fifo.push p.queue task }
      { abstract with
        submissions := p.submissions ++ [submission]
        listeners := listeners
        queue := listed.push abstract.queue task } := by
  obtain ⟨values, starts, rfl, queued, outlines⟩ := refines
  have absent : task ∉ values := fun mem => fresh ((FifoQueue.queued_keys queued).mem_iff.mpr mem)
  exact ⟨_, starts, rfl, FifoQueue.push_queued queued absent, outlines⟩

theorem addTask_refines (refines : Refines p abstract) (sound : Sound fifoLawful p) (signal : Nat)
    (expired : Bool) (argument : Unit) :
    Refines (orUnchanged p (addTask fifo p signal expired argument))
      (orUnchanged abstract (addTask listed abstract signal expired argument)) := by
  have fresh : p.submissions.length ∉ fifo.contents p.queue := by
    rw [sound.queued]
    omega
  have accepted := pump_refines (accept_refines refines ⟨signal, argument⟩
    (Function.update p.listeners signal (p.listeners signal ++ [p.submissions.length])) fresh)
  obtain ⟨values, starts, rfl, queued, outlines⟩ := refines
  have same : Refines p (withQueue p values starts) := ⟨values, starts, rfl, queued, outlines⟩
  simp only [addTask]
  change Refines _ (orUnchanged _ (if signal ∈ p.aborted ∨ expired = true then _ else
    if p.state = .stopping ∨ p.state = .stopped then _ else _))
  split
  · exact same
  · rename_i usable
    split
    · exact same
    · have live : signal ∉ p.aborted := fun fired => usable (.inl fired)
      have live' : signal ∉ (withQueue p values starts).aborted := live
      simp only [subscribeAbort, live, live', if_false]
      exact accepted

theorem resize_refines (refines : Refines p abstract) (size : Number) :
    Refines (orUnchanged p (resize fifo p size)) (orUnchanged abstract (resize listed abstract size)) := by
  obtain ⟨values, starts, rfl, queued, outlines⟩ := refines
  have same : Refines p (withQueue p values starts) := ⟨values, starts, rfl, queued, outlines⟩
  by_cases ended : p.state = .stopping ∨ p.state = .stopped
  · have first : resize fifo p size = .ok p := by simp only [resize, if_pos ended]
    have second : resize listed (withQueue p values starts) size = .ok (withQueue p values starts) := if_pos ended
    rw [first, second]
    exact same
  · have open' : ¬((withQueue p values starts).state = .stopping ∨ (withQueue p values starts).state = .stopped) := ended
    cases normal : normalizeExecutorsCount p.availableParallelism size with
    | error e =>
      have normal' : normalizeExecutorsCount (withQueue p values starts).availableParallelism size = .error e := normal
      have first : resize fifo p size = .error e := by simp only [resize, if_neg ended, normal]
      have second : resize listed (withQueue p values starts) size = .error e := by
        simp only [resize, if_neg open', normal']
      rw [first, second]
      exact same
    | ok count =>
      have normal' : normalizeExecutorsCount (withQueue p values starts).availableParallelism size = .ok count := normal
      have first : resize fifo p size = .ok (pump fifo { p with executorsCount := count }) := by
        simp only [resize, if_neg ended, normal]
      have second : resize listed (withQueue p values starts) size =
          .ok (pump listed { withQueue p values starts with executorsCount := count }) := by
        simp only [resize, if_neg open', normal']
      rw [first, second]
      apply pump_refines
      exact ⟨values, starts, rfl, queued, outlines⟩

theorem start_refines (refines : Refines p abstract) :
    Refines (orUnchanged p (start fifo p)) (orUnchanged abstract (start listed abstract)) := by
  obtain ⟨values, starts, rfl, queued, outlines⟩ := refines
  simp only [start]
  change Refines _ (orUnchanged _ (if p.state = .created then _ else _))
  split
  · apply pump_refines
    exact ⟨values, starts, rfl, queued, outlines⟩
  · exact ⟨values, starts, rfl, queued, outlines⟩

theorem toStage_refines (refines : Refines p abstract) (task : Nat) (stage : Stage) :
    Refines (toStage p task stage) (toStage abstract task stage) := by
  obtain ⟨values, starts, rfl, queued, outlines⟩ := refines
  exact ⟨values, starts, rfl, queued, outlines⟩

theorem taskFinished_refines (refines : Refines p abstract) (task : Nat) :
    Refines (taskFinished fifo p task) (taskFinished listed abstract task) := by
  apply pump_refines
  obtain ⟨values, starts, rfl, queued, outlines⟩ := refines
  exact ⟨values, starts, rfl, queued, outlines⟩

theorem reported_refines (refines : Refines p abstract) (task : Nat) (path : ErrorPath) :
    Refines (reported fifo p task path) (reported listed abstract task path) := by
  cases path with
  | thrown => exact taskFinished_refines refines task
  | rejected => exact toStage_refines refines task .settled

theorem reportPoolError_refines (refines : Refines p abstract) (task : Nat) (ownReason : Bool)
    (path : ErrorPath) :
    Refines (reportPoolError fifo p task ownReason path)
      (reportPoolError listed abstract task ownReason path) := by
  have same : isTaskCancellation abstract task ownReason = isTaskCancellation p task ownReason := by
    obtain ⟨values, starts, rfl, queued, outlines⟩ := refines
    rfl
  simp only [reportPoolError, same]
  split
  · exact reported_refines refines task path
  · exact toStage_refines refines task (.reporting path)

theorem beginStop_refines (refines : Refines p abstract) :
    Refines (beginStop fifo p) (beginStop listed abstract) := by
  obtain ⟨values, starts, rfl, queued, outlines⟩ := refines
  simp only [beginStop]
  change Refines _ (if p.drain = .absent then _ else _)
  split
  · apply finishDrain_refines
    apply pump_refines
    exact ⟨values, starts, rfl, queued, outlines⟩
  · exact ⟨values, starts, rfl, queued, outlines⟩

theorem stop_refines (refines : Refines p abstract) : Refines (stop fifo p) (stop listed abstract) := by
  have begun := beginStop_refines refines
  obtain ⟨values, starts, rfl, queued, outlines⟩ := refines
  obtain ⟨values', starts', begun_eq, queued', outlines'⟩ := begun
  simp only [stop, begun_eq]
  change Refines _ (if p.state = .stopped then _ else _)
  split
  · exact ⟨values, starts, rfl, queued, outlines⟩
  · refine ⟨values', starts', ?_, queued', outlines'⟩
    simp only [queued_length queued']
    rfl

theorem step_refines {q : Pool Unit (FifoQueue Nat)} {a : Action Unit} (refines : Refines p abstract)
    (sound : Sound fifoLawful p) (next : step fifo p a = some q) :
    ∃ abstract', step listed abstract a = some abstract' ∧ Refines q abstract' := by
  have same_stage : abstract.stage = p.stage := by
    obtain ⟨values, starts, rfl, _⟩ := refines
    rfl
  cases a with
  | start =>
    cases next
    exact ⟨_, rfl, start_refines refines⟩
  | resize size =>
    cases next
    exact ⟨_, rfl, resize_refines refines size⟩
  | addTask signal expired argument =>
    cases next
    exact ⟨_, rfl, addTask_refines refines sound signal expired argument⟩
  | abort signal =>
    have same : abstract.aborted = p.aborted := by
      obtain ⟨values, starts, rfl, _⟩ := refines
      rfl
    simp only [step, same] at next ⊢
    split at next
    · cases next
    · rename_i live
      cases next
      rw [if_neg live]
      exact ⟨_, rfl, abort_refines signal refines⟩
  | run task =>
    simp only [step, same_stage] at next ⊢
    split at next
    · rename_i scheduled
      cases next
      rw [if_pos scheduled]
      refine ⟨_, rfl, ?_⟩
      obtain ⟨values, starts, rfl, queued, outlines⟩ := refines
      exact ⟨values, starts, rfl, queued, outlines⟩
    · cases next
  | throws task ownReason =>
    simp only [step, same_stage] at next ⊢
    split at next
    · rename_i executing
      cases next
      rw [if_pos executing]
      exact ⟨_, rfl, reportPoolError_refines refines task ownReason .thrown⟩
    · cases next
  | returns task =>
    simp only [step, same_stage] at next ⊢
    split at next
    · rename_i executing
      cases next
      rw [if_pos executing]
      exact ⟨_, rfl, toStage_refines refines task .awaiting⟩
    · cases next
  | settles task rejection =>
    simp only [step, same_stage] at next ⊢
    split at next
    · rename_i awaiting
      rw [if_pos awaiting]
      cases rejection with
      | none =>
        cases next
        exact ⟨_, rfl, toStage_refines refines task .settled⟩
      | some ownReason =>
        cases next
        exact ⟨_, rfl, reportPoolError_refines refines task ownReason .rejected⟩
    · cases next
  | reporterEnds task threw =>
    simp only [step, same_stage] at next ⊢
    split at next
    · rename_i path reporting
      cases next
      exact ⟨_, rfl, reported_refines refines task path⟩
    · cases next
  | completes task =>
    simp only [step, same_stage] at next ⊢
    split at next
    · rename_i settled
      cases next
      rw [if_pos settled]
      exact ⟨_, rfl, taskFinished_refines refines task⟩
    · cases next
  | stop =>
    cases next
    exact ⟨_, rfl, stop_refines refines⟩
  | drained call =>
    obtain ⟨values, starts, rfl, queued, outlines⟩ := refines
    simp only [step] at next
    split at next
    · rename_i waiting
      cases next
      exact ⟨_, if_pos waiting, values, starts, rfl, queued, outlines⟩
    · cases next
  | gaveUp call =>
    obtain ⟨values, starts, rfl, queued, outlines⟩ := refines
    simp only [step] at next
    split at next
    · rename_i waiting
      cases next
      exact ⟨_, if_pos waiting, values, starts, rfl, queued, outlines⟩
    · cases next

theorem make_refines {name : String} {availableParallelism : Option Nat} {count : Number}
    (made : make fifo name availableParallelism count = .ok p) :
    ∃ abstract, make listed name availableParallelism count = .ok abstract ∧ Refines p abstract := by
  unfold make at made ⊢
  cases normal : normalizeExecutorsCount availableParallelism count with
  | error e =>
    rw [normal] at made
    cases made
  | ok size =>
    rw [normal] at made
    cases made
    exact ⟨_, rfl, [], [], rfl, FifoQueue.queued_empty, rfl⟩

theorem exec_refines {q : Pool Unit (FifoQueue Nat)} {actions : List (Action Unit)}
    (refines : Refines p abstract) (steady : Steady fifoLawful p)
    (run : exec (step fifo) p actions = some q) :
    ∃ abstract', exec (step listed) abstract actions = some abstract' ∧ Refines q abstract' := by
  apply exec_simulation (Steady fifoLawful) Refines _ _ steady refines run
  · intro s a t held next
    exact step_steady held next
  · intro s s' a t held related next
    exact step_refines related held.sound next

end Refinement

end Pools
