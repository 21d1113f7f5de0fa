import TsServiceLib.Pool.PoolLaw
import Mathlib.Data.Prod.Lex

/-!
The dispatch order of the priority pool. A task is ranked by its priority, or
minus infinity once its context is aborted, and then by its place among the
submissions. The heap is kept in that order through pushes, pops and the
change of rank an abort makes, so what the pump takes is least.
-/
namespace Pools
open Transitions Numbers

/-- The priority of a submission, given the signals that have fired. -/
def effectivePriority (submission : Submission Number) (aborted : List Nat) : Number :=
  if submission.signal ∈ aborted then .negInfinity else submission.argument

noncomputable def rank (submissions : List (Submission Number)) (aborted : List Nat) (task : Nat) :
    WithBot (WithTop ℚ) ×ₗ Nat :=
  match submissions[task]? with
  | some submission => toLex ((effectivePriority submission aborted).place, task)
  | none => toLex (⊥, task)

def Ordinary (_ : Pool Number PriorityQueue) : Action Number → Prop
  | .addTask _ _ priority => priority.isNaN = false
  | _ => True

section Comparison
variable {tasks : Nat → PriorityTask}

/-- The key the comparison reads from a task object. -/
noncomputable def key (task : PriorityTask) : WithBot (WithTop ℚ) ×ₗ Nat :=
  toLex (task.priority.place, task.sequence)

theorem comparePriority_byKey (numbers : ∀ t, (tasks t).priority.isNaN = false) :
    IndexedHeap.ByKey (comparePriority tasks) (fun t => (tasks t).priority.place)
      (fun t => (tasks t).sequence) := by
  intro a b
  simp only [comparePriority, Number.lt_iff_place (numbers a) (numbers b),
    Number.lt_iff_place (numbers b) (numbers a)]

theorem notAfter_iff_key (numbers : ∀ t, (tasks t).priority.isNaN = false) (a b : Nat) :
    IndexedHeap.NotAfter (comparePriority tasks) a b ↔ key (tasks a) ≤ key (tasks b) :=
  IndexedHeap.notAfter_byKey (comparePriority_byKey numbers) a b

theorem comparePriority_ranks (numbers : ∀ t, (tasks t).priority.isNaN = false) :
    IndexedHeap.Ranks (comparePriority tasks) :=
  IndexedHeap.byKey_ranks (comparePriority_byKey numbers)

end Comparison

/-- The heap of a priority queue is in the order of its task objects. -/
structure Ranked (q : PriorityQueue) : Prop where
  valid : q.heap.Valid (comparePriority q.tasks)
  numbers : ∀ t, (q.tasks t).priority.isNaN = false

def expedited (task : PriorityTask) : PriorityTask := { task with priority := .negInfinity }

section Queue
variable {q : PriorityQueue}

theorem promote_eq (task : Nat) :
    prioritised.promote q task =
      if q.heap.has task then
        { q with
          tasks := Function.update q.tasks task (expedited (q.tasks task))
          heap := q.heap.fix
            (comparePriority (Function.update q.tasks task (expedited (q.tasks task)))) task }
      else q := rfl

theorem has_iff_mem (ranked : Ranked q) (task : Nat) :
    q.heap.has task = true ↔ task ∈ q.heap.items := by
  unfold IndexedHeap.has
  rw [OrderedMaps.OrderedMap.has_iff]
  constructor
  · rintro ⟨i, found⟩
    exact List.mem_of_getElem? ((ranked.valid.indexed task i).mp found)
  · intro mem
    obtain ⟨i, found, _⟩ := IndexedHeap.indexed_mem ranked.valid.indexed mem
    exact ⟨i, found⟩

/-- Promoting a queued task ranks it first among its equals and keeps the order. -/
theorem promote_ranked (ranked : Ranked q) (task : Nat) :
    Ranked (prioritised.promote q task) ∧
      (∀ t, t ∈ (prioritised.promote q task).heap.items ↔ t ∈ q.heap.items) ∧
      (prioritised.promote q task).sequence = q.sequence ∧
      ∀ t, (prioritised.promote q task).tasks t =
        if t = task ∧ t ∈ q.heap.items then expedited (q.tasks t) else q.tasks t := by
  rw [promote_eq]
  split
  · rename_i present
    have member := (has_iff_mem ranked task).mp present
    have numbers : ∀ t, (Function.update q.tasks task (expedited (q.tasks task)) t).priority.isNaN =
        false := by
      intro t
      rw [Function.update_apply]
      split
      · rfl
      · exact ranked.numbers t
    refine ⟨⟨?_, numbers⟩, ?_, rfl, ?_⟩
    · apply IndexedHeap.fix_valid (comparePriority_ranks ranked.numbers)
        (comparePriority_ranks numbers) ranked.valid member
      intro x y other another
      simp only [comparePriority, Function.update_of_ne other, Function.update_of_ne another]
    · intro t
      exact (IndexedHeap.fix_keeps _ task ranked.valid.indexed).2.mem_iff
    · intro t
      simp only [Function.update_apply]
      rcases eq_or_ne t task with same | other
      · simp [same, member]
      · simp [other]
  · rename_i missing
    have absent : task ∉ q.heap.items := fun mem => missing ((has_iff_mem ranked task).mpr mem)
    refine ⟨ranked, fun t => Iff.rfl, rfl, ?_⟩
    intro t
    rw [if_neg]
    rintro ⟨same, mem⟩
    exact absent (same ▸ mem)

theorem promoteAll_ranked (ranked : Ranked q) (tasks : List Nat) :
    Ranked (tasks.foldl prioritised.promote q) ∧
      (∀ t, t ∈ (tasks.foldl prioritised.promote q).heap.items ↔ t ∈ q.heap.items) ∧
      (tasks.foldl prioritised.promote q).sequence = q.sequence ∧
      ∀ t, (tasks.foldl prioritised.promote q).tasks t =
        if t ∈ tasks ∧ t ∈ q.heap.items then expedited (q.tasks t) else q.tasks t := by
  induction tasks generalizing q with
  | nil => exact ⟨ranked, fun t => Iff.rfl, rfl, fun t => by simp⟩
  | cons task rest ih =>
    obtain ⟨kept, items, sequence, keys⟩ := promote_ranked ranked task
    obtain ⟨kept', items', sequence', keys'⟩ := ih kept
    refine ⟨kept', fun t => (items' t).trans (items t), sequence'.trans sequence, ?_⟩
    intro t
    simp only [List.foldl_cons, keys', keys, items, List.mem_cons]
    have twice : expedited (expedited (q.tasks t)) = expedited (q.tasks t) := rfl
    grind

theorem push_ranked (ranked : Ranked q) {task : Nat} {priority : Number}
    (number : priority.isNaN = false) (fresh : task ∉ q.heap.items) :
    Ranked (prioritised.push (prioritised.create q task priority) task) := by
  have numbers : ∀ t, (Function.update q.tasks task ⟨priority, q.sequence⟩ t).priority.isNaN =
      false := by
    intro t
    rw [Function.update_apply]
    split
    · exact number
    · exact ranked.numbers t
  refine ⟨IndexedHeap.push_valid (comparePriority_ranks numbers) ⟨ranked.valid.indexed, ?_⟩ fresh, numbers⟩
  -- the order of the tasks already in the heap does not look at the new one
  intro c positive x y up down
  have x_ne : x ≠ task := fun same => fresh (same ▸ List.mem_of_getElem? up)
  have y_ne : y ≠ task := fun same => fresh (same ▸ List.mem_of_getElem? down)
  have old := ranked.valid.ordered c positive x y up down
  simp only [IndexedHeap.NotAfter, comparePriority, Function.update_of_ne x_ne,
    Function.update_of_ne y_ne] at old ⊢
  exact old

theorem take_ranked (ranked : Ranked q) {task : Nat} {rest : PriorityQueue}
    (taken : prioritised.take q = (some task, rest)) :
    Ranked rest ∧ rest.tasks = q.tasks ∧ rest.sequence = q.sequence ∧
      task ∈ q.heap.items ∧ (∀ t, t ∈ rest.heap.items → t ∈ q.heap.items ∧ t ≠ task) ∧
      ∀ other ∈ q.heap.items, key (q.tasks task) ≤ key (q.tasks other) := by
  obtain ⟨found, left⟩ := Prod.mk.inj taken
  subst left
  have popped : q.heap.pop (comparePriority q.tasks) =
      (some task, (q.heap.pop (comparePriority q.tasks)).2) := Prod.ext found rfl
  obtain ⟨valid, least⟩ := IndexedHeap.pop_valid (comparePriority_ranks ranked.numbers) ranked.valid popped
  obtain ⟨top, _, perm⟩ := IndexedHeap.pop_keeps _ ranked.valid.indexed popped
  have distinct := perm.nodup_iff.mpr (IndexedHeap.indexed_nodup ranked.valid.indexed)
  refine ⟨⟨valid, ranked.numbers⟩, rfl, rfl, List.mem_of_getElem? top, ?_, ?_⟩
  · intro t mem
    refine ⟨perm.mem_iff.mp (List.mem_cons_of_mem _ mem), ?_⟩
    intro same
    subst same
    exact (List.nodup_cons.mp distinct).1 mem
  · intro other mem
    exact (notAfter_iff_key ranked.numbers task other).mp (least other mem)

end Queue

/-- What holds of the priority pool at every turn of its pump: each queued
    task object carries the rank of its submission, listens to its signal until
    that fires, and every start so far took a least task. -/
structure Keyed (p : Pool Number PriorityQueue) : Prop where
  ranked : Ranked p.queue
  sequence : p.queue.sequence = p.submissions.length
  keys : ∀ task ∈ p.queue.heap.items, ∃ submission, p.submissions[task]? = some submission ∧
    p.queue.tasks task = ⟨effectivePriority submission p.aborted, task⟩ ∧
    ∀ signal, task ∈ p.listeners signal ↔ signal = submission.signal ∧ signal ∉ p.aborted
  listeners : ∀ signal, ∀ task ∈ p.listeners signal, task < p.submissions.length
  least : ∀ start ∈ p.starts, start.task ∈ start.queued ∧ ∀ other ∈ start.queued,
    other < p.submissions.length ∧
    rank p.submissions start.aborted start.task ≤ rank p.submissions start.aborted other

section Order
variable {p : Pool Number PriorityQueue}

theorem keyed_lt (keyed : Keyed p) {task : Nat} (mem : task ∈ p.queue.heap.items) :
    task < p.submissions.length := by
  obtain ⟨submission, found, _⟩ := keyed.keys task mem
  exact (List.getElem?_eq_some_iff.mp found).1

theorem keyed_rank (keyed : Keyed p) {task : Nat} (mem : task ∈ p.queue.heap.items) :
    key (p.queue.tasks task) = rank p.submissions p.aborted task := by
  obtain ⟨submission, found, object, _⟩ := keyed.keys task mem
  simp only [key, rank, object, found]

theorem rank_append (submissions : List (Submission Number)) (new : Submission Number)
    (aborted : List Nat) {task : Nat} (old : task < submissions.length) :
    rank (submissions ++ [new]) aborted task = rank submissions aborted task := by
  simp only [rank, List.getElem?_append_left old]

theorem dispatch_keyed (keyed : Keyed p) {task : Nat} {rest : PriorityQueue}
    (taken : prioritised.take p.queue = (some task, rest)) :
    Keyed (dispatch prioritised p task rest) := by
  obtain ⟨ranked, tasks, sequence, member, others, least⟩ := take_ranked keyed.ranked taken
  obtain ⟨own, own_found, _, _⟩ := keyed.keys task member
  have signal : signalOf p task = some own.signal := by simp [signalOf, own_found]
  constructor
  · exact ranked
  · exact sequence.trans keyed.sequence
  · intro other mem
    obtain ⟨old, different⟩ := others other mem
    obtain ⟨submission, found, object, listens⟩ := keyed.keys other old
    refine ⟨submission, found, ?_, ?_⟩
    · simp only [dispatch, removeAbortListener, tasks]
      exact object
    · intro s
      apply Iff.trans _ (listens s)
      simp only [dispatch, removeAbortListener, listenersWithout, signal, Function.update_apply]
      split
      · rename_i same
        simp [same, different]
      · exact Iff.rfl
  · intro s other mem
    apply keyed.listeners s other
    simp only [dispatch, removeAbortListener, listenersWithout, signal, Function.update_apply] at mem
    split at mem
    · rename_i same
      rw [same]
      exact (List.mem_filter.mp mem).1
    · exact mem
  · intro start mem
    rcases List.mem_cons.mp mem with new | old
    · subst new
      refine ⟨member, ?_⟩
      intro other queued
      refine ⟨keyed_lt keyed queued, ?_⟩
      have first := least other queued
      rw [keyed_rank keyed member, keyed_rank keyed queued] at first
      exact first
    · exact keyed.least start old

theorem finishDrain_keyed (keyed : Keyed p) : Keyed (finishDrainIfIdle prioritised p) := by
  unfold finishDrainIfIdle
  split
  · exact { keyed with }
  · exact keyed

theorem pump_keyed (keyed : Keyed p) : Keyed (pump prioritised p) := by
  apply pump_invariant Keyed _ (fun _ held => finishDrain_keyed held) keyed
  intro before after held next
  obtain ⟨_, task, rest, taken, rfl⟩ := startNext_some next
  exact dispatch_keyed held taken

theorem accept_keyed (keyed : Keyed p) {signal : Nat} {priority : Number} (live : signal ∉ p.aborted)
    (number : priority.isNaN = false) :
    Keyed { p with
      submissions := p.submissions ++ [⟨signal, priority⟩]
      listeners := Function.update p.listeners signal (p.listeners signal ++ [p.submissions.length])
      queue := prioritised.push (prioritised.create p.queue p.submissions.length priority)
        p.submissions.length } := by
  have fresh : p.submissions.length ∉ p.queue.heap.items := by
    intro mem
    have := keyed_lt keyed mem
    omega
  have silent : ∀ s, p.submissions.length ∉ p.listeners s := by
    intro s mem
    have := keyed.listeners s _ mem
    omega
  have perm := (IndexedHeap.push_keeps (comparePriority (prioritised.create p.queue
    p.submissions.length priority).tasks) keyed.ranked.valid.indexed fresh).2
  constructor
  · exact push_ranked keyed.ranked number fresh
  · simp only [prioritised, List.length_append, List.length_singleton, keyed.sequence]
  · intro task mem
    rcases List.mem_cons.mp (perm.mem_iff.mp mem) with new | old
    · subst new
      refine ⟨⟨signal, priority⟩, by simp, ?_, ?_⟩
      · simp [prioritised, keyed.sequence, effectivePriority, live]
      · intro s
        simp only [Function.update_apply]
        split
        · rename_i same
          simp [same, live]
        · rename_i other
          simp [other, silent s]
    · have inside := keyed_lt keyed old
      have different : task ≠ p.submissions.length := by omega
      obtain ⟨submission, found, object, listens⟩ := keyed.keys task old
      refine ⟨submission, ?_, ?_, ?_⟩
      · simp only [List.getElem?_append_left inside]
        exact found
      · simp only [prioritised, Function.update_of_ne different]
        exact object
      · intro s
        apply Iff.trans _ (listens s)
        simp only [Function.update_apply]
        split
        · rename_i same
          simp [same, different]
        · exact Iff.rfl
  · intro s task mem
    simp only [Function.update_apply, List.length_append, List.length_singleton] at mem ⊢
    split at mem
    · rcases List.mem_append.mp mem with old | new
      · have := keyed.listeners _ _ old
        omega
      · rw [List.mem_singleton] at new
        omega
    · have := keyed.listeners _ _ mem
      omega
  · intro start mem
    obtain ⟨queued, first⟩ := keyed.least start mem
    refine ⟨queued, ?_⟩
    intro other there
    obtain ⟨inside, ordered⟩ := first other there
    have own := (first start.task queued).1
    rw [rank_append _ _ _ own, rank_append _ _ _ inside]
    simp only [List.length_append, List.length_singleton]
    exact ⟨by omega, ordered⟩

theorem abort_keyed (steady : Steady prioritisedLawful p) (keyed : Keyed p) {signal : Nat}
    (live : signal ∉ p.aborted) : Keyed (abort prioritised p signal) := by
  obtain ⟨ranked, items, sequence, keys⟩ := promoteAll_ranked keyed.ranked (p.listeners signal)
  rw [abort_eq steady]
  constructor
  · exact ranked
  · exact sequence.trans keyed.sequence
  · intro task mem
    have old := (items task).mp mem
    obtain ⟨submission, found, object, listens⟩ := keyed.keys task old
    refine ⟨submission, found, ?_, ?_⟩
    · have heard := listens signal
      simp only [keys, old, and_true, heard, object, expedited, effectivePriority, List.mem_cons]
      grind
    · intro s
      have heard := listens s
      simp only [Function.update_apply, List.mem_cons]
      grind
  · intro s task mem
    simp only [Function.update_apply] at mem
    split at mem
    · cases mem
    · exact keyed.listeners s task mem
  · exact keyed.least

theorem make_keyed {name : String} {availableParallelism : Option Nat} {count : Number}
    (made : make prioritised name availableParallelism count = .ok p) : Keyed p := by
  unfold make at made
  split at made
  · cases made
  · cases made
    refine ⟨⟨IndexedHeap.empty_valid, fun _ => rfl⟩, rfl, ?_, ?_, ?_⟩
    · intro task mem
      cases mem
    · intro signal task mem
      cases mem
    · intro start mem
      cases mem

theorem step_keyed {q : Pool Number PriorityQueue} {a : Action Number}
    (steady : Steady prioritisedLawful p) (keyed : Keyed p) (ordinary : Ordinary p a)
    (next : step prioritised p a = some q) : Keyed q := by
  cases step_move next with
  | unchanged => exact keyed
  | start => exact pump_keyed { keyed with }
  | resize => exact pump_keyed { keyed with }
  | accept signal priority live => exact pump_keyed (accept_keyed keyed live ordinary)
  | abort signal live => exact abort_keyed steady keyed live
  | run => exact { keyed with }
  | advance => exact { keyed with }
  | finish => exact pump_keyed { keyed with }
  | stop =>
    have begun : Keyed (beginStop prioritised p) := by
      unfold beginStop
      split
      · exact finishDrain_keyed (pump_keyed { keyed with })
      · exact keyed
    unfold stop
    split
    · exact { keyed with }
    · exact { begun with }
  | settle => exact { keyed with }

theorem reached_keyed (reached : Reached prioritised Ordinary p) : Keyed p := by
  obtain ⟨_, _, _, first, made, run⟩ := reached
  have both : Steady prioritisedLawful p ∧ Keyed p := by
    apply steps_invariant (fun p => Steady prioritisedLawful p ∧ Keyed p) _ run
    · exact ⟨make_steady made, make_keyed made⟩
    · intro before a after held ordinary next
      exact ⟨step_steady held.1 next, step_keyed held.1 held.2 ordinary next⟩
  exact both.2

/- Every task the pump takes is least among the tasks then queued. -/
theorem starts_least (reached : Reached prioritised Ordinary p) :
    ∀ start ∈ p.starts, start.task ∈ start.queued ∧ ∀ other ∈ start.queued,
      rank p.submissions start.aborted start.task ≤ rank p.submissions start.aborted other := by
  intro start mem
  obtain ⟨queued, least⟩ := (reached_keyed reached).least start mem
  exact ⟨queued, fun other there => (least other there).2⟩

end Order

/-- While one task runs, a task of priority 7 is aborted and overtakes one of priority 3. -/
def abortOvertakes : List (Action Number) :=
  [.start, .addTask 0 false (.finite 5), .addTask 1 false (.finite 7), .addTask 2 false (.finite 3),
    .abort 1, .run 0, .returns 0, .settles 0 none, .completes 0]

theorem starts_least_overtaking :
    ∃ p, Reached prioritised Ordinary p ∧ ∃ start ∈ p.starts, start.task = 1 ∧ 2 ∈ start.queued ∧
      rank p.submissions start.aborted 1 ≤ rank p.submissions start.aborted 2 := by
  obtain ⟨first, made⟩ : ∃ first, make prioritised "pool" none (.finite 1) = .ok first := ⟨_, rfl⟩
  have runs : ∃ p, exec (step prioritised) first abortOvertakes = some p ∧
      ∃ start ∈ p.starts, start.task = 1 ∧ 2 ∈ start.queued := by
    cases made
    exact ⟨_, rfl, _, List.mem_cons_self, rfl, by decide⟩
  obtain ⟨p, run, start, mem, one, two⟩ := runs
  have ordinary : ∀ s, ∀ a ∈ abortOvertakes, Ordinary s a := by
    intro s
    simp [abortOvertakes, Ordinary, Number.isNaN]
  have reached := exec_reached made ordinary run
  have least := (starts_least reached start mem).2 2 two
  rw [one] at least
  exact ⟨p, reached, start, mem, one, two, least⟩

end Pools
