import TsServiceLib.Pool.PoolInvariant

/-!
The whole-run law of the two pools: no task is started twice, lost, or started
above the executor count; no executor idles while a task is queued; and a stop
neither accepts more tasks nor ends before the accepted ones have finished.
-/
namespace Pools
open Transitions Numbers

/-- The task is queued, active or finished, and only one of them. -/
def Placed {A Q : Type} (D : Discipline A Q) (p : Pool A Q) (task : Nat) : Prop :=
  (task ∈ D.contents p.queue ∧ p.stage task = .waiting) ∨
  (task ∉ D.contents p.queue ∧ (p.stage task).isActive = true) ∨
  (task ∉ D.contents p.queue ∧ p.stage task = .finished)

def activeTasks {A Q : Type} (p : Pool A Q) : List Nat :=
  (List.range p.submissions.length).filter fun task => (p.stage task).isActive

/-- The law of a pool between operations. The accepted tasks are the places of
    `submissions`; a pool that has a stop call has begun to stop. -/
structure Law {A Q : Type} (D : Discipline A Q) (p : Pool A Q) : Prop where
  starts_once : (p.starts.map Start.task).Nodup
  starts_recorded : ∀ task, task ∈ p.starts.map Start.task ↔ p.stage task ≠ .waiting
  executes_once : p.executed.Nodup
  queued_once : (D.contents p.queue).Nodup
  placed : ∀ task, task < p.submissions.length → Placed D p task
  active_count : p.active = (activeTasks p).length
  starts_within : ∀ start ∈ p.starts, start.active < start.executorsCount
  no_idle_executor : p.state = .running ∨ p.state = .stopping →
    D.contents p.queue = [] ∨ p.executorsCount ≤ p.active
  accepts_none : p.stopCalls ≠ [] → ∀ q, Steps (step D) Any p q → q.submissions = p.submissions
  drained : .fulfilled ∈ p.stopCalls → ∀ task, task < p.submissions.length →
    p.stage task = .finished

section Law
variable {A Q : Type} {D : Discipline A Q} {L : Lawful D} {p : Pool A Q}

theorem sound_placed (sound : Sound L p) {task : Nat} (accepted : task < p.submissions.length) :
    Placed D p task := by
  have queued := sound.queued task
  unfold Placed
  cases stage : p.stage task <;> simp_all [Stage.isActive]

theorem sound_active_count (sound : Sound L p) : p.active = (activeTasks p).length := by
  obtain ⟨tasks, counts⟩ := sound.counted
  rw [← counts.length]
  apply List.Perm.length_eq
  apply (List.perm_ext_iff_of_nodup counts.nodup (List.nodup_range.filter _)).mpr
  intro task
  simp only [counts.mem, List.mem_filter, List.mem_range]
  constructor
  · intro active
    refine ⟨?_, active⟩
    rcases Nat.lt_or_ge task p.submissions.length with inside | outside
    · exact inside
    · exact absurd (sound.unborn task outside) (active_ne_waiting active)
  · exact And.right

theorem stopped_finished (sound : Sound L p) (stopped : p.state = .stopped) {task : Nat}
    (accepted : task < p.submissions.length) : p.stage task = .finished := by
  obtain ⟨inactive, empty⟩ := sound.idle stopped
  rcases sound_placed sound accepted with queued | active | finished
  · rw [empty] at queued
    cases queued.1
  · have member : task ∈ activeTasks p := by
      simp only [activeTasks, List.mem_filter, List.mem_range]
      exact ⟨accepted, active.2⟩
    have positive := List.length_pos_of_mem member
    have count := sound_active_count sound
    omega
  · exact finished.2

theorem steady_law (steady : Steady L p) : Law D p where
  starts_once := steady.sound.starts_nodup
  starts_recorded := steady.sound.started
  executes_once := steady.sound.executed_nodup
  queued_once := L.nodup _ steady.sound.queue_ok
  placed _ accepted := sound_placed steady.sound accepted
  active_count := sound_active_count steady.sound
  starts_within := steady.sound.within
  no_idle_executor := steady.pumped.busy
  accepts_none begun _ run := steps_closed steady (steady.sound.stopping begun) run
  drained mem _ accepted := stopped_finished steady.sound (steady.sound.fulfilled mem) accepted

end Law

/-- The linked queue is lawful: it holds some list of tasks. -/
def fifoLawful : Lawful fifo where
  Ok q := ∃ values, q.Queued values
  empty_ok := ⟨[], FifoQueue.queued_empty⟩
  empty_contents := rfl
  length_eq q _ := by
    simp [fifo, FifoQueue.length, OrderedMaps.OrderedMap.size, OrderedMaps.OrderedMap.keys]
  nodup q _ := q.nodes.nodup
  create_ok _ _ _ ok := ok
  create_contents _ _ _ := rfl
  push_ok := by
    rintro q task ⟨values, queued⟩ absent
    have missing : task ∉ values := fun mem => absent ((FifoQueue.queued_keys queued).mem_iff.mpr mem)
    exact ⟨_, FifoQueue.push_queued queued missing⟩
  push_contents := by
    rintro q task ⟨values, queued⟩ absent
    have keys := FifoQueue.queued_keys queued
    have missing : task ∉ values := fun mem => absent (keys.mem_iff.mpr mem)
    have after := FifoQueue.queued_keys (FifoQueue.push_queued queued missing)
    exact after.trans ((List.perm_append_singleton task values).trans (keys.symm.cons task))
  take_ok := by
    rintro q task rest ⟨values, queued⟩ taken
    cases values with
    | nil =>
      have empty := FifoQueue.shift_empty queued
      simp only [fifo, empty, Prod.mk.injEq] at taken
      cases taken.1
    | cons value values =>
      have shifted := (FifoQueue.shift_queued queued).2
      simp only [fifo] at taken
      rw [taken] at shifted
      exact ⟨values, shifted⟩
  take_contents := by
    rintro q task rest ⟨values, queued⟩ taken
    cases values with
    | nil =>
      have empty := FifoQueue.shift_empty queued
      simp only [fifo, empty, Prod.mk.injEq] at taken
      cases taken.1
    | cons value values =>
      have shifted := FifoQueue.shift_queued queued
      simp only [fifo] at taken
      rw [taken] at shifted
      obtain ⟨found, left⟩ := shifted
      cases found
      exact ((FifoQueue.queued_keys left).cons task).trans (FifoQueue.queued_keys queued).symm
  take_none := by
    rintro q rest ⟨values, queued⟩ taken
    cases values with
    | nil => exact (FifoQueue.queued_keys queued).eq_nil
    | cons value values =>
      have shifted := (FifoQueue.shift_queued queued).1
      simp only [fifo] at taken
      rw [taken] at shifted
      cases shifted
  promote_ok := by
    rintro q task ⟨values, queued⟩
    rcases Decidable.em (task ∈ values) with mem | absent
    · exact ⟨_, FifoQueue.moveToFront_queued queued mem⟩
    · simp only [fifo, FifoQueue.moveToFront_absent queued absent]
      exact ⟨values, queued⟩
  promote_contents := by
    rintro q task ⟨values, queued⟩
    have keys := FifoQueue.queued_keys queued
    rcases Decidable.em (task ∈ values) with mem | absent
    · have moved := FifoQueue.queued_keys (FifoQueue.moveToFront_queued queued mem)
      exact moved.trans ((List.perm_cons_erase mem).symm.trans keys.symm)
    · simp only [fifo, FifoQueue.moveToFront_absent queued absent]
      exact List.Perm.refl _

/-- The indexed heap is lawful for any comparison, even one that is no order. -/
def prioritisedLawful : Lawful prioritised where
  Ok q := q.heap.Indexed
  empty_ok := IndexedHeap.indexed_empty
  empty_contents := rfl
  length_eq _ _ := rfl
  nodup _ ok := IndexedHeap.indexed_nodup ok
  create_ok _ _ _ ok := ok
  create_contents _ _ _ := rfl
  push_ok _ _ ok absent := (IndexedHeap.push_keeps _ ok absent).1
  push_contents _ _ ok absent := (IndexedHeap.push_keeps _ ok absent).2
  take_ok := by
    intro q task rest ok taken
    obtain ⟨found, left⟩ := Prod.mk.inj taken
    subst left
    exact (IndexedHeap.pop_keeps _ ok (Prod.ext found rfl)).2.1
  take_contents := by
    intro q task rest ok taken
    obtain ⟨found, left⟩ := Prod.mk.inj taken
    subst left
    exact (IndexedHeap.pop_keeps _ ok (Prod.ext found rfl)).2.2
  take_none := by
    intro q rest _ taken
    exact (IndexedHeap.pop_none _).mp (Prod.mk.inj taken).1
  promote_ok := by
    intro q task ok
    simp only [prioritised]
    split
    · exact (IndexedHeap.fix_keeps _ task ok).1
    · exact ok
  promote_contents := by
    intro q task ok
    simp only [prioritised]
    split
    · exact (IndexedHeap.fix_keeps _ task ok).2
    · exact List.Perm.refl _

/- Both pools keep the law between any two operations of any run. -/
theorem pools_keep_law :
    (∀ p, Reached fifo Any p → Law fifo p) ∧ (∀ p, Reached prioritised Any p → Law prioritised p) := by
  constructor
  · intro p reached
    exact steady_law (reached_steady fifoLawful reached)
  · intro p reached
    exact steady_law (reached_steady prioritisedLawful reached)

/-- Two tasks on one executor: the first throws, and the error reporter with
    it, after a stop has begun; the second is fulfilled. -/
def throwThenDrain {A : Type} (argument : A) : List (Action A) :=
  [.addTask 0 false argument, .addTask 0 false argument, .start, .run 0, .throws 0 false, .stop,
    .reporterEnds 0 true, .run 1, .returns 1, .settles 1 none, .completes 1, .drained 0]

theorem exec_reached {A Q : Type} {D : Discipline A Q} {ok : Pool A Q → Action A → Prop}
    {first p : Pool A Q} {name : String} {availableParallelism : Option Nat} {count : Number}
    {actions : List (Action A)} (made : make D name availableParallelism count = .ok first)
    (admitted : ∀ s, ∀ a ∈ actions, ok s a) (run : exec (step D) first actions = some p) :
    Reached D ok p :=
  ⟨name, availableParallelism, count, first, made, exec_steps_of admitted run⟩

theorem pools_keep_law_drained :
    (∃ p, Reached fifo Any p ∧ p.stopCalls = [.fulfilled] ∧ p.submissions.length = 2 ∧ Law fifo p) ∧
    (∃ p, Reached prioritised Any p ∧ p.stopCalls = [.fulfilled] ∧ p.submissions.length = 2 ∧
      Law prioritised p) := by
  constructor
  · obtain ⟨first, made⟩ : ∃ first, make fifo "pool" none (.finite 1) = .ok first := ⟨_, rfl⟩
    have runs : ∃ p, exec (step fifo) first (throwThenDrain ()) = some p ∧
        p.stopCalls = [.fulfilled] ∧ p.submissions.length = 2 := by
      cases made
      exact ⟨_, rfl, rfl, rfl⟩
    obtain ⟨p, run, calls, accepted⟩ := runs
    have reached : Reached _ Any p := exec_reached made (fun _ _ _ => trivial) run
    exact ⟨p, reached, calls, accepted, pools_keep_law.1 p reached⟩
  · obtain ⟨first, made⟩ : ∃ first, make prioritised "pool" none (.finite 1) = .ok first := ⟨_, rfl⟩
    have runs : ∃ p, exec (step prioritised) first (throwThenDrain (.finite 5)) = some p ∧
        p.stopCalls = [.fulfilled] ∧ p.submissions.length = 2 := by
      cases made
      exact ⟨_, rfl, rfl, rfl⟩
    obtain ⟨p, run, calls, accepted⟩ := runs
    have reached : Reached _ Any p := exec_reached made (fun _ _ _ => trivial) run
    exact ⟨p, reached, calls, accepted, pools_keep_law.2 p reached⟩

end Pools
