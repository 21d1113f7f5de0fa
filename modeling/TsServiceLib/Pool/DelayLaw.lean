import TsServiceLib.Pool.DelayPool

/-!
The whole-run law of the delay pool. The heap holds exactly the accepted tasks
that have not been dispatched, in order of due time and sequence; a turn of a
wake-up takes the least of them, so a wake-up takes those that are due and no
others. `arm` leaves the timer on the head of the heap, and every operation
that can change the head ends in it. All this is of the tasks that have a time
they are due at: NaN is before and after no time, so a wake-up takes a task that
is due at NaN whenever it comes to it, and the heap has no order to be in.
-/
namespace Pools
namespace DelayPool
open Transitions Numbers

/-- A task is dispatched after its time has come, or because its context is aborted. -/
def Timely (objects : Nat → DelayTask) (d : Dispatch) : Prop :=
  (∃ now, d.now = some now ∧ (objects d.task).runAt ≤ .num (now : Time)) ∨
    (objects d.task).signal ∈ d.aborted

def Due (objects : Nat → DelayTask) (now : ℚ) (task : Nat) : Prop :=
  (objects task).runAt ≤ .num (now : Time)

instance (objects : Nat → DelayTask) (now : ℚ) (task : Nat) : Decidable (Due objects now task) :=
  inferInstanceAs (Decidable (_ ≤ _))

/-- The order of dispatch within a wake-up. -/
def Before (objects : Nat → DelayTask) (a b : Nat) : Prop :=
  (objects a).runAt < (objects b).runAt ∨
    ((objects a).runAt = (objects b).runAt ∧ (objects a).sequence < (objects b).sequence)

/-- Every task has a time it is due at. -/
def Measured (objects : Nat → DelayTask) : Prop := ∀ task, (objects task).runAt ≠ .nan

/-- What holds of the tasks at every moment of an operation. -/
structure Sound (p : DelayPool) : Prop where
  measured : Measured p.objects
  valid : p.queue.Valid (compareRunAt p.objects)
  queued : ∀ task, task ∈ p.queue.items ↔ task < p.sequence ∧ (p.objects task).completed = false
  dispatched : ∀ task, task ∈ p.dispatches.map Dispatch.task ↔
    task < p.sequence ∧ (p.objects task).completed = true
  once : (p.dispatches.map Dispatch.task).Nodup
  numbered : ∀ task, task < p.sequence → (p.objects task).sequence = task
  timely : ∀ d ∈ p.dispatches, Timely p.objects d
  subscribed : ∀ signal, ∀ task ∈ p.listeners signal,
    task < p.sequence ∧ (p.objects task).signal = signal

/-- A timer is set when a finite time is armed, for what was left of it then. -/
def Timed (p : DelayPool) : Prop :=
  ∀ due : ℚ, p.armedAt = some (.num (due : Time)) →
    ∃ timer, p.timer = some timer ∧ timer.delay = .num (min maxTimeout (max 0 ⌈due - timer.now⌉))

structure Steady (p : DelayPool) : Prop where
  sound : Sound p
  timed : Timed p
  armed : p.armedAt = p.nextRunAt

/-- A task that the pool takes has a context whose deadline, if it has one, is a time. -/
def Dated (p : DelayPool) : Action → Prop
  | .delay signal deadline delayMs => signal ∉ p.aborted → p.state ≠ .stopping → p.state ≠ .stopped →
      delayMs.isNaN = false → deadline ≠ some .nan
  | _ => True

section Order
variable {objects : Nat → DelayTask}

def timeOf (objects : Nat → DelayTask) (task : Nat) : Time := (objects task).runAt.valueOr 0

/-- Where nothing is NaN the tasks are ordered by their times and then by number. -/
theorem compareRunAt_byKey (measured : Measured objects) :
    IndexedHeap.ByKey (compareRunAt objects) (timeOf objects) (fun t => (objects t).sequence) := by
  intro a b
  have first := OrNaN.lt_iff_values (measured a) (measured b) 0
  have second := OrNaN.lt_iff_values (measured b) (measured a) 0
  exact if_congr first rfl (if_congr second rfl rfl)

theorem compareRunAt_ranks (measured : Measured objects) : IndexedHeap.Ranks (compareRunAt objects) :=
  IndexedHeap.byKey_ranks (compareRunAt_byKey measured)

/-- What is not after another entry with another number comes before it. -/
theorem before_of_notAfter (measured : Measured objects) {a b : Nat}
    (first : IndexedHeap.NotAfter (compareRunAt objects) a b)
    (different : (objects a).sequence ≠ (objects b).sequence) : Before objects a b := by
  have lex := (IndexedHeap.notAfter_byKey (compareRunAt_byKey measured) a b).mp first
  rw [Prod.Lex.toLex_le_toLex] at lex
  rcases lex with less | ⟨same, le⟩
  · exact .inl ((OrNaN.lt_iff_values (measured a) (measured b) 0).mpr less)
  · exact .inr ⟨OrNaN.eq_of_values (measured a) (measured b) same, lt_of_le_of_ne le different⟩

theorem runAt_le_of_notAfter (measured : Measured objects) {a b : Nat}
    (first : IndexedHeap.NotAfter (compareRunAt objects) a b) : ¬ (objects b).runAt < (objects a).runAt := by
  intro below
  have less := (OrNaN.lt_iff_values (measured b) (measured a) 0).mp below
  have lex := (IndexedHeap.notAfter_byKey (compareRunAt_byKey measured) a b).mp first
  rw [Prod.Lex.toLex_le_toLex] at lex
  rcases lex with more | ⟨same, _⟩
  · exact lt_asymm less more
  · exact ne_of_gt less same

def marked (objects : Nat → DelayTask) (task : Nat) : Nat → DelayTask :=
  Function.update objects task { objects task with completed := true }

theorem marked_apply (task other : Nat) : marked objects task other =
    { objects other with completed := if other = task then true else (objects other).completed } := by
  unfold marked
  rw [Function.update_apply]
  split
  · rename_i same
    rw [same]
  · rfl

@[simp] theorem marked_runAt (task other : Nat) :
    (marked objects task other).runAt = (objects other).runAt := by
  rw [marked_apply]

@[simp] theorem marked_sequence (task other : Nat) :
    (marked objects task other).sequence = (objects other).sequence := by
  rw [marked_apply]

@[simp] theorem marked_signal (task other : Nat) :
    (marked objects task other).signal = (objects other).signal := by
  rw [marked_apply]

theorem measured_marked (measured : Measured objects) (task : Nat) : Measured (marked objects task) := by
  intro other
  rw [marked_runAt]
  exact measured other

theorem compareRunAt_marked (task : Nat) :
    compareRunAt (marked objects task) = compareRunAt objects := by
  funext a b
  simp only [compareRunAt, marked_runAt, marked_sequence]

theorem timely_marked (task : Nat) (d : Dispatch) :
    Timely (marked objects task) d ↔ Timely objects d := by
  simp only [Timely, marked_runAt, marked_signal]

theorem before_marked (task : Nat) : Before (marked objects task) = Before objects := by
  funext a b
  simp only [Before, marked_runAt, marked_sequence]

end Order

section Dispatching
variable {p : DelayPool}

theorem dispatch_eq {task : Nat} (live : (p.objects task).completed = false) (now : Option ℚ) :
    p.dispatch task now = { p with
      objects := marked p.objects task
      queue := (p.queue.remove (compareRunAt p.objects) task).1
      listeners := p.listenersWithout task
      stage := Function.update p.stage task .scheduled
      dispatches := ⟨task, now, p.aborted⟩ :: p.dispatches } := by
  simp only [dispatch, live, Bool.false_eq_true, if_false]
  rfl

theorem dispatch_completed {task : Nat} (done : (p.objects task).completed = true) (now : Option ℚ) :
    p.dispatch task now = p := by
  simp only [dispatch, done, if_true]

theorem listenersWithout_subset (p : DelayPool) (task signal : Nat) :
    p.listenersWithout task signal ⊆ p.listeners signal := by
  unfold listenersWithout
  rw [Function.update_apply]
  split
  · rename_i same
    rw [same]
    exact List.filter_sublist.subset
  · exact List.Subset.refl _

theorem dispatch_sound (sound : Sound p) {task : Nat} (mem : task ∈ p.queue.items) {now : Option ℚ}
    (timely : Timely p.objects ⟨task, now, p.aborted⟩) : Sound (p.dispatch task now) := by
  obtain ⟨accepted, live⟩ := (sound.queued task).mp mem
  have ranks := compareRunAt_ranks sound.measured
  have perm := (IndexedHeap.remove_keeps (compareRunAt p.objects) sound.valid.indexed mem).2
  have distinct := perm.nodup_iff.mpr (IndexedHeap.indexed_nodup sound.valid.indexed)
  rw [dispatch_eq live]
  constructor
  · exact measured_marked sound.measured task
  · rw [compareRunAt_marked]
    exact IndexedHeap.remove_valid ranks sound.valid mem
  · intro other
    have before := sound.queued other
    rw [← perm.mem_iff, List.mem_cons] at before
    have outside := (List.nodup_cons.mp distinct).1
    simp only [marked_apply]
    grind
  · intro other
    have before := sound.dispatched other
    simp only [List.map_cons, List.mem_cons, marked_apply]
    grind
  · simp only [List.map_cons, List.nodup_cons]
    refine ⟨?_, sound.once⟩
    intro again
    have done := ((sound.dispatched task).mp again).2
    rw [live] at done
    cases done
  · intro other inside
    rw [marked_sequence]
    exact sound.numbered other inside
  · intro d there
    rw [timely_marked]
    rcases List.mem_cons.mp there with latest | earlier
    · rw [latest]
      exact timely
    · exact sound.timely d earlier
  · intro signal other there
    rw [marked_signal]
    exact sound.subscribed signal other (listenersWithout_subset p task signal there)

theorem head_before (sound : Sound p) {task : Nat} (top : p.queue.peek = some task) {other : Nat}
    (mem : other ∈ p.queue.items) (different : other ≠ task) : Before p.objects task other := by
  have least := IndexedHeap.peek_least (compareRunAt_ranks sound.measured) sound.valid top other mem
  have head := ((sound.queued task).mp (List.mem_of_getElem? top)).1
  have inside := ((sound.queued other).mp mem).1
  apply before_of_notAfter sound.measured least
  rw [sound.numbered task head, sound.numbered other inside]
  exact Ne.symm different

/-- What a wake-up has taken: the due tasks, in their order. -/
structure Wave (p q : DelayPool) (now : ℚ) (wave : List Nat) : Prop where
  dispatches : q.dispatches.map Dispatch.task = wave.reverse ++ p.dispatches.map Dispatch.task
  due : wave.Perm (p.queue.items.filter (fun task => decide (Due p.objects now task)))
  ordered : wave.Pairwise (Before p.objects)

theorem wave_nil {now : ℚ} (none_due : ∀ task ∈ p.queue.items, ¬Due p.objects now task) :
    Wave p p now [] := by
  refine ⟨rfl, ?_, List.Pairwise.nil⟩
  rw [List.filter_eq_nil_iff.mpr]
  intro task mem
  simpa using none_due task mem

theorem wave_cons {now : ℚ} {task : Nat} {wave : List Nat} {q : DelayPool} (sound : Sound p)
    (top : p.queue.peek = some task) (due : Due p.objects now task)
    (rest : Wave (p.dispatch task (some now)) q now wave) : Wave p q now (task :: wave) := by
  have mem : task ∈ p.queue.items := List.mem_of_getElem? top
  obtain ⟨accepted, live⟩ := (sound.queued task).mp mem
  obtain ⟨dispatches, taken, ordered⟩ := rest
  rw [dispatch_eq live] at dispatches taken ordered
  simp only [Due, marked_runAt] at taken
  rw [before_marked] at ordered
  have perm := (IndexedHeap.remove_keeps (compareRunAt p.objects) sound.valid.indexed mem).2
  have distinct := perm.nodup_iff.mpr (IndexedHeap.indexed_nodup sound.valid.indexed)
  constructor
  · rw [dispatches]
    simp
  · have filtered := perm.filter (fun task => decide (Due p.objects now task))
    rw [List.filter_cons_of_pos (by simpa using due)] at filtered
    exact (taken.cons task).trans filtered
  · rw [List.pairwise_cons]
    refine ⟨?_, ordered⟩
    intro other there
    have left := (List.mem_filter.mp (taken.mem_iff.mp there)).1
    apply head_before sound top (perm.mem_iff.mp (List.mem_cons_of_mem _ left))
    intro same
    exact (List.nodup_cons.mp distinct).1 (same ▸ left)

theorem wakeLoop_wave (now : ℚ) {turns : Nat} (sound : Sound p) (enough : p.queue.items.length ≤ turns) :
    Sound (wakeLoop now turns p) ∧ ∃ wave, Wave p (wakeLoop now turns p) now wave := by
  induction turns generalizing p with
  | zero =>
    have empty : p.queue.items = [] := List.length_eq_zero_iff.mp (by omega)
    exact ⟨sound, [], wave_nil (by simp [empty])⟩
  | succ turns ih =>
    unfold wakeLoop
    split
    · rename_i vacant
      have empty : p.queue.items = [] := by simpa [IndexedHeap.peek] using vacant
      exact ⟨sound, [], wave_nil (by simp [empty])⟩
    · rename_i task top
      have mem : task ∈ p.queue.items := List.mem_of_getElem? top
      split
      · rename_i early
        refine ⟨sound, [], wave_nil ?_⟩
        intro other there due
        have least := IndexedHeap.peek_least (compareRunAt_ranks sound.measured) sound.valid top other there
        exact runAt_le_of_notAfter sound.measured least (OrNaN.lt_of_le due early)
      · rename_i ready
        have due : Due p.objects now task := OrNaN.le_of_not_lt (OrNaN.num_ne_nan _) (sound.measured task) ready
        have live := ((sound.queued task).mp mem).2
        have kept : Sound (p.dispatch task (some now)) := dispatch_sound sound mem (.inl ⟨now, rfl, due⟩)
        have shorter := (IndexedHeap.remove_keeps (compareRunAt p.objects) sound.valid.indexed mem).2.length_eq
        have fewer : (p.dispatch task (some now)).queue.items.length ≤ turns := by
          simp only [List.length_cons, dispatch_eq live] at shorter ⊢
          omega
        obtain ⟨sound', wave, taken⟩ := ih kept fewer
        exact ⟨sound', task :: wave, wave_cons sound top due taken⟩

end Dispatching

section Arming
variable {clock : Nat → ℚ} {p : DelayPool}

theorem arm_eq (clock : Nat → ℚ) (p : DelayPool) : ∃ timer armedAt reads,
    arm clock p = { p with timer := timer, armedAt := armedAt, reads := reads } := by
  unfold arm
  split
  · exact ⟨p.timer, p.armedAt, p.reads, rfl⟩
  · split
    · exact ⟨_, _, _, rfl⟩
    · exact ⟨_, _, _, rfl⟩
    · exact ⟨_, _, _, rfl⟩

theorem arm_sound (sound : Sound p) : Sound (arm clock p) := by
  obtain ⟨timer, armedAt, reads, eq⟩ := arm_eq clock p
  rw [eq]
  exact { sound with }

theorem arm_armed (p : DelayPool) : (arm clock p).armedAt = (arm clock p).nextRunAt := by
  unfold arm
  split
  · rename_i same
    exact same.1.symm
  · split
    · rename_i next here
      exact here.symm
    · rename_i unmeasured
      exact unmeasured.symm
    · rfl

theorem arm_timed (timed : Timed p) : Timed (arm clock p) := by
  unfold arm
  split
  · exact timed
  · split
    · rename_i next here
      intro due armed
      have same : next = due := by
        simpa using armed
      subst same
      exact ⟨_, rfl, rfl⟩
    · intro due armed
      cases armed
    · rename_i infinite _
      intro due armed
      exact absurd armed (infinite due)

theorem arm_steady (sound : Sound p) (timed : Timed p) : Steady (arm clock p) :=
  ⟨arm_sound sound, arm_timed timed, arm_armed p⟩

end Arming

section Operations
variable {clock : Nat → ℚ} {p : DelayPool}

theorem wakeLoop_timer (now : ℚ) (turns : Nat) :
    (wakeLoop now turns p).timer = p.timer ∧ (wakeLoop now turns p).armedAt = p.armedAt := by
  induction turns generalizing p with
  | zero => exact ⟨rfl, rfl⟩
  | succ turns ih =>
    unfold wakeLoop
    split
    · exact ⟨rfl, rfl⟩
    · split
      · exact ⟨rfl, rfl⟩
      · rename_i task top ready
        have same : (p.dispatch task (some now)).timer = p.timer ∧
            (p.dispatch task (some now)).armedAt = p.armedAt := by
          unfold dispatch
          split
          · exact ⟨rfl, rfl⟩
          · exact ⟨rfl, rfl⟩
        rw [← same.1, ← same.2]
        exact ih

theorem wake_steady (sound : Sound p) : Steady (wake clock p) := by
  have reset : Sound { p with timer := none, armedAt := none, reads := p.reads + 1 } := { sound with }
  obtain ⟨kept, _⟩ := wakeLoop_wave (clock p.reads) reset (Nat.le_refl p.queue.items.length)
  apply arm_steady kept
  intro due armed
  have cleared := (wakeLoop_timer (p := { p with timer := none, armedAt := none, reads := p.reads + 1 })
    (clock p.reads) p.queue.items.length).2
  rw [cleared] at armed
  cases armed

theorem wake_wave (sound : Sound p) : ∃ wave, Wave p (wake clock p) (clock p.reads) wave := by
  have reset : Sound { p with timer := none, armedAt := none, reads := p.reads + 1 } := { sound with }
  obtain ⟨_, wave, taken⟩ := wakeLoop_wave (clock p.reads) reset (Nat.le_refl p.queue.items.length)
  refine ⟨wave, ?_, taken.due, taken.ordered⟩
  rw [← taken.dispatches]
  obtain ⟨timer, armedAt, reads, eq⟩ := arm_eq clock (wakeLoop (clock p.reads)
    p.queue.items.length { p with timer := none, armedAt := none, reads := p.reads + 1 })
  simp only [wake, IndexedHeap.length]
  rw [eq]

/-- Abort callbacks find their task in the heap or already dispatched. -/
theorem cancel_steady (steady : Steady p) {signal task : Nat} (fired : signal ∈ p.aborted)
    (listening : task ∈ p.listeners signal) : Steady (cancel clock p task) := by
  obtain ⟨accepted, own⟩ := steady.sound.subscribed signal task listening
  unfold cancel
  cases done : (p.objects task).completed with
  | true =>
    rw [dispatch_completed done]
    exact arm_steady steady.sound steady.timed
  | false =>
    have mem := (steady.sound.queued task).mpr ⟨accepted, done⟩
    have timely : Timely p.objects ⟨task, none, p.aborted⟩ := .inr (own.symm ▸ fired)
    apply arm_steady (dispatch_sound steady.sound mem timely)
    rw [dispatch_eq done]
    exact steady.timed

theorem cancel_aborted (task : Nat) : (cancel clock p task).aborted = p.aborted := by
  obtain ⟨timer, armedAt, reads, eq⟩ := arm_eq clock (p.dispatch task none)
  unfold cancel
  rw [eq]
  unfold dispatch
  split
  · rfl
  · rfl

theorem notify_steady {signal : Nat} (tasks : List Nat) (steady : Steady p) (fired : signal ∈ p.aborted) :
    Steady (tasks.foldl (notify clock signal) p) := by
  induction tasks generalizing p with
  | nil => exact steady
  | cons task rest ih =>
    rw [List.foldl_cons]
    unfold notify
    split
    · rename_i listening
      apply ih (cancel_steady steady fired listening)
      rw [cancel_aborted]
      exact fired
    · exact ih steady fired

theorem abort_steady (steady : Steady p) (signal : Nat) : Steady (abort clock p signal) := by
  have fired : Steady { p with aborted := signal :: p.aborted } :=
    ⟨{ steady.sound with }, steady.timed, steady.armed⟩
  have notified : Steady ((p.listeners signal).foldl (notify clock signal) { p with aborted := signal :: p.aborted }) :=
    notify_steady (p.listeners signal) fired List.mem_cons_self
  refine ⟨{ notified.sound with subscribed := ?_ }, notified.timed, notified.armed⟩
  intro s task mem
  simp only [abort, Function.update_apply] at mem
  split at mem
  · cases mem
  · exact notified.sound.subscribed s task mem

/-- What the objects of the tasks accepted so far have in common with those
    after a new one has been made. -/
theorem created_apply {object : DelayTask} {task : Nat} (old : task < p.sequence) :
    Function.update p.objects p.sequence object task = p.objects task := by
  apply Function.update_of_ne
  omega

theorem created_valid (sound : Sound p) (object : DelayTask) :
    p.queue.Valid (compareRunAt (Function.update p.objects p.sequence object)) := by
  refine ⟨sound.valid.indexed, ?_⟩
  -- the order of the queued tasks does not look at the new object
  intro c positive x y up down
  have inside : ∀ z ∈ p.queue.items, z < p.sequence := fun z mem => ((sound.queued z).mp mem).1
  have old := sound.valid.ordered c positive x y up down
  simp only [IndexedHeap.NotAfter, compareRunAt, created_apply (inside x (List.mem_of_getElem? up)),
    created_apply (inside y (List.mem_of_getElem? down))] at old ⊢
  exact old

theorem created_measured (sound : Sound p) {object : DelayTask} (number : object.runAt ≠ .nan) :
    Measured (Function.update p.objects p.sequence object) := by
  intro task
  rw [Function.update_apply]
  split
  · exact number
  · exact sound.measured task

theorem enqueue_sound (sound : Sound p) (signal : Nat) {runAt : DueTime} (number : runAt ≠ .nan) (listeners : Nat → List Nat)
    (listening : ∀ s, ∀ task ∈ listeners s, task ∈ p.listeners s ∨ (task = p.sequence ∧ s = signal)) :
    Sound { (p.create signal runAt).enqueue p.sequence with listeners := listeners } := by
  have fresh : p.sequence ∉ p.queue.items := by
    intro mem
    have := ((sound.queued p.sequence).mp mem).1
    omega
  have valid := created_valid sound ⟨false, runAt, p.sequence, signal⟩
  have perm := (IndexedHeap.push_keeps (compareRunAt (Function.update p.objects p.sequence
    ⟨false, runAt, p.sequence, signal⟩)) sound.valid.indexed fresh).2
  have measured : Measured (Function.update p.objects p.sequence ⟨false, runAt, p.sequence, signal⟩) :=
    created_measured sound number
  constructor
  · exact measured
  · exact IndexedHeap.push_valid (compareRunAt_ranks measured) valid fresh
  · intro task
    have before := sound.queued task
    simp only [create, enqueue, perm.mem_iff, List.mem_cons, Function.update_apply]
    grind
  · intro task
    have before := sound.dispatched task
    simp only [create, enqueue, Function.update_apply]
    grind
  · exact sound.once
  · intro task inside
    have before := sound.numbered task
    simp only [create, enqueue, Function.update_apply] at inside ⊢
    grind
  · intro d there
    have inside := ((sound.dispatched d.task).mp (List.mem_map_of_mem there)).1
    have before := sound.timely d there
    simp only [create, enqueue, Timely, created_apply inside]
    exact before
  · intro s task mem
    simp only [create, enqueue]
    rcases listening s task mem with old | ⟨new, own⟩
    · obtain ⟨inside, same⟩ := sound.subscribed s task old
      rw [created_apply inside]
      exact ⟨by omega, same⟩
    · subst new
      simp [own]

/-- A task that is dispatched without going through the heap. -/
theorem immediate_sound (sound : Sound p) (signal : Nat) (now : ℚ) {runAt : DueTime}
    (due : runAt ≤ .num (now : Time)) :
    Sound ((p.create signal runAt).dispatch p.sequence (some now)) ∧
      ((p.create signal runAt).dispatch p.sequence (some now)).queue = p.queue := by
  have fresh : p.sequence ∉ p.queue.items := by
    intro mem
    have := ((sound.queued p.sequence).mp mem).1
    omega
  have live : ((p.create signal runAt).objects p.sequence).completed = false := by simp [create]
  have absent : (p.queue.remove (compareRunAt (p.create signal runAt).objects) p.sequence).1 = p.queue := by
    have missing := IndexedHeap.indexed_absent sound.valid.indexed fresh
    simp only [IndexedHeap.remove, missing]
  have queue : (p.create signal runAt).queue = p.queue := rfl
  have number : runAt ≠ .nan := fun nan => OrNaN.not_nan_le _ (nan ▸ due)
  rw [dispatch_eq live]
  refine ⟨?_, absent⟩
  constructor
  · exact measured_marked (created_measured sound number) p.sequence
  · rw [compareRunAt_marked, queue, absent]
    exact created_valid sound _
  · intro task
    have before := sound.queued task
    simp only [queue, absent, marked_apply]
    simp only [create, Function.update_apply]
    grind
  · intro task
    have before := sound.dispatched task
    simp only [List.map_cons, List.mem_cons, marked_apply]
    simp only [create, Function.update_apply]
    grind
  · simp only [List.map_cons, List.nodup_cons]
    refine ⟨?_, sound.once⟩
    intro again
    have := ((sound.dispatched p.sequence).mp again).1
    omega
  · intro task inside
    have before := sound.numbered task
    rw [marked_sequence]
    simp only [create, Function.update_apply] at inside ⊢
    grind
  · intro d there
    rw [timely_marked]
    rcases List.mem_cons.mp there with latest | earlier
    · subst latest
      left
      exact ⟨now, rfl, by simpa [create] using due⟩
    · have inside := ((sound.dispatched d.task).mp (List.mem_map_of_mem earlier)).1
      have before := sound.timely d earlier
      simp only [create, Timely, created_apply inside]
      exact before
  · intro s task mem
    rw [marked_signal]
    have old : task ∈ p.listeners s := listenersWithout_subset (p.create signal runAt) p.sequence s mem
    obtain ⟨inside, same⟩ := sound.subscribed s task old
    simp only [create, created_apply inside]
    exact ⟨by omega, same⟩

theorem immediate_steady (steady : Steady p) (signal : Nat) (now : ℚ) {runAt : DueTime}
    (due : runAt ≤ .num (now : Time)) :
    Steady ((p.create signal runAt).dispatch p.sequence (some now)) := by
  obtain ⟨sound, queue⟩ := immediate_sound steady.sound signal now due
  have live : ((p.create signal runAt).objects p.sequence).completed = false := by simp [create]
  have same : ((p.create signal runAt).dispatch p.sequence (some now)).nextRunAt = p.nextRunAt := by
    simp only [nextRunAt, queue]
    cases top : p.queue.peek with
    | none => rfl
    | some task =>
      have inside := ((steady.sound.queued task).mp (List.mem_of_getElem? top)).1
      rw [dispatch_eq live]
      simp only [Option.map_some, marked_runAt, create, created_apply inside]
  rw [dispatch_eq live] at same sound ⊢
  exact ⟨sound, steady.timed, steady.armed.trans same.symm⟩

theorem effectiveDelay_zero {now : ℚ} {effective : DueTime} (zero : effective = .num 0) :
    effective.map (fun wait => (now : Time) + wait) ≤ .num (now : Time) := by
  rw [zero]
  exact OrNaN.num_le.mpr (le_of_eq (add_zero _))

theorem runAt_number {deadline : Option DueTime} (number : deadline ≠ some .nan) (delayMs : Number) (read now : ℚ) :
    (effectiveDelay delayMs (deadline.map fun due => remainingMs due read)).map (fun wait => (now : Time) + wait) ≠ .nan := by
  cases deadline with
  | none => exact nofun
  | some deadline =>
    cases deadline with
    | num due => exact nofun
    | nan => exact absurd rfl number

theorem delay_steady {q : DelayPool} {signal : Nat} {deadline : Option DueTime} {delayMs : Number}
    (steady : Steady p) (dated : Dated p (.delay signal deadline delayMs))
    (accepted : delay clock p signal deadline delayMs = .ok q) : Steady q := by
  unfold delay at accepted
  split at accepted
  · cases accepted
  · rename_i usable
    have live : signal ∉ p.aborted := fun fired => usable (.inl fired)
    split at accepted
    · cases accepted
    · rename_i serving
      split at accepted
      · cases accepted
      · rename_i measured
        have number := dated live (fun stopping => serving (.inl stopping)) (fun stopped => serving (.inr stopped))
          (Bool.eq_false_iff.mpr measured)
        simp only at accepted
        split at accepted
        · rename_i zero
          cases accepted
          exact immediate_steady steady signal _ (effectiveDelay_zero zero)
        · cases accepted
          have open_signal : ∀ runAt, signal ∉ ((p.create signal runAt).enqueue p.sequence).aborted :=
            fun _ => live
          simp only [subscribeAbort, open_signal, if_false]
          refine arm_steady (enqueue_sound steady.sound signal (runAt_number number delayMs _ _) _ ?_) steady.timed
          intro s task mem
          simp only [create, enqueue, Function.update_apply] at mem
          split at mem
          · rename_i same
            rcases List.mem_append.mp mem with old | new
            · exact .inl (same ▸ old)
            · exact .inr ⟨List.mem_singleton.mp new, same⟩
          · exact .inl mem

/-- The part of a pool that the law is about. -/
def docket (p : DelayPool) : (Nat → DelayTask) × IndexedHeap Nat × Option Timer × Option DueTime × Nat ×
    (Nat → List Nat) × List Dispatch :=
  (p.objects, p.queue, p.timer, p.armedAt, p.sequence, p.listeners, p.dispatches)

theorem steady_docket {q : DelayPool} (same : q.docket = p.docket) (steady : Steady p) : Steady q := by
  cases p
  cases q
  cases same
  exact ⟨{ steady.sound with }, steady.timed, steady.armed⟩

theorem completeTask_docket (task : Nat) : (p.completeTask task).docket = p.docket := by
  unfold completeTask finishDrainIfIdle
  split
  · rfl
  · rfl

theorem reported_docket (task : Nat) (path : ErrorPath) : (p.reported task path).docket = p.docket := by
  cases path with
  | thrown => exact completeTask_docket task
  | rejected => rfl

theorem reportPoolError_docket (task : Nat) (ownReason : Bool) (path : ErrorPath) :
    (p.reportPoolError task ownReason path).docket = p.docket := by
  unfold reportPoolError
  split
  · exact reported_docket task path
  · rfl

theorem stop_docket : p.stop.docket = p.docket := by
  unfold stop
  split
  · rfl
  · split
    · split
      · rfl
      · rfl
    · rfl

theorem step_cases {q : DelayPool} {a : Action} (next : step clock p a = some q) :
    q.docket = p.docket ∨
    (∃ signal deadline delayMs, a = .delay signal deadline delayMs ∧ delay clock p signal deadline delayMs = .ok q) ∨
    (∃ signal, q = abort clock p signal) ∨ (a = .wake ∧ q = wake clock p) := by
  cases a with
  | start =>
    cases next
    left
    unfold start
    split
    · rfl
    · rfl
  | delay signal deadline delayMs =>
    cases next
    cases result : delay clock p signal deadline delayMs with
    | ok q => exact .inr (.inl ⟨signal, deadline, delayMs, rfl, result⟩)
    | error e => exact .inl rfl
  | abort signal =>
    simp only [step] at next
    split at next
    · cases next
    · cases next
      exact .inr (.inr (.inl ⟨signal, rfl⟩))
  | wake =>
    simp only [step] at next
    split at next
    · cases next
      exact .inr (.inr (.inr ⟨rfl, rfl⟩))
    · cases next
  | run task =>
    simp only [step] at next
    split at next
    · cases next
      exact .inl rfl
    · cases next
  | throws task ownReason =>
    simp only [step] at next
    split at next
    · cases next
      exact .inl (reportPoolError_docket task ownReason .thrown)
    · cases next
  | returns task =>
    simp only [step] at next
    split at next
    · cases next
      exact .inl rfl
    · cases next
  | settles task rejection =>
    simp only [step] at next
    split at next
    · cases rejection with
      | none =>
        cases next
        exact .inl rfl
      | some ownReason =>
        cases next
        exact .inl (reportPoolError_docket task ownReason .rejected)
    · cases next
  | reporterEnds task threw =>
    simp only [step] at next
    split at next
    · rename_i path reporting
      cases next
      exact .inl (reported_docket task path)
    · cases next
  | completes task =>
    simp only [step] at next
    split at next
    · cases next
      exact .inl (completeTask_docket task)
    · cases next
  | stop =>
    cases next
    exact .inl stop_docket
  | drained call =>
    simp only [step] at next
    split at next
    · cases next
      exact .inl rfl
    · cases next
  | gaveUp call =>
    simp only [step] at next
    split at next
    · cases next
      exact .inl rfl
    · cases next

theorem step_steady {q : DelayPool} {a : Action} (steady : Steady p) (dated : Dated p a)
    (next : step clock p a = some q) : Steady q := by
  rcases step_cases next with same | ⟨signal, deadline, delayMs, rfl, accepted⟩ | ⟨signal, rfl⟩ | ⟨_, rfl⟩
  · exact steady_docket same steady
  · exact delay_steady steady dated accepted
  · exact abort_steady steady signal
  · exact wake_steady steady.sound

theorem new_steady (name : String) : Steady { name } := by
  refine ⟨?_, ?_, rfl⟩
  · constructor
    · exact fun _ => nofun
    · exact IndexedHeap.empty_valid
    · simp [IndexedHeap.empty]
    · simp
    · simp
    · simp
    · simp
    · simp
  · intro due armed
    cases armed

theorem run_steady {name : String} (run : Steps (step clock) Dated { name } p) : Steady p :=
  steps_invariant Steady (fun _ _ _ steady dated next => step_steady steady dated next) run (new_steady name)

end Operations

/-- The whole-run law. A task is accepted when it has been given a sequence
    number; a wake-up reads the clock at `clock p.reads`. -/
structure Law (clock : Nat → ℚ) (p : DelayPool) : Prop where
  dispatched_once : (p.dispatches.map Dispatch.task).Nodup
  never_early : ∀ d ∈ p.dispatches, Timely p.objects d
  wake_takes_due : ∀ q, step clock p .wake = some q → ∃ wave, Wave p q (clock p.reads) wave
  head_armed : ∀ task, ∀ due : ℚ, p.queue.peek = some task → (p.objects task).runAt = .num (due : Time) →
    p.armedAt = some (.num (due : Time)) ∧
      ∃ timer, p.timer = some timer ∧ timer.delay = .num (min maxTimeout (max 0 ⌈due - timer.now⌉))
  none_lost : ∀ task, task < p.sequence →
    (task ∈ p.queue.items ↔ task ∉ p.dispatches.map Dispatch.task)

theorem steady_law {clock : Nat → ℚ} {p : DelayPool} (steady : Steady p) : Law clock p where
  dispatched_once := steady.sound.once
  never_early := steady.sound.timely
  wake_takes_due q next := by
    simp only [step] at next
    split at next
    · cases next
      exact wake_wave steady.sound
    · cases next
  head_armed task due top finite := by
    have armed : p.armedAt = some (.num (due : Time)) := by
      rw [steady.armed, nextRunAt, top, Option.map_some, finite]
    exact ⟨armed, steady.timed due armed⟩
  none_lost task accepted := by
    rw [steady.sound.queued, steady.sound.dispatched]
    simp [accepted]

/- The delay pool keeps the law between any two operations of any run in which
   every task that it takes has a context without a deadline or with one that is
   a time, for any readings of the clock. -/
theorem delay_pool_keeps_law : ∀ clock name p, Steps (step clock) Dated { name } p → Law clock p := by
  intro clock name p run
  exact steady_law (run_steady run)

/-- A delay beyond the longest timeout, an endless one and a short one; two
    wake-ups come early, a third takes the short task, and the endless task is
    aborted. -/
def earlyWakes : List Action :=
  [.delay 0 none (.finite 3000000000), .delay 1 none .posInfinity, .delay 2 none (.finite 5), .wake,
    .wake, .wake, .abort 1]

theorem earlyWakes_dated (p : DelayPool) {a : Action} (mem : a ∈ earlyWakes) : Dated p a := by
  simp only [earlyWakes, List.mem_cons, List.not_mem_nil, or_false] at mem
  rcases mem with rfl | rfl | rfl | rfl | rfl | rfl | rfl <;> simp [Dated]

theorem delay_pool_keeps_law_clamped :
    ∃ p, Reached (fun n => (n : ℚ)) p ∧ p.dispatches.map Dispatch.task = [1, 2] ∧
      p.timer.map Timer.delay = some (.num maxTimeout) ∧ Law (fun n => (n : ℚ)) p := by
  have runs : (exec (step fun n => (n : ℚ)) { name := "delay" } earlyWakes).map (fun p =>
      (p.dispatches.map Dispatch.task, p.timer.map Timer.delay)) = some ([1, 2], some (.num maxTimeout)) := by
    decide +kernel
  obtain ⟨p, run, ends⟩ := Option.map_eq_some_iff.mp runs
  obtain ⟨dispatched, timer⟩ := Prod.mk.inj ends
  have dated : Steps (step fun n => (n : ℚ)) Dated { name := "delay" } p :=
    exec_steps_of (fun p _ mem => earlyWakes_dated p mem) run
  exact ⟨p, ⟨"delay", steps_mono (fun _ _ _ => trivial) dated⟩, dispatched, timer,
    delay_pool_keeps_law _ "delay" p dated⟩

/-- A task due in 5 ms, and one with a delay of a second whose context has the
    deadline NaN. -/
def undatedTask : List Action := [.delay 0 none (.finite 5), .delay 1 (some .nan) (.finite 1000), .wake]

/- The wake-up for the first task takes the second one too, a second before its
   delay is over and without an abort. -/
theorem undated_task_leaves_early :
    ∃ p, Reached (fun n => (n : ℚ)) p ∧ p.dispatches.map (fun d => (d.task, d.now)) = [(1, some 7), (0, some 7)] ∧
      (p.objects 1).runAt = .nan ∧ p.aborted = [] ∧ ¬Law (fun n => (n : ℚ)) p := by
  have runs : (exec (step fun n => (n : ℚ)) { name := "delay" } undatedTask).map (fun p =>
      (p.dispatches.map (fun d => (d.task, d.now)), (p.objects 1).runAt, p.aborted, p.dispatches.map Dispatch.aborted)) =
        some ([(1, some 7), (0, some 7)], .nan, [], [[], []]) := by
    decide +kernel
  obtain ⟨p, run, ends⟩ := Option.map_eq_some_iff.mp runs
  simp only [Prod.mk.injEq] at ends
  obtain ⟨taken, undated, unaborted, signals⟩ := ends
  refine ⟨p, ⟨"delay", exec_steps run⟩, taken, undated, unaborted, ?_⟩
  intro law
  obtain ⟨d, rest, first⟩ : ∃ d rest, p.dispatches = d :: rest := by
    cases list : p.dispatches with
    | nil => simp [list] at taken
    | cons d rest => exact ⟨d, rest, rfl⟩
  rw [first, List.map_cons, List.cons.injEq] at taken signals
  obtain ⟨task, -⟩ := Prod.mk.inj taken.1
  rcases law.never_early d (first ▸ List.mem_cons_self) with ⟨now, -, due⟩ | fired
  · rw [task, undated] at due
    exact OrNaN.not_nan_le _ due
  · rw [signals.1] at fired
    cases fired

end DelayPool

end Pools
