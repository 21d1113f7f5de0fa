import TsServiceLib.Pool.FifoRefinement
import TsServiceLib.Pool.PoolHistory

/-!
The start order of the task pool. Its list is a block of cancelled tasks in
front of a block of live ones, and the live block is in submission order: a
push goes to the end, a cancellation carries its task out of the live block.
What the pump takes while it is live is therefore the oldest of the live
tasks, with no cancelled task left.
-/
namespace Pools
open Transitions Numbers

/-- The context of an accepted task is among the aborted ones. -/
def Cancelled (submissions : List (Submission Unit)) (aborted : List Nat) (task : Nat) : Prop :=
  ∃ submission, submissions[task]? = some submission ∧ submission.signal ∈ aborted

instance (submissions : List (Submission Unit)) (aborted : List Nat) (task : Nat) :
    Decidable (Cancelled submissions aborted task) :=
  inferInstanceAs (Decidable (∃ submission ∈ submissions[task]?, submission.signal ∈ aborted))

/-- Cancelled tasks first, then live ones by submission. While the callbacks of
    a signal are being called, the tasks still `todo` are in the back block. -/
structure Blocks (submissions : List (Submission Unit)) (aborted todo values : List Nat) : Prop where
  accepted : ∀ task ∈ values, task < submissions.length
  split : ∃ front back, values = front ++ back ∧ (∀ task ∈ front, Cancelled submissions aborted task) ∧
    (∀ task ∈ back, Cancelled submissions aborted task → task ∈ todo) ∧ back.Pairwise (· < ·)

section Blocks
variable {submissions : List (Submission Unit)} {aborted todo values : List Nat}

theorem cancelled_append (new : Submission Unit) {task : Nat} (old : task < submissions.length) :
    Cancelled (submissions ++ [new]) aborted task ↔ Cancelled submissions aborted task := by
  simp only [Cancelled, List.getElem?_append_left old]

theorem cancelled_mono {more : List Nat} (grown : aborted ⊆ more) {task : Nat}
    (cancelled : Cancelled submissions aborted task) : Cancelled submissions more task := by
  obtain ⟨submission, found, fired⟩ := cancelled
  exact ⟨submission, found, grown fired⟩

theorem cancelled_prefix {longer : List (Submission Unit)} (grown : submissions <+: longer) {task : Nat}
    (cancelled : Cancelled submissions aborted task) : Cancelled longer aborted task := by
  obtain ⟨submission, found, fired⟩ := cancelled
  obtain ⟨rest, rfl⟩ := grown
  have inside := (List.getElem?_eq_some_iff.mp found).1
  exact ⟨submission, (List.getElem?_append_left inside).trans found, fired⟩

theorem blocks_push (blocks : Blocks submissions aborted [] values) {new : Submission Unit}
    (live : new.signal ∉ aborted) :
    Blocks (submissions ++ [new]) aborted [] (values ++ [submissions.length]) := by
  obtain ⟨accepted, front, back, shape, fired, waiting, sorted⟩ := blocks
  subst shape
  constructor
  · intro task mem
    rw [List.length_append, List.length_singleton]
    rcases List.mem_append.mp mem with old | last
    · have := accepted task old
      omega
    · rw [List.mem_singleton] at last
      omega
  · refine ⟨front, back ++ [submissions.length], List.append_assoc _ _ _, ?_, ?_, ?_⟩
    · intro task mem
      rw [cancelled_append new (accepted task (List.mem_append_left _ mem))]
      exact fired task mem
    · intro task mem
      rcases List.mem_append.mp mem with old | last
      · rw [cancelled_append new (accepted task (List.mem_append_right _ old))]
        exact waiting task old
      · rw [List.mem_singleton] at last
        rintro ⟨submission, found, gone⟩
        simp only [last, List.getElem?_concat_length, Option.some.injEq] at found
        exact absurd (found ▸ gone) live
    · rw [List.pairwise_append]
      refine ⟨sorted, List.pairwise_singleton _ _, ?_⟩
      intro task mem last same
      rw [List.mem_singleton] at same
      rw [same]
      exact accepted task (List.mem_append_right _ mem)

theorem blocks_tail {task : Nat} {rest : List Nat} (blocks : Blocks submissions aborted [] (task :: rest)) :
    Blocks submissions aborted [] rest := by
  obtain ⟨accepted, front, back, shape, fired, waiting, sorted⟩ := blocks
  refine ⟨fun other mem => accepted other (List.mem_cons_of_mem _ mem), ?_⟩
  cases front with
  | nil =>
    rw [List.nil_append] at shape
    subst shape
    exact ⟨[], rest, rfl, by simp, fun other mem => waiting other (List.mem_cons_of_mem _ mem),
      (List.pairwise_cons.mp sorted).2⟩
  | cons first front =>
    obtain ⟨_, rest_eq⟩ := List.cons.inj shape
    exact ⟨front, back, rest_eq, fun other mem => fired other (List.mem_cons_of_mem _ mem), waiting, sorted⟩

theorem blocks_head {task : Nat} {rest : List Nat} (blocks : Blocks submissions aborted [] (task :: rest))
    (live : ¬Cancelled submissions aborted task) :
    ∀ other ∈ rest, task < other ∧ ¬Cancelled submissions aborted other := by
  obtain ⟨accepted, front, back, shape, fired, waiting, sorted⟩ := blocks
  cases front with
  | nil =>
    rw [List.nil_append] at shape
    subst shape
    intro other mem
    refine ⟨(List.pairwise_cons.mp sorted).1 other mem, ?_⟩
    intro gone
    cases waiting other (List.mem_cons_of_mem _ mem) gone
  | cons first front =>
    obtain ⟨first_eq, _⟩ := List.cons.inj shape
    exact absurd (fired task (first_eq ▸ List.mem_cons_self)) live

theorem blocks_fire (blocks : Blocks submissions aborted [] values) (signal : Nat)
    (listening : ∀ task ∈ values, Cancelled submissions (signal :: aborted) task →
      ¬Cancelled submissions aborted task → task ∈ todo) :
    Blocks submissions (signal :: aborted) todo values := by
  obtain ⟨accepted, front, back, shape, fired, waiting, sorted⟩ := blocks
  refine ⟨accepted, front, back, shape, ?_, ?_, sorted⟩
  · intro task mem
    exact cancelled_mono (List.subset_cons_self _ _) (fired task mem)
  · intro task mem gone
    apply listening task (shape ▸ List.mem_append_right _ mem) gone
    intro before
    cases waiting task mem before

theorem blocks_promote {task : Nat} (blocks : Blocks submissions aborted (task :: todo) values)
    (nodup : values.Nodup) (cancelled : task ∈ values → Cancelled submissions aborted task) :
    Blocks submissions aborted todo (listed.promote values task) := by
  obtain ⟨accepted, front, back, shape, fired, waiting, sorted⟩ := blocks
  subst shape
  have others : ∀ other ∈ back, other ≠ task → Cancelled submissions aborted other → other ∈ todo := by
    intro other mem different gone
    exact (List.mem_cons.mp (waiting other mem gone)).resolve_left different
  simp only [listed]
  split
  · rename_i mem
    constructor
    · intro other there
      apply accepted
      rcases List.mem_cons.mp there with same | kept
      · rw [same]
        exact mem
      · exact List.mem_of_mem_erase kept
    · refine ⟨task :: front.erase task, back.erase task, ?_, ?_, ?_, sorted.sublist List.erase_sublist⟩
      · rcases Decidable.em (task ∈ front) with inside | outside
        · have elsewhere : task ∉ back := by
            intro behind
            exact (List.nodup_append.mp nodup).2.2 task inside task behind rfl
          rw [List.erase_append_left _ inside, List.erase_of_not_mem elsewhere]
          rfl
        · rw [List.erase_append_right _ outside, List.erase_of_not_mem outside]
          rfl
      · intro other there
        rcases List.mem_cons.mp there with same | kept
        · rw [same]
          exact cancelled mem
        · exact fired other (List.mem_of_mem_erase kept)
      · intro other there
        have distinct := (List.nodup_append.mp nodup).2.1
        obtain ⟨different, inside⟩ := distinct.mem_erase_iff.mp there
        exact others other inside different
  · rename_i absent
    refine ⟨accepted, front, back, rfl, fired, ?_, sorted⟩
    intro other mem
    apply others other mem
    intro same
    exact absent (List.mem_append_right _ (same ▸ mem))

/-- All callbacks of a signal, on the linked queue and on the list it holds. -/
theorem blocks_promoteAll {q : FifoQueue Nat} (queued : q.Queued values)
    (blocks : Blocks submissions aborted todo values)
    (cancelled : ∀ task ∈ todo, task ∈ values → Cancelled submissions aborted task) :
    ∃ values', (todo.foldl fifo.promote q).Queued values' ∧ Blocks submissions aborted [] values' := by
  induction todo generalizing q values with
  | nil => exact ⟨values, queued, blocks⟩
  | cons task rest ih =>
    have nodup := (FifoQueue.queued_keys queued).nodup_iff.mp q.nodes.nodup
    have moved := blocks_promote blocks nodup (cancelled task List.mem_cons_self)
    apply ih (promote_queued queued task) moved
    intro other mem there
    apply cancelled other (List.mem_cons_of_mem _ mem)
    simp only [listed] at there
    split at there
    · rename_i present
      rcases List.mem_cons.mp there with same | kept
      · rw [same]
        exact present
      · exact List.mem_of_mem_erase kept
    · exact there

end Blocks

/-- What a start that took a live task says about the tasks then queued. -/
def Fair (submissions : List (Submission Unit)) (start : Start) : Prop :=
  start.task < submissions.length ∧ ∀ other ∈ start.queued, other < submissions.length ∧
    (¬Cancelled submissions start.aborted start.task → other = start.task ∨
      (start.task < other ∧ ¬Cancelled submissions start.aborted other))

/-- What holds of the task pool at every turn of its pump. -/
structure Arranged (p : Pool Unit (FifoQueue Nat)) : Prop where
  queue : ∃ values, p.queue.Queued values ∧ Blocks p.submissions p.aborted [] values
  fair : ∀ start ∈ p.starts, Fair p.submissions start

section Order
variable {p : Pool Unit (FifoQueue Nat)}

theorem dispatch_arranged (arranged : Arranged p) {task : Nat} {rest : FifoQueue Nat}
    (taken : fifo.take p.queue = (some task, rest)) : Arranged (dispatch fifo p task rest) := by
  obtain ⟨⟨values, queued, blocks⟩, fair⟩ := arranged
  cases values with
  | nil =>
    have empty : fifo.take p.queue = (none, p.queue) := FifoQueue.shift_empty queued
    rw [empty] at taken
    cases taken
  | cons first values =>
    have shifted := FifoQueue.shift_queued queued
    change p.queue.shift = _ at taken
    rw [taken] at shifted
    obtain ⟨same, left⟩ := shifted
    cases same
    refine ⟨⟨values, left, blocks_tail blocks⟩, ?_⟩
    intro start mem
    rcases List.mem_cons.mp mem with latest | earlier
    · subst latest
      refine ⟨blocks.accepted task List.mem_cons_self, ?_⟩
      intro other there
      have member : other ∈ task :: values := (FifoQueue.queued_keys queued).mem_iff.mp there
      refine ⟨blocks.accepted other member, ?_⟩
      intro live
      rcases List.mem_cons.mp member with same | later
      · exact .inl same
      · exact .inr (blocks_head blocks live other later)
    · exact fair start earlier

theorem fair_append {submissions : List (Submission Unit)} {start : Start} (fair : Fair submissions start)
    (new : Submission Unit) : Fair (submissions ++ [new]) start := by
  have longer : (submissions ++ [new]).length = submissions.length + 1 := by simp
  refine ⟨?_, ?_⟩
  · have := fair.1
    omega
  · intro other there
    obtain ⟨inside, live⟩ := fair.2 other there
    rw [cancelled_append new fair.1, cancelled_append new inside]
    exact ⟨by omega, live⟩

theorem accept_arranged (arranged : Arranged p) {signal : Nat} (live : signal ∉ p.aborted)
    (listeners : Nat → List Nat) (argument : Unit) :
    Arranged { p with
      submissions := p.submissions ++ [⟨signal, argument⟩]
      listeners := listeners
      queue := fifo.push (fifo.create p.queue p.submissions.length argument) p.submissions.length } := by
  obtain ⟨⟨values, queued, blocks⟩, fair⟩ := arranged
  have fresh : p.submissions.length ∉ values := by
    intro mem
    have := blocks.accepted _ mem
    omega
  exact ⟨⟨_, FifoQueue.push_queued queued fresh, blocks_push blocks live⟩,
    fun start mem => fair_append (fair start mem) _⟩

theorem abort_arranged (steady : Steady fifoLawful p) (subscribed : Subscribed fifo p)
    (arranged : Arranged p) (signal : Nat) : Arranged (abort fifo p signal) := by
  obtain ⟨⟨values, queued, blocks⟩, fair⟩ := arranged
  rw [abort_eq steady]
  refine ⟨?_, fair⟩
  have listens : ∀ task ∈ values, ∀ s,
      task ∈ p.listeners s ↔ signalOf p task = some s ∧ s ∉ p.aborted := by
    intro task mem
    exact subscribed.listens task ((FifoQueue.queued_keys queued).mem_iff.mpr mem)
  apply blocks_promoteAll queued
  · apply blocks_fire blocks
    rintro task mem ⟨submission, found, gone⟩ before
    have kept : submission.signal ∉ p.aborted := fun fired => before ⟨submission, found, fired⟩
    rcases List.mem_cons.mp gone with same | fired
    · apply (listens task mem signal).mpr
      simp only [signalOf, found, Option.map_some, same]
      exact ⟨trivial, same ▸ kept⟩
    · exact absurd fired kept
  · intro task called mem
    obtain ⟨own, _⟩ := (listens task mem signal).mp called
    obtain ⟨submission, found, same⟩ := Option.map_eq_some_iff.mp own
    exact ⟨submission, found, same ▸ List.mem_cons_self⟩

theorem step_arranged {q : Pool Unit (FifoQueue Nat)} {a : Action Unit} (steady : Steady fifoLawful p)
    (held : Subscribed fifo p ∧ Arranged p) (next : step fifo p a = some q) :
    Subscribed fifo q ∧ Arranged q := by
  apply step_register (L := fifoLawful) (I := fun p => Subscribed fifo p ∧ Arranged p) _ _ _ _ steady
    held next
  · rintro before after same ⟨subscribed, arranged⟩
    cases before
    cases after
    cases same
    exact ⟨{ subscribed with }, { arranged with }⟩
  · rintro before task rest sound ⟨subscribed, arranged⟩ taken
    exact ⟨dispatch_subscribed sound subscribed taken, dispatch_arranged arranged taken⟩
  · rintro before signal argument sound ⟨subscribed, arranged⟩ live
    exact ⟨accept_subscribed sound subscribed live, accept_arranged arranged live _ argument⟩
  · rintro before signal held ⟨subscribed, arranged⟩
    exact ⟨abort_subscribed held subscribed signal, abort_arranged held subscribed arranged signal⟩

/-- The register of a new pool satisfies what is empty. -/
theorem make_arranged {name : String} {availableParallelism : Option Nat} {count : Number}
    (made : make fifo name availableParallelism count = .ok p) :
    Subscribed fifo p ∧ Arranged p ∧ Recorded (fun task start => task ≤ start.task) p.starts := by
  have empty := make_register made
  obtain ⟨queue, submissions, listeners, aborted, starts⟩ : p.queue = fifo.empty ∧ p.submissions = [] ∧
      p.listeners = (fun _ => []) ∧ p.aborted = [] ∧ p.starts = [] := by
    simpa [Pool.register] using empty
  refine ⟨⟨?_, ?_⟩, ⟨⟨[], ?_, ?_⟩, ?_⟩, ?_⟩
  · intro task mem
    rw [queue] at mem
    cases mem
  · intro signal task mem
    rw [listeners] at mem
    cases mem
  · rw [queue]
    exact FifoQueue.queued_empty
  · exact ⟨by simp, [], [], rfl, by simp, by simp, List.Pairwise.nil⟩
  · simp [starts]
  · rw [starts]
    trivial

theorem reached_arranged {ok : Pool Unit (FifoQueue Nat) → Action Unit → Prop}
    (reached : Reached fifo ok p) :
    Arranged p ∧ Recorded (fun task start => task ≤ start.task) p.starts := by
  obtain ⟨_, _, _, first, made, run⟩ := reached
  obtain ⟨subscribed, arranged, recorded⟩ := make_arranged made
  have all : Steady fifoLawful p ∧ (Subscribed fifo p ∧ Arranged p) ∧
      Recorded (fun task start => task ≤ start.task) p.starts := by
    apply steps_invariant (fun p => Steady fifoLawful p ∧ (Subscribed fifo p ∧ Arranged p) ∧
      Recorded (fun task start => task ≤ start.task) p.starts) _ run
    · exact ⟨make_steady made, ⟨subscribed, arranged⟩, recorded⟩
    · intro before a after held _ next
      exact ⟨step_steady held.1 next, step_arranged held.1 held.2.1 next,
        step_recorded held.1 held.2.2 next⟩
  exact ⟨all.2.1.2, all.2.2⟩

theorem live_after_earlier (reached : Reached fifo Any p) {after before : List Start} {start : Start}
    (place : p.starts = after ++ start :: before)
    (live : ¬Cancelled p.submissions start.aborted start.task) {task : Nat} (earlier : task < start.task) :
    task ∈ before.map Start.task := by
  obtain ⟨arranged, recorded⟩ := reached_arranged reached
  have fair : Fair p.submissions start := by
    apply arranged.fair
    rw [place]
    simp
  rw [place] at recorded
  rcases recorded_split recorded (Nat.le_of_lt earlier) with queued | started
  · rcases (fair.2 task queued).2 live with same | later
    · omega
    · omega
  · exact started

theorem since_place {m : Pool Unit (FifoQueue Nat)} {new after before : List Start} {start : Start}
    (sound : Sound fifoLawful m) (since : Since fifo m p new)
    (place : p.starts = after ++ start :: before) (queued : start.task ∈ fifo.contents m.queue) :
    ∃ recent, new = after ++ start :: recent ∧ before = recent ++ m.starts := by
  have split := since.starts.symm.trans place
  rcases List.append_eq_append_iff.mp split with ⟨rest, after_eq, old⟩ | ⟨rest, new_eq, tail⟩
  · exfalso
    have waiting := ((sound.queued start.task).mp queued).2
    apply (sound.started start.task).mp _ waiting
    rw [old]
    simp
  · cases rest with
    | nil =>
      exfalso
      have waiting := ((sound.queued start.task).mp queued).2
      apply (sound.started start.task).mp _ waiting
      rw [List.nil_append] at tail
      rw [← tail]
      simp
    | cons first recent =>
      obtain ⟨rfl, before_eq⟩ := List.cons.inj tail
      exact ⟨recent, new_eq, before_eq⟩

theorem cancelled_before_live {m : Pool Unit (FifoQueue Nat)} (reached : Reached fifo Any m)
    (run : Steps (step fifo) Any m p) {after before : List Start} {start : Start}
    (place : p.starts = after ++ start :: before) (queued : start.task ∈ fifo.contents m.queue)
    (live : ¬Cancelled p.submissions start.aborted start.task) {task : Nat}
    (waiting : task ∈ fifo.contents m.queue) (cancelled : Cancelled m.submissions m.aborted task) :
    task ∈ before.map Start.task := by
  have steady := reached_steady fifoLawful reached
  have later : Reached fifo Any p := by
    obtain ⟨name, parallelism, count, first, made, start⟩ := reached
    exact ⟨name, parallelism, count, first, made, steps_trans start run⟩
  obtain ⟨new, since⟩ := steps_since steady run
  obtain ⟨recent, new_eq, before_eq⟩ := since_place steady.sound since place queued
  have fair : Fair p.submissions start := by
    apply (reached_arranged later).1.fair
    rw [place]
    simp
  have gone : Cancelled p.submissions start.aborted task := by
    apply cancelled_prefix since.submissions
    apply cancelled_mono (since.fired start _) cancelled
    rw [new_eq]
    simp
  have recorded := since.recorded
  rw [new_eq] at recorded
  rcases recorded_split recorded waiting with still | started
  · rcases (fair.2 task still).2 live with same | alive
    · exact absurd (same ▸ gone) live
    · exact absurd gone alive.2
  · rw [before_eq, List.map_append]
    exact List.mem_append_left _ started

end Order

/- The pool refines the one over a plain list; a task that is live when it
   starts follows all earlier submissions; and a task cancelled while queued
   starts before those queued then that are still live when they start. -/
theorem fifo_pool_order :
    (∀ name availableParallelism count first actions p,
      make fifo name availableParallelism count = .ok first → exec (step fifo) first actions = some p →
      ∃ abstract abstract', make listed name availableParallelism count = .ok abstract ∧
        exec (step listed) abstract actions = some abstract' ∧ Refines p abstract') ∧
    (∀ p, Reached fifo Any p → ∀ after start before, p.starts = after ++ start :: before →
      ¬Cancelled p.submissions start.aborted start.task →
      ∀ task, task < start.task → task ∈ before.map Start.task) ∧
    (∀ m p, Reached fifo Any m → Steps (step fifo) Any m p →
      ∀ task ∈ fifo.contents m.queue, Cancelled m.submissions m.aborted task →
      ∀ after start before, p.starts = after ++ start :: before →
      start.task ∈ fifo.contents m.queue → ¬Cancelled p.submissions start.aborted start.task →
      task ∈ before.map Start.task) := by
  refine ⟨?_, ?_, ?_⟩
  · intro name availableParallelism count first actions p made run
    obtain ⟨abstract, made', refines⟩ := make_refines made
    obtain ⟨abstract', run', refines'⟩ := exec_refines refines (make_steady made) run
    exact ⟨abstract, abstract', made', run', refines'⟩
  · intro p reached after start before place live task earlier
    exact live_after_earlier reached place live earlier
  · intro m p reached run task waiting cancelled after start before place queued live
    exact cancelled_before_live reached run place queued live waiting cancelled

/-- One executor is busy with the first task while two more are queued, and the
    context of the second task is aborted. -/
def crowded : List (Action Unit) :=
  [.start, .addTask 0 false (), .addTask 1 false (), .addTask 2 false (), .addTask 3 false (), .abort 2]

/-- The active task runs to its end, and the next one is taken. -/
def completesTask (task : Nat) : List (Action Unit) :=
  [.run task, .returns task, .settles task none, .completes task]

theorem fifo_pool_order_promoted :
    ∃ m p start before, Reached fifo Any m ∧ Steps (step fifo) Any m p ∧ p.starts = start :: before ∧
      start.task = 1 ∧ 0 ∈ before.map Start.task ∧ 2 ∈ before.map Start.task := by
  obtain ⟨first, made⟩ : ∃ first, make fifo "pool" none (.finite 1) = .ok first := ⟨_, rfl⟩
  have runs : ∃ m p start before, exec (step fifo) first crowded = some m ∧
      exec (step fifo) m (completesTask 0 ++ completesTask 2) = some p ∧ p.starts = start :: before ∧
      start.task = 1 ∧ ¬Cancelled p.submissions start.aborted start.task ∧
      2 ∈ fifo.contents m.queue ∧ Cancelled m.submissions m.aborted 2 ∧
      start.task ∈ fifo.contents m.queue := by
    cases made
    exact ⟨_, _, _, _, rfl, rfl, rfl, rfl, by decide, by decide, by decide, by decide⟩
  obtain ⟨m, p, start, before, begins, run, place, task, live, waiting, cancelled, queued⟩ := runs
  have reached : Reached fifo Any m := exec_reached made (fun _ _ _ => trivial) begins
  have later : Reached fifo Any p := by
    obtain ⟨name, parallelism, count, origin, made', steps⟩ := reached
    exact ⟨name, parallelism, count, origin, made', steps_trans steps (exec_steps run)⟩
  refine ⟨m, p, start, before, reached, exec_steps run, place, task, ?_, ?_⟩
  · exact fifo_pool_order.2.1 p later [] start before place live 0 (by omega)
  · exact fifo_pool_order.2.2 m p reached (exec_steps run) 2 waiting cancelled [] start before place
      queued live

/- A task aborted while queued is overtaken by one that was live at that moment
   and is aborted after it: the later promotion goes in front. -/
theorem cancelled_overtaken_by_later_abort :
    ¬∀ m p, Reached fifo Any m → Steps (step fifo) Any m p →
      ∀ task ∈ fifo.contents m.queue, Cancelled m.submissions m.aborted task →
      ∀ after start before, p.starts = after ++ start :: before →
      start.task ∈ fifo.contents m.queue → ¬Cancelled m.submissions m.aborted start.task →
      task ∈ before.map Start.task := by
  intro claimed
  obtain ⟨first, made⟩ : ∃ first, make fifo "pool" none (.finite 1) = .ok first := ⟨_, rfl⟩
  have runs : ∃ m p start before, exec (step fifo) first crowded = some m ∧
      exec (step fifo) m (.abort 1 :: completesTask 0) = some p ∧ p.starts = [] ++ start :: before ∧
      start.task ∈ fifo.contents m.queue ∧ ¬Cancelled m.submissions m.aborted start.task ∧
      2 ∈ fifo.contents m.queue ∧ Cancelled m.submissions m.aborted 2 ∧
      2 ∉ before.map Start.task := by
    cases made
    exact ⟨_, _, _, _, rfl, rfl, rfl, by decide, by decide, by decide, by decide, by decide⟩
  obtain ⟨m, p, start, before, begins, run, place, queued, live, waiting, cancelled, overtaken⟩ := runs
  have reached : Reached fifo Any m := exec_reached made (fun _ _ _ => trivial) begins
  exact overtaken (claimed m p reached (exec_steps run) 2 waiting cancelled [] start before place
    queued live)

end Pools
