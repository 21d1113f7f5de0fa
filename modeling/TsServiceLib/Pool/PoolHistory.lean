import TsServiceLib.Pool.PoolInvariant

/-!
What the records of a pool say about the past, for any lawful queue: which
signals the queued tasks listen to, and that a task queued at some moment is,
at every later start, either still queued or among the starts before it.
-/
namespace Pools
open Transitions Numbers

/-- A queued task listens to its own signal until that fires. -/
structure Subscribed {A Q : Type} (D : Discipline A Q) (p : Pool A Q) : Prop where
  listens : ∀ task ∈ D.contents p.queue, ∀ signal,
    task ∈ p.listeners signal ↔ signalOf p task = some signal ∧ signal ∉ p.aborted
  known : ∀ signal, ∀ task ∈ p.listeners signal, task < p.submissions.length

/-- Every task that was `present` at a start was queued then or had started. -/
def Recorded (present : Nat → Start → Prop) : List Start → Prop
  | [] => True
  | start :: before =>
    (∀ task, present task start → task ∈ start.queued ∨ task ∈ before.map Start.task) ∧
      Recorded present before

theorem recorded_split {present : Nat → Start → Prop} {after before : List Start} {start : Start}
    (recorded : Recorded present (after ++ start :: before)) {task : Nat} (there : present task start) :
    task ∈ start.queued ∨ task ∈ before.map Start.task := by
  induction after with
  | nil => exact recorded.1 task there
  | cons _ _ ih => exact ih recorded.2

/-- What has happened to a pool since `m`: the new starts, and where the tasks
    queued in `m` have been at each of them. -/
structure Since {A Q : Type} (D : Discipline A Q) (m p : Pool A Q) (new : List Start) : Prop where
  starts : p.starts = new ++ m.starts
  submissions : m.submissions <+: p.submissions
  aborted : m.aborted ⊆ p.aborted
  fired : ∀ start ∈ new, m.aborted ⊆ start.aborted
  recorded : Recorded (fun task _ => task ∈ D.contents m.queue) new
  kept : ∀ task ∈ D.contents m.queue, task ∈ D.contents p.queue ∨ task ∈ new.map Start.task

section History
variable {A Q : Type} {D : Discipline A Q} {L : Lawful D} {p : Pool A Q}

theorem mem_listenersWithout {task other : Nat} (different : other ≠ task) (signal : Nat) :
    other ∈ listenersWithout p task signal ↔ other ∈ p.listeners signal := by
  unfold listenersWithout
  cases signalOf p task with
  | none => exact Iff.rfl
  | some own =>
    simp only [Function.update_apply]
    split
    · rename_i same
      simp [same, different]
    · exact Iff.rfl

theorem listenersWithout_subset (task signal : Nat) :
    listenersWithout p task signal ⊆ p.listeners signal := by
  unfold listenersWithout
  cases signalOf p task with
  | none => exact List.Subset.refl _
  | some own =>
    simp only [Function.update_apply]
    split
    · rename_i same
      rw [same]
      exact List.filter_sublist.subset
    · exact List.Subset.refl _

theorem taken_mem (sound : Sound L p) {task : Nat} {rest : Q}
    (taken : D.take p.queue = (some task, rest)) (other : Nat) :
    other ∈ D.contents p.queue ↔ other = task ∨ other ∈ D.contents rest := by
  rw [← (L.take_contents _ _ _ sound.queue_ok taken).mem_iff, List.mem_cons]

theorem taken_ne (sound : Sound L p) {task : Nat} {rest : Q}
    (taken : D.take p.queue = (some task, rest)) {other : Nat} (left : other ∈ D.contents rest) :
    other ≠ task := by
  have distinct := (L.take_contents _ _ _ sound.queue_ok taken).nodup_iff.mpr
    (L.nodup _ sound.queue_ok)
  intro same
  exact (List.nodup_cons.mp distinct).1 (same ▸ left)

theorem dispatch_subscribed (sound : Sound L p) (subscribed : Subscribed D p) {task : Nat} {rest : Q}
    (taken : D.take p.queue = (some task, rest)) : Subscribed D (dispatch D p task rest) := by
  constructor
  · intro other left signal
    have before := (taken_mem sound taken other).mpr (.inr left)
    have different := taken_ne sound taken left
    exact (mem_listenersWithout different signal).trans (subscribed.listens other before signal)
  · intro signal other mem
    exact subscribed.known signal other (listenersWithout_subset task signal mem)

theorem accepted_mem (sound : Sound L p) (argument : A) (task : Nat) :
    task ∈ D.contents (D.push (D.create p.queue p.submissions.length argument) p.submissions.length) ↔
      task = p.submissions.length ∨ task ∈ D.contents p.queue := by
  have created := L.create_contents p.queue p.submissions.length argument
  have absent : p.submissions.length ∉ D.contents (D.create p.queue p.submissions.length argument) := by
    rw [created, sound.queued]
    omega
  have perm := L.push_contents _ _ (L.create_ok _ p.submissions.length argument sound.queue_ok) absent
  rw [created] at perm
  rw [perm.mem_iff, List.mem_cons]

theorem promoteAll_mem (steady : Steady L p) (tasks : List Nat) (task : Nat) :
    task ∈ D.contents (tasks.foldl D.promote p.queue) ↔ task ∈ D.contents p.queue := by
  have after := (promoteAll_steady steady tasks).sound.queued task
  exact after.trans (steady.sound.queued task).symm

theorem accept_subscribed (sound : Sound L p) (subscribed : Subscribed D p) {signal : Nat}
    {argument : A} (live : signal ∉ p.aborted) :
    Subscribed D { p with
      submissions := p.submissions ++ [⟨signal, argument⟩]
      listeners := Function.update p.listeners signal (p.listeners signal ++ [p.submissions.length])
      queue := D.push (D.create p.queue p.submissions.length argument) p.submissions.length } := by
  have silent : ∀ s, p.submissions.length ∉ p.listeners s := by
    intro s mem
    have := subscribed.known s _ mem
    omega
  constructor
  · intro task mem s
    simp only [signalOf, Function.update_apply]
    rcases (accepted_mem sound argument task).mp mem with new | old
    · subst new
      rw [List.getElem?_concat_length]
      split
      · rename_i same
        simp [same, live]
      · rename_i other
        simp [silent s, Ne.symm other]
    · have inside := ((sound.queued task).mp old).1
      have different : task ≠ p.submissions.length := by omega
      have before := subscribed.listens task old s
      rw [List.getElem?_append_left inside, ← signalOf]
      split
      · rename_i same
        subst same
        simpa [different] using before
      · exact before
  · intro s task mem
    simp only [Function.update_apply] at mem
    rw [List.length_append, List.length_singleton]
    split at mem
    · rcases List.mem_append.mp mem with old | new
      · have := subscribed.known _ _ old
        omega
      · rw [List.mem_singleton] at new
        omega
    · have := subscribed.known _ _ mem
      omega

theorem abort_subscribed (steady : Steady L p) (subscribed : Subscribed D p) (signal : Nat) :
    Subscribed D (abort D p signal) := by
  rw [abort_eq steady]
  constructor
  · intro task mem s
    have before := subscribed.listens task ((promoteAll_mem steady _ task).mp mem) s
    simp only [Function.update_apply, List.mem_cons]
    split
    · rename_i same
      simp [same]
    · rename_i other
      simpa [signalOf, other] using before
  · intro s task mem
    simp only [Function.update_apply] at mem
    split at mem
    · cases mem
    · exact subscribed.known s task mem

end History

/-- The part of a pool that its order is about. -/
def Pool.register {A Q : Type} (p : Pool A Q) :
    Q × List (Submission A) × (Nat → List Nat) × List Nat × List Start :=
  (p.queue, p.submissions, p.listeners, p.aborted, p.starts)

theorem finishDrain_register {A Q : Type} {D : Discipline A Q} (p : Pool A Q) :
    (finishDrainIfIdle D p).register = p.register := by
  unfold finishDrainIfIdle
  split
  · rfl
  · rfl

section Rule
variable {A Q : Type} {D : Discipline A Q} {L : Lawful D} {p : Pool A Q} {I : Pool A Q → Prop}
  (frame : ∀ p q : Pool A Q, p.register = q.register → I p → I q)
  (turn : ∀ p task rest, Sound L p → I p → D.take p.queue = (some task, rest) →
    I (dispatch D p task rest))
include frame turn

theorem pump_register (sound : Sound L p) (start : I p) : I (pump D p) := by
  have both : Sound L (pump D p) ∧ I (pump D p) := by
    apply pump_invariant (fun p => Sound L p ∧ I p) _ _ ⟨sound, start⟩
    · intro before after held next
      have kept := startNext_sound held.1 next
      obtain ⟨_, task, rest, taken, rfl⟩ := startNext_some next
      exact ⟨kept, turn before task rest held.1 held.2 taken⟩
    · intro before held
      exact ⟨finishDrain_sound held.1, frame before _ (finishDrain_register before).symm held.2⟩
  exact both.2

/-- The rule for a step: what only looks at the register is kept when a turn of
    the pump, an acceptance and an abort keep it. -/
theorem step_register
    (accept : ∀ p signal argument, Sound L p → I p → signal ∉ p.aborted → I { p with
      submissions := p.submissions ++ [⟨signal, argument⟩]
      listeners := Function.update p.listeners signal (p.listeners signal ++ [p.submissions.length])
      queue := D.push (D.create p.queue p.submissions.length argument) p.submissions.length })
    (abort : ∀ p signal, Steady L p → I p → I (abort D p signal))
    {q : Pool A Q} {a : Action A} (steady : Steady L p) (held : I p)
    (next : step D p a = some q) : I q := by
  have sound := steady.sound
  cases step_move next with
  | unchanged => exact held
  | start created => exact pump_register frame turn (start_sound sound created) (frame p _ rfl held)
  | resize => exact pump_register (L := L) frame turn { sound with } (frame p _ rfl held)
  | accept signal argument live opened =>
    have accepted := accept_sound sound (fun stopped => opened (.inr stopped)) ⟨signal, argument⟩
      (Function.update p.listeners signal (p.listeners signal ++ [p.submissions.length])) argument
    exact pump_register frame turn accepted (accept p signal argument sound held live)
  | abort signal live => exact abort p signal steady held
  | run => exact frame p _ rfl held
  | advance => exact frame p _ rfl held
  | finish _ task active => exact pump_register frame turn (finish_sound sound active) (frame p _ rfl held)
  | stop =>
    have begun : I (beginStop D p) := by
      unfold beginStop
      split
      · rename_i absent
        have stopping := pump_register frame turn (stopping_sound sound absent) (frame p _ rfl held)
        exact frame _ _ (finishDrain_register _).symm stopping
      · exact held
    unfold stop
    split
    · exact frame p _ rfl held
    · exact frame (beginStop D p) _ rfl begun
  | settle => exact frame p _ rfl held

end Rule

section Reached
variable {A Q : Type} {D : Discipline A Q} {p : Pool A Q}

theorem make_register {name : String} {availableParallelism : Option Nat} {count : Number}
    (made : make D name availableParallelism count = .ok p) :
    p.register = (D.empty, [], fun _ => [], [], []) := by
  unfold make at made
  split at made
  · cases made
  · cases made
    rfl

theorem dispatch_recorded {L : Lawful D} (sound : Sound L p)
    (held : Recorded (fun task start => task ≤ start.task) p.starts) {task : Nat} {rest : Q}
    (taken : D.take p.queue = (some task, rest)) :
    Recorded (fun task start => task ≤ start.task) (dispatch D p task rest).starts := by
  refine ⟨?_, held⟩
  intro older le
  have member := (taken_mem sound taken task).mpr (.inl rfl)
  have accepted := ((sound.queued task).mp member).1
  rcases Classical.em (p.stage older = .waiting) with waiting | started
  · left
    exact (sound.queued older).mpr ⟨Nat.lt_of_le_of_lt le accepted, waiting⟩
  · exact .inr ((sound.started older).mpr started)

theorem step_recorded {L : Lawful D} {q : Pool A Q} {a : Action A} (steady : Steady L p)
    (held : Recorded (fun task start => task ≤ start.task) p.starts) (next : step D p a = some q) :
    Recorded (fun task start => task ≤ start.task) q.starts := by
  apply step_register (L := L) (I := fun p => Recorded _ p.starts) _ _ _ _ steady held next
  · intro before after same old
    cases before
    cases after
    cases same
    exact old
  · intro before task rest sound old taken
    exact dispatch_recorded sound old taken
  · intro before signal argument sound old live
    exact old
  · intro before signal steady old
    rw [abort_eq steady]
    exact old

variable {m : Pool A Q}

theorem since_refl : Since D m m [] where
  starts := rfl
  submissions := List.prefix_refl _
  aborted := List.Subset.refl _
  fired := by simp
  recorded := trivial
  kept _ mem := .inl mem

theorem dispatch_since {L : Lawful D} {new : List Start} (sound : Sound L p) (since : Since D m p new)
    {task : Nat} {rest : Q} (taken : D.take p.queue = (some task, rest)) :
    Since D m (dispatch D p task rest)
      (⟨task, p.active, p.executorsCount, D.contents p.queue, p.aborted⟩ :: new) where
  starts := by
    simp only [dispatch, since.starts, List.cons_append]
  submissions := since.submissions
  aborted := since.aborted
  fired start mem := by
    rcases List.mem_cons.mp mem with latest | earlier
    · rw [latest]
      exact since.aborted
    · exact since.fired start earlier
  recorded := ⟨since.kept, since.recorded⟩
  kept other queued := by
    simp only [List.map_cons, List.mem_cons]
    rcases since.kept other queued with waiting | started
    · rcases (taken_mem sound taken other).mp waiting with same | left
      · exact .inr (.inl same)
      · exact .inl left
    · exact .inr (.inr started)

theorem step_since {L : Lawful D} {q : Pool A Q} {a : Action A} (steady : Steady L p)
    (held : ∃ new, Since D m p new) (next : step D p a = some q) : ∃ new, Since D m q new := by
  apply step_register (L := L) (I := fun p => ∃ new, Since D m p new) _ _ _ _ steady held next
  · rintro before after same ⟨new, since⟩
    cases before
    cases after
    cases same
    exact ⟨new, { since with }⟩
  · rintro before task rest sound ⟨new, since⟩ taken
    exact ⟨_, dispatch_since sound since taken⟩
  · rintro before signal argument sound ⟨new, since⟩ live
    refine ⟨new, { since with submissions := ?_, kept := ?_ }⟩
    · exact since.submissions.trans (List.prefix_append _ _)
    · intro task queued
      rcases since.kept task queued with waiting | started
      · exact .inl ((accepted_mem sound argument task).mpr (.inr waiting))
      · exact .inr started
  · rintro before signal steady ⟨new, since⟩
    rw [abort_eq steady]
    refine ⟨new, { since with aborted := ?_, kept := ?_ }⟩
    · exact fun s mem => List.mem_cons_of_mem _ (since.aborted mem)
    · intro task queued
      rcases since.kept task queued with waiting | started
      · exact .inl ((promoteAll_mem steady _ task).mpr waiting)
      · exact .inr started

theorem steps_since {L : Lawful D} {ok : Pool A Q → Action A → Prop} (steady : Steady L m)
    (run : Steps (step D) ok m p) : ∃ new, Since D m p new := by
  have both : Steady L p ∧ ∃ new, Since D m p new := by
    apply steps_invariant (fun p => Steady L p ∧ ∃ new, Since D m p new) _ run ⟨steady, [], since_refl⟩
    intro before a after held _ next
    exact ⟨step_steady held.1 next, step_since held.1 held.2 next⟩
  exact both.2

end Reached

end Pools
