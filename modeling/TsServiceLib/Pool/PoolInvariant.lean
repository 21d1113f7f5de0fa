import TsServiceLib.Pool.PoolSteps

/-!
The invariant of the pools. Everything but the order of dispatch holds for any
queue that keeps its contents, so it is proved over a lawful discipline. What
a turn of the pump keeps holds in the middle of an operation; what the end of
the pump adds holds between operations.
-/
namespace Pools
open Transitions Numbers

/-- What a pool needs from its queue: a representation invariant, and each
    operation doing to the contents what its name says. -/
structure Lawful {A Q : Type} (D : Discipline A Q) where
  Ok : Q → Prop
  empty_ok : Ok D.empty
  empty_contents : D.contents D.empty = []
  length_eq : ∀ q, Ok q → D.length q = (D.contents q).length
  nodup : ∀ q, Ok q → (D.contents q).Nodup
  create_ok : ∀ q task argument, Ok q → Ok (D.create q task argument)
  create_contents : ∀ q task argument, D.contents (D.create q task argument) = D.contents q
  push_ok : ∀ q task, Ok q → task ∉ D.contents q → Ok (D.push q task)
  push_contents : ∀ q task, Ok q → task ∉ D.contents q →
    (D.contents (D.push q task)).Perm (task :: D.contents q)
  take_ok : ∀ q task rest, Ok q → D.take q = (some task, rest) → Ok rest
  take_contents : ∀ q task rest, Ok q → D.take q = (some task, rest) →
    (task :: D.contents rest).Perm (D.contents q)
  take_none : ∀ q rest, Ok q → D.take q = (none, rest) → D.contents q = []
  promote_ok : ∀ q task, Ok q → Ok (D.promote q task)
  promote_contents : ∀ q task, Ok q → (D.contents (D.promote q task)).Perm (D.contents q)

/-- The tasks in an active stage are exactly these, and the counter counts them. -/
structure Counts (stage : Nat → Stage) (active : Nat) (tasks : List Nat) : Prop where
  nodup : tasks.Nodup
  length : tasks.length = active
  mem : ∀ task, task ∈ tasks ↔ (stage task).isActive = true

/-- What holds of a pool at every turn of its pump. -/
structure Sound {A Q : Type} {D : Discipline A Q} (L : Lawful D) (p : Pool A Q) : Prop where
  queue_ok : L.Ok p.queue
  queued : ∀ task, task ∈ D.contents p.queue ↔
    task < p.submissions.length ∧ p.stage task = .waiting
  unborn : ∀ task, p.submissions.length ≤ task → p.stage task = .waiting
  counted : ∃ tasks, Counts p.stage p.active tasks
  starts_nodup : (p.starts.map Start.task).Nodup
  started : ∀ task, task ∈ p.starts.map Start.task ↔ p.stage task ≠ .waiting
  executed_nodup : p.executed.Nodup
  executed : ∀ task ∈ p.executed, p.stage task ≠ .waiting ∧ p.stage task ≠ .scheduled
  within : ∀ start ∈ p.starts, start.active < start.executorsCount
  drain_absent : p.drain = .absent ↔ p.state = .created ∨ p.state = .running
  drain_resolved : p.drain = .resolved → p.state = .stopped
  idle : p.state = .stopped → p.active = 0 ∧ D.contents p.queue = []
  stopping : p.stopCalls ≠ [] → p.drain ≠ .absent
  fulfilled : .fulfilled ∈ p.stopCalls → p.state = .stopped

/-- What the end of a pump adds: no executor is free while a task is queued,
    and an idle stopping pool has stopped. -/
structure Pumped {A Q : Type} (D : Discipline A Q) (p : Pool A Q) : Prop where
  busy : p.state = .running ∨ p.state = .stopping →
    D.contents p.queue = [] ∨ p.executorsCount ≤ p.active
  draining : p.state = .stopping → p.active ≠ 0 ∨ D.contents p.queue ≠ []

section Turns
variable {A Q : Type} {D : Discipline A Q} {L : Lawful D} {p : Pool A Q}

theorem sound_length_zero (sound : Sound L p) : D.length p.queue = 0 ↔ D.contents p.queue = [] := by
  rw [L.length_eq p.queue sound.queue_ok]
  exact List.length_eq_zero_iff

theorem dispatch_sound (sound : Sound L p) (room : p.active < p.executorsCount) {task : Nat}
    {rest : Q} (taken : D.take p.queue = (some task, rest)) : Sound L (dispatch D p task rest) := by
  have perm := L.take_contents _ _ _ sound.queue_ok taken
  have member : task ∈ D.contents p.queue := perm.mem_iff.mp List.mem_cons_self
  obtain ⟨accepted, waiting⟩ := (sound.queued task).mp member
  have distinct := perm.nodup_iff.mpr (L.nodup _ sound.queue_ok)
  rw [List.nodup_cons] at distinct
  have rest_mem : ∀ other, other ∈ D.contents rest ↔ other ∈ D.contents p.queue ∧ other ≠ task := by
    intro other
    rw [← perm.mem_iff, List.mem_cons]
    constructor
    · intro mem
      refine ⟨.inr mem, ?_⟩
      intro same
      exact distinct.1 (same ▸ mem)
    · intro mem
      exact mem.1.resolve_left mem.2
  refine { sound with
    queue_ok := L.take_ok _ _ _ sound.queue_ok taken
    queued := ?_, unborn := ?_, counted := ?_, starts_nodup := ?_, started := ?_
    executed := ?_, within := ?_, idle := ?_ }
  · intro other
    have old := sound.queued other
    simp only [dispatch, removeAbortListener, rest_mem, Function.update_apply]
    grind
  · intro other outside
    have different : other ≠ task := by
      simp only [dispatch, removeAbortListener] at outside
      omega
    simp only [dispatch, Function.update_of_ne different]
    exact sound.unborn other outside
  · obtain ⟨tasks, counts⟩ := sound.counted
    have inactive : task ∉ tasks := by
      rw [counts.mem, waiting]
      simp [Stage.isActive]
    refine ⟨task :: tasks, List.nodup_cons.mpr ⟨inactive, counts.nodup⟩, ?_, ?_⟩
    · simp [dispatch, counts.length]
    · intro other
      simp only [dispatch, List.mem_cons, counts.mem, Function.update_apply]
      split
      · rename_i same
        simp [same, Stage.isActive]
      · rename_i different
        simp [different]
  · simp only [dispatch, List.map_cons, List.nodup_cons]
    exact ⟨fun mem => (sound.started task).mp mem waiting, sound.starts_nodup⟩
  · intro other
    simp only [dispatch, List.map_cons, List.mem_cons, Function.update_apply]
    split
    · rename_i same
      simp [same]
    · rename_i different
      simp only [different, false_or]
      exact sound.started other
  · intro other mem
    have old := sound.executed other mem
    have different : other ≠ task := by
      intro same
      subst same
      exact old.1 waiting
    simp only [dispatch, Function.update_of_ne different]
    exact old
  · intro start mem
    simp only [dispatch, List.mem_cons] at mem
    rcases mem with new | old
    · subst new
      exact room
    · exact sound.within start old
  · intro stopped
    have empty := (sound.idle stopped).2
    rw [empty] at member
    cases member

theorem startNext_none (sound : Sound L p) (rests : startNext D p = none) :
    D.contents p.queue = [] ∨ p.executorsCount ≤ p.active := by
  unfold startNext at rests
  split at rests
  · split at rests
    · rename_i rest taken
      exact .inl (L.take_none _ _ sound.queue_ok taken)
    · cases rests
  · rename_i full
    have zero := sound_length_zero sound
    rcases Nat.lt_or_ge p.active p.executorsCount with room | none
    · left
      apply zero.mp
      omega
    · exact .inr none

theorem startNext_sound {q : Pool A Q} (sound : Sound L p) (next : startNext D p = some q) :
    Sound L q := by
  obtain ⟨room, task, rest, taken, rfl⟩ := startNext_some next
  exact dispatch_sound sound room taken

theorem finishDrain_sound (sound : Sound L p) : Sound L (finishDrainIfIdle D p) := by
  unfold finishDrainIfIdle
  split
  · rename_i idle
    obtain ⟨stopping, inactive, empty⟩ := idle
    exact { sound with
      drain_absent := by
        have absent := sound.drain_absent
        simp_all
      drain_resolved := fun _ => rfl
      idle := fun _ => ⟨inactive, (sound_length_zero sound).mp empty⟩
      stopping := by simp
      fulfilled := fun _ => rfl }
  · exact sound

theorem pump_sound (sound : Sound L p) : Sound L (pump D p) :=
  pump_invariant (Sound L) (fun _ _ held next => startNext_sound held next)
    (fun _ held => finishDrain_sound held) sound

theorem pumpLoop_rests {turns : Nat} (sound : Sound L p) (enough : D.length p.queue ≤ turns) :
    Sound L (pumpLoop D turns p) ∧ startNext D (pumpLoop D turns p) = none := by
  induction turns generalizing p with
  | zero =>
    refine ⟨sound, ?_⟩
    unfold pumpLoop startNext
    rw [if_neg]
    omega
  | succ turns ih =>
    unfold pumpLoop
    split
    · rename_i rests
      exact ⟨sound, rests⟩
    · rename_i q next
      have kept := startNext_sound sound next
      apply ih kept
      obtain ⟨_, task, rest, taken, rfl⟩ := startNext_some next
      have shorter := (L.take_contents _ _ _ sound.queue_ok taken).length_eq
      have before := L.length_eq _ sound.queue_ok
      have after := L.length_eq _ kept.queue_ok
      simp only [List.length_cons] at shorter
      simp only [dispatch] at after ⊢
      omega

theorem pump_pumped (sound : Sound L p) : Pumped D (pump D p) := by
  unfold pump
  split
  · obtain ⟨kept, rests⟩ := pumpLoop_rests sound (Nat.le_refl (D.length p.queue))
    have full := startNext_none kept rests
    have zero := sound_length_zero kept
    unfold finishDrainIfIdle
    split
    · constructor <;> simp
    · rename_i busy
      refine ⟨fun _ => full, ?_⟩
      intro stopping
      rw [stopping, zero] at busy
      tauto
  · rename_i halted
    refine ⟨fun moving => absurd moving halted, fun stopping => absurd (.inr stopping) halted⟩

end Turns

structure Steady {A Q : Type} {D : Discipline A Q} (L : Lawful D) (p : Pool A Q) : Prop where
  sound : Sound L p
  pumped : Pumped D p

section Operations
variable {A Q : Type} {D : Discipline A Q} {L : Lawful D} {p : Pool A Q}

theorem pump_steady (sound : Sound L p) : Steady L (pump D p) :=
  ⟨pump_sound sound, pump_pumped sound⟩

theorem make_steady {name : String} {availableParallelism : Option Nat} {count : Number}
    (made : make D name availableParallelism count = .ok p) : Steady L p := by
  unfold make at made
  split at made
  · cases made
  · cases made
    constructor
    · constructor <;> try simp [L.empty_contents]
      · exact L.empty_ok
      · exact ⟨[], List.nodup_nil, rfl, fun task => by simp [Stage.isActive]⟩
    · constructor <;> simp

theorem start_sound (sound : Sound L p) (created : p.state = .created) :
    Sound L { p with state := .running } := by
  have absent := sound.drain_absent.mpr (.inl created)
  exact { sound with
    drain_absent := by simp [absent]
    drain_resolved := by simp [absent]
    idle := by simp
    fulfilled := by
      intro mem
      have stopped := sound.fulfilled mem
      rw [created] at stopped
      cases stopped }

theorem promote_sound (sound : Sound L p) (task : Nat) :
    Sound L { p with queue := D.promote p.queue task } := by
  have perm := L.promote_contents p.queue task sound.queue_ok
  exact { sound with
    queue_ok := L.promote_ok _ _ sound.queue_ok
    queued := fun other => perm.mem_iff.trans (sound.queued other)
    idle := by
      intro stopped
      have idle := sound.idle stopped
      rw [idle.2] at perm
      exact ⟨idle.1, perm.eq_nil⟩ }

theorem accept_sound (sound : Sound L p) (opened : p.state ≠ .stopped) (submission : Submission A)
    (listeners : Nat → List Nat) (argument : A) :
    Sound L { p with
      submissions := p.submissions ++ [submission]
      listeners := listeners
      queue := D.push (D.create p.queue p.submissions.length argument) p.submissions.length } := by
  have created_ok := L.create_ok p.queue p.submissions.length argument sound.queue_ok
  have created := L.create_contents p.queue p.submissions.length argument
  have absent : p.submissions.length ∉ D.contents (D.create p.queue p.submissions.length argument) := by
    rw [created, sound.queued]
    omega
  have perm := L.push_contents _ _ created_ok absent
  rw [created] at perm
  have unborn := sound.unborn p.submissions.length (Nat.le_refl _)
  exact { sound with
    queue_ok := L.push_ok _ _ created_ok absent
    queued := by
      intro task
      simp only [perm.mem_iff, List.mem_cons, sound.queued, List.length_append, List.length_singleton]
      constructor
      · rintro (rfl | ⟨inside, waiting⟩)
        · exact ⟨by omega, unborn⟩
        · exact ⟨by omega, waiting⟩
      · rintro ⟨inside, waiting⟩
        rcases Nat.lt_or_eq_of_le (Nat.le_of_lt_succ inside) with older | new
        · exact .inr ⟨older, waiting⟩
        · exact .inl new
    unborn := by
      intro task outside
      simp only [List.length_append, List.length_singleton] at outside
      exact sound.unborn task (by omega)
    idle := fun stopped => absurd stopped opened }

theorem pump_idle (steady : Steady L p) : pump D p = p := by
  have zero := sound_length_zero steady.sound
  unfold pump
  split
  · rename_i moving
    have rests : startNext D p = none := by
      unfold startNext
      rw [if_neg]
      rcases steady.pumped.busy moving with empty | full
      · have vacant := zero.mpr empty
        omega
      · omega
    have loop : pumpLoop D (D.length p.queue) p = p := by
      cases D.length p.queue with
      | zero => rfl
      | succ turns => simp only [pumpLoop, rests]
    rw [loop]
    unfold finishDrainIfIdle
    rw [if_neg]
    rintro ⟨stopping, inactive, vacant⟩
    rcases steady.pumped.draining stopping with active | queued
    · exact active inactive
    · exact queued (zero.mp vacant)
  · rfl

theorem promote_steady (steady : Steady L p) (task : Nat) :
    Steady L { p with queue := D.promote p.queue task } := by
  have perm := L.promote_contents p.queue task steady.sound.queue_ok
  have empty : D.contents (D.promote p.queue task) = [] ↔ D.contents p.queue = [] := by
    rw [← List.length_eq_zero_iff, ← List.length_eq_zero_iff, perm.length_eq]
  refine ⟨promote_sound steady.sound task, ?_, ?_⟩
  · intro moving
    rcases steady.pumped.busy moving with vacant | full
    · exact .inl (empty.mpr vacant)
    · exact .inr full
  · intro stopping
    rcases steady.pumped.draining stopping with active | queued
    · exact .inl active
    · exact .inr fun vacant => queued (empty.mp vacant)

theorem cancel_eq (steady : Steady L p) (task : Nat) :
    cancel D p task = { p with queue := D.promote p.queue task } :=
  pump_idle (promote_steady steady task)

theorem notify_eq {signal : Nat} {tasks : List Nat} (steady : Steady L p)
    (subscribed : ∀ task ∈ tasks, task ∈ p.listeners signal) :
    tasks.foldl (notify D signal) p = { p with queue := tasks.foldl D.promote p.queue } := by
  induction tasks generalizing p with
  | nil => rfl
  | cons task rest ih =>
    have here := subscribed task List.mem_cons_self
    have head : notify D signal p task = { p with queue := D.promote p.queue task } := by
      rw [notify, if_pos here]
      exact cancel_eq steady task
    rw [List.foldl_cons, head]
    apply ih (promote_steady steady task)
    intro other mem
    exact subscribed other (List.mem_cons_of_mem _ mem)

theorem abort_eq (steady : Steady L p) (signal : Nat) :
    abort D p signal = { p with
      aborted := signal :: p.aborted
      queue := (p.listeners signal).foldl D.promote p.queue
      listeners := Function.update p.listeners signal [] } := by
  have fired : Steady L { p with aborted := signal :: p.aborted } :=
    ⟨{ steady.sound with }, { steady.pumped with }⟩
  have subscribed : ∀ task ∈ p.listeners signal, task ∈ p.listeners signal := fun _ mem => mem
  have notified := notify_eq fired subscribed
  simp only [abort, notified]

theorem promoteAll_steady (steady : Steady L p) (tasks : List Nat) :
    Steady L { p with queue := tasks.foldl D.promote p.queue } := by
  induction tasks generalizing p with
  | nil => exact steady
  | cons task rest ih => exact ih (promote_steady steady task)

theorem abort_steady (steady : Steady L p) (signal : Nat) : Steady L (abort D p signal) := by
  rw [abort_eq steady]
  have promoted := promoteAll_steady steady (p.listeners signal)
  exact ⟨{ promoted.sound with }, { promoted.pumped with }⟩

theorem active_ne_waiting {stage : Stage} (active : stage.isActive = true) : stage ≠ .waiting := by
  intro waiting
  rw [waiting] at active
  cases active

theorem update_waiting {stages : Nat → Stage} {task : Nat} {stage : Stage}
    (before : stages task ≠ .waiting) (after : stage ≠ .waiting) (other : Nat) :
    Function.update stages task stage other = .waiting ↔ stages other = .waiting := by
  rw [Function.update_apply]
  split
  · rename_i same
    rw [same]
    exact ⟨fun h => absurd h after, fun h => absurd h before⟩
  · exact Iff.rfl

theorem toStage_sound (sound : Sound L p) {task : Nat} {stage : Stage}
    (active : (p.stage task).isActive = true) (still : stage.isActive = true)
    (past : stage ≠ .scheduled) : Sound L (toStage p task stage) := by
  have new_ne := active_ne_waiting still
  have same_waiting := update_waiting (active_ne_waiting active) new_ne
  exact { sound with
    queued := fun other => by
      rw [toStage, same_waiting]
      exact sound.queued other
    unborn := fun other outside => (same_waiting other).mpr (sound.unborn other outside)
    counted := by
      obtain ⟨tasks, counts⟩ := sound.counted
      refine ⟨tasks, counts.nodup, counts.length, ?_⟩
      intro other
      simp only [toStage, counts.mem, Function.update_apply]
      split
      · rename_i same
        rw [same, active, still]
      · exact Iff.rfl
    started := fun other => (sound.started other).trans (not_congr (same_waiting other)).symm
    executed := fun other mem => by
      have old := sound.executed other mem
      simp only [toStage, Function.update_apply]
      split
      · exact ⟨new_ne, past⟩
      · exact old }

theorem finish_sound (sound : Sound L p) {task : Nat} (active : (p.stage task).isActive = true) :
    Sound L { p with active := p.active - 1, stage := Function.update p.stage task .finished } := by
  obtain ⟨tasks, counts⟩ := sound.counted
  have member := (counts.mem task).mpr active
  have positive : 0 < p.active := by
    rw [← counts.length]
    exact List.length_pos_of_mem member
  have finished_ne : Stage.finished ≠ .waiting := by simp
  have same_waiting := update_waiting (active_ne_waiting active) finished_ne
  exact { sound with
    queued := fun other => by
      rw [same_waiting]
      exact sound.queued other
    unborn := fun other outside => (same_waiting other).mpr (sound.unborn other outside)
    counted := by
      refine ⟨tasks.erase task, counts.nodup.erase task, ?_, ?_⟩
      · rw [List.length_erase_of_mem member, counts.length]
      · intro other
        simp only [counts.nodup.mem_erase_iff, counts.mem, Function.update_apply]
        split
        · rename_i same
          simp [same, Stage.isActive]
        · rename_i different
          simp [different]
    started := fun other => (sound.started other).trans (not_congr (same_waiting other)).symm
    executed := fun other mem => by
      have old := sound.executed other mem
      simp only [Function.update_apply]
      split
      · simp
      · exact old
    idle := fun stopped => by
      have idle := sound.idle stopped
      omega }

theorem run_steady (steady : Steady L p) {task : Nat} (scheduled : p.stage task = .scheduled) :
    Steady L { toStage p task .executing with executed := task :: p.executed } := by
  have active : (p.stage task).isActive = true := by
    rw [scheduled]
    rfl
  have moved : Sound L (toStage p task .executing) :=
    toStage_sound steady.sound active rfl (by simp)
  have first : task ∉ p.executed := fun mem => (steady.sound.executed task mem).2 scheduled
  refine ⟨{ moved with executed_nodup := ?_, executed := ?_ }, { steady.pumped with }⟩
  · exact List.nodup_cons.mpr ⟨first, steady.sound.executed_nodup⟩
  · intro other mem
    rcases List.mem_cons.mp mem with rfl | old
    · simp [toStage]
    · exact moved.executed other old

theorem stopping_sound (sound : Sound L p) (absent : p.drain = .absent) :
    Sound L { p with state := .stopping, drain := .pending } :=
  { sound with
    drain_absent := by simp
    drain_resolved := by simp
    idle := by simp
    stopping := by simp
    fulfilled := by
      intro mem
      have stopped := sound.fulfilled mem
      have := sound.drain_absent.mp absent
      rw [stopped] at this
      simp at this }

theorem beginStop_steady (steady : Steady L p) : Steady L (beginStop D p) := by
  unfold beginStop
  split
  · rename_i absent
    have pumped := pump_steady (stopping_sound steady.sound absent)
    refine ⟨finishDrain_sound pumped.sound, ?_⟩
    unfold finishDrainIfIdle
    split
    · constructor <;> simp
    · exact pumped.pumped
  · exact steady

/-- A pool whose stop has begun, with what it had accepted by then. -/
def Closed (accepted : List (Submission A)) (p : Pool A Q) : Prop :=
  p.drain ≠ .absent ∧ p.submissions = accepted

theorem finishDrain_closed {accepted : List (Submission A)} (closed : Closed accepted p) :
    Closed accepted (finishDrainIfIdle D p) := by
  unfold finishDrainIfIdle
  split
  · exact ⟨by simp, closed.2⟩
  · exact closed

theorem pump_closed {accepted : List (Submission A)} (closed : Closed accepted p) :
    Closed accepted (pump D p) := by
  apply pump_invariant (Closed accepted) _ (fun _ held => finishDrain_closed held) closed
  intro before after held next
  obtain ⟨_, task, rest, _, rfl⟩ := startNext_some next
  exact held

theorem beginStop_closed : Closed p.submissions (beginStop D p) := by
  unfold beginStop
  split
  · apply finishDrain_closed
    apply pump_closed
    exact ⟨by simp, rfl⟩
  · rename_i begun
    exact ⟨begun, rfl⟩

theorem stop_steady (steady : Steady L p) : Steady L (stop D p) := by
  unfold stop
  split
  · rename_i stopped
    have sound := steady.sound
    refine ⟨{ sound with stopping := ?_, fulfilled := fun _ => stopped }, { steady.pumped with }⟩
    intro _ absent
    have := sound.drain_absent.mp absent
    simp [stopped] at this
  · have begun := beginStop_steady steady
    have closed : (beginStop D p).drain ≠ .absent := beginStop_closed.1
    refine ⟨{ begun.sound with stopping := fun _ => closed, fulfilled := ?_ }, { begun.pumped with }⟩
    intro mem
    rcases List.mem_append.mp mem with earlier | now
    · exact begun.sound.fulfilled earlier
    · split at now
      · rename_i idle
        rw [sound_length_zero begun.sound] at idle
        have waiting := begun.pumped.draining
        have open_states := begun.sound.drain_absent
        cases phase : (beginStop D p).state with
        | created => exact absurd (open_states.mpr (.inl phase)) closed
        | running => exact absurd (open_states.mpr (.inr phase)) closed
        | stopping =>
          rcases waiting phase with busy | queued
          · exact absurd idle.1 busy
          · exact absurd idle.2 queued
        | stopped => trivial
      · simp at now

theorem settle_steady (steady : Steady L p) {call : Nat} {outcome : StopCall}
    (allowed : outcome = .fulfilled → p.drain = .resolved) :
    Steady L { p with stopCalls := p.stopCalls.set call outcome } := by
  have sound := steady.sound
  refine ⟨{ sound with stopping := ?_, fulfilled := ?_ }, { steady.pumped with }⟩
  · intro nonempty
    apply sound.stopping
    intro empty
    rw [empty] at nonempty
    exact nonempty rfl
  · intro mem
    rcases List.mem_or_eq_of_mem_set mem with earlier | new
    · exact sound.fulfilled earlier
    · exact sound.drain_resolved (allowed new.symm)

theorem step_steady {q : Pool A Q} {a : Action A} (steady : Steady L p)
    (next : step D p a = some q) : Steady L q := by
  have sound := steady.sound
  cases step_move next with
  | unchanged => exact steady
  | start created => exact pump_steady (start_sound sound created)
  | resize => exact pump_steady { sound with }
  | accept signal argument live opened =>
    exact pump_steady (accept_sound sound (fun stopped => opened (.inr stopped)) _ _ _)
  | abort signal live => exact abort_steady steady signal
  | run task scheduled => exact run_steady steady scheduled
  | advance _ task stage active still past =>
    exact ⟨toStage_sound sound active still past, { steady.pumped with }⟩
  | finish _ task active => exact pump_steady (finish_sound sound active)
  | stop => exact stop_steady steady
  | settle _ call outcome allowed => exact settle_steady steady allowed

theorem reached_steady (L : Lawful D) {ok : Pool A Q → Action A → Prop} (reached : Reached D ok p) :
    Steady L p := by
  obtain ⟨_, _, _, first, made, run⟩ := reached
  exact steps_invariant (Steady L) (fun _ _ _ steady _ next => step_steady steady next) run
    (make_steady made)

theorem step_closed {accepted : List (Submission A)} {q : Pool A Q} {a : Action A}
    (steady : Steady L p) (closed : Closed accepted p) (next : step D p a = some q) :
    Closed accepted q := by
  have begun : p.state = .stopping ∨ p.state = .stopped := by
    have absent := steady.sound.drain_absent
    cases phase : p.state with
    | created => exact absurd (absent.mpr (.inl phase)) closed.1
    | running => exact absurd (absent.mpr (.inr phase)) closed.1
    | stopping => exact .inl rfl
    | stopped => exact .inr rfl
  cases step_move next with
  | unchanged => exact closed
  | start created => simp [created] at begun
  | resize _ _ opened => exact absurd begun opened
  | accept _ _ _ opened => exact absurd begun opened
  | abort signal live =>
    rw [abort_eq steady]
    exact closed
  | run => exact closed
  | advance => exact closed
  | finish => exact pump_closed closed
  | stop =>
    unfold stop
    split
    · exact closed
    · have stopping : Closed p.submissions (beginStop D p) := beginStop_closed
      rw [closed.2] at stopping
      exact stopping
  | settle => exact closed

theorem steps_closed {ok : Pool A Q → Action A → Prop} {q : Pool A Q} (steady : Steady L p)
    (begun : p.drain ≠ .absent) (run : Steps (step D) ok p q) : q.submissions = p.submissions := by
  have held : Steady L q ∧ Closed p.submissions q := by
    apply steps_invariant (fun q => Steady L q ∧ Closed p.submissions q) _ run
    · exact ⟨steady, begun, rfl⟩
    · intro before a after both _ next
      exact ⟨step_steady both.1 next, step_closed both.1 both.2 next⟩
  exact held.2.2

end Operations

end Pools
