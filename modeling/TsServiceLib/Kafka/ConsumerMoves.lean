import TsServiceLib.Kafka.ConfluentConsumer

/-!
Everything the consumer can do, said once. A step is a sequence of moves, each
with the checks the code has made on the way to it; an invariant is shown over
the moves. What is promised of the surroundings is a parameter: which records
may be marked or committed, and which batches may be handed over.
-/
namespace Kafka
open Transitions Numbers OrderedMaps

/-- A record may always be acknowledged while its handler runs. -/
structure Promise where
  own : State → Nat → Prop
  batch : State → Nat → List Message → Prop
  handling : ∀ s t r, (s.taskTable t).phase = .handling r → own s r

def Promise.none : Promise := ⟨fun _ _ => True, fun _ _ _ => True, fun _ _ _ _ => trivial⟩

def Promise.Keeps (promise : Promise) (s : State) : Action → Prop
  | .mark r _ _ => promise.own s r
  | .commit r _ _ => promise.own s r
  | .fetched (some messages) => ∀ call, s.run = .fetching call → promise.batch s call messages
  | _ => True

/-- No messages of a batch are left to be handed out, or the consumer has failed. -/
def State.HandedOut (s : State) : Prop :=
  ∀ call groups, s.run = .dispatching call groups → groups = [] ∨ s.failure.isSome = true

inductive Move (promise : Promise) (s : State) : State → Prop where
  | invalidate : Move promise s s.invalidate
  | fails (f : Failure) : Move promise s { s with failure := some (s.failure.getD f) }
  | cancel : Move promise s { s with cancelled := true }
  | stop (paused : Nat → Bool) (more : ∀ p, s.paused p = true → paused p = true) :
      Move promise s { s with stopping := true, paused := paused }
  | book (table : Nat → Commit) (pending : List Nat) :
      Move promise s { s with commitTable := table, commits := pending }
  /- The consume loop. -/
  | turn (run : RunPhase) (still : run = .polling ∨ run = .ended ∨ ∃ tasks, run = .draining tasks)
      (handedOut : s.HandedOut) : Move promise s { s with run := run }
  | called (handedOut : s.HandedOut) : Move promise s s.callConsume
  | dropped (call : Nat) (messages : List Message) (fetching : s.run = .fetching call)
      (stopping : s.stopping = true) :
      Move promise s { s with restart := s.restartAfter messages, run := .polling }
  | received (call : Nat) (messages : List Message) (fetching : s.run = .fetching call)
      (kept : promise.batch s call messages) (opened : s.stopping = false) :
      Move promise s { s with
        restart := s.restartAfter messages
        run := .dispatching call (State.groupByPartition (s.assigned messages)).entries }
  | launch (call partition : Nat) (messages : List Message) (groups : List (Nat × List Message))
      (batch : s.run = .dispatching call ((partition, messages) :: groups)) :
      Move promise s (s.launch call partition messages groups)
  /- A delivery. -/
  | handler (t lease : Nat) (message : Message) (rest : List Message)
      (ready : (s.taskTable t).phase = .ready) (left : (s.taskTable t).rest = message :: rest)
      (held : (s.taskTable t).lease = some lease)
      (current : s.current message.partition lease = true) :
      Move promise s (s.startHandler t lease message rest)
  | mark (r : Nat) (metadata : String) (own : promise.own s r)
      (current : s.current (s.records r).message.partition (s.records r).lease = true) :
      Move promise s { s with
        records := Function.update s.records r { s.records r with marked := some metadata }
        history := .marked (s.records r).lease (s.records r).message.offset :: s.history }
  | commit (r : Nat) (metadata : Option String) (throws : Bool) (own : promise.own s r)
      (current : s.current (s.records r).message.partition (s.records r).lease = true) :
      Move promise s (s.openCommit r metadata throws)
  | committed (c : Nat) (resolved : (s.commitTable c).status = .resolved) :
      Move promise s (s.commitContinues c)
  | sought (t r : Nat) (handling : (s.taskTable t).phase = .handling r)
      (current : s.current (s.records r).message.partition (s.records r).lease = true) :
      Move promise s
        (((s.log (.sought (s.records r).lease (s.records r).message.offset)).setTask t .seeking).restartAt
          (s.records r).message.partition (s.records r).message.offset)
  | soughtInVain (t r : Nat) (handling : (s.taskTable t).phase = .handling r)
      (current : s.current (s.records r).message.partition (s.records r).lease = true) :
      Move promise s
        ((s.log (.sought (s.records r).lease (s.records r).message.offset)).setTask t .rejected)
  | stored (t r : Nat) (phase : TaskPhase) (handling : (s.taskTable t).phase = .handling r)
      (current : s.current (s.records r).message.partition (s.records r).lease = true)
      (marked : (s.records r).marked.isSome = true) (next : phase = .ready ∨ phase = .rejected) :
      Move promise s ((s.log (.stored (s.records r).lease (s.records r).message.offset)).setTask t phase)
  | acknowledged (t r : Nat) (phase : TaskPhase) (handling : (s.taskTable t).phase = .handling r)
      (done : (s.records r).committed = true ∨ (s.records r).marked.isSome = true)
      (next : phase = .ready ∨ ∃ c, phase = .committing c) : Move promise s (s.setTask t phase)
  | awaited (t c : Nat) (committing : (s.taskTable t).phase = .committing c) :
      Move promise s (s.setTask t .ready)
  | finished (t : Nat) (ready : (s.taskTable t).phase = .ready) (left : (s.taskTable t).rest = []) :
      Move promise s (s.setTask t .settled)
  | soughtBack (t : Nat) (seeking : (s.taskTable t).phase = .seeking) :
      Move promise s (s.setTask t .settled)
  | overtakenReady (t lease : Nat) (message : Message) (rest : List Message)
      (ready : (s.taskTable t).phase = .ready) (left : (s.taskTable t).rest = message :: rest)
      (held : (s.taskTable t).lease = some lease)
      (lost : s.current message.partition lease = false) : Move promise s (s.setTask t .settled)
  | overtakenHandling (t r : Nat) (handling : (s.taskTable t).phase = .handling r)
      (lost : s.current (s.records r).message.partition (s.records r).lease = false) :
      Move promise s (s.setTask t .settled)
  | overtakenRejected (t : Nat) (rejected : (s.taskTable t).phase = .rejected)
      (lost : ∀ lease, (s.taskTable t).lease = some lease →
        s.current (s.taskTable t).partition lease = false) : Move promise s (s.setTask t .settled)
  | rejects (t : Nat) (active : (s.taskTable t).phase ≠ .settled ∧ (s.taskTable t).phase ≠ .done) :
      Move promise s (s.setTask t .rejected)
  | ends (t : Nat) (settled : (s.taskTable t).phase = .settled) :
      Move promise s (s.endTask t)
  | resumes (t lease : Nat) (paused : Nat → Bool) (settled : (s.taskTable t).phase = .settled)
      (held : (s.taskTable t).lease = some lease)
      (current : s.current (s.taskTable t).partition lease = true)
      (same : ∀ p, p ≠ (s.taskTable t).partition → paused p = s.paused p) :
      Move promise s (((s.endTask t).log (.resumed lease)).setPaused paused)
  /- A restoration. -/
  | rebalanced (partitions : List TopicPartition) :
      Move promise s (s.invalidate.beginRestoration partitions)
  | provided (r : Nat) (answer : Option (Option CheckpointOffsets))
      (awaiting : (s.restorations r).phase = .awaitingProvider) : Move promise s (s.provided r answer)
  | watermarks (r : Nat) (offsets : CheckpointOffsets) (tp : TopicPartition) (next : Int)
      (rest : List TopicPartition) (chosen : List Assignment) (answer : Option (Number × Number))
      (querying : (s.restorations r).phase = .querying offsets tp next rest chosen) :
      Move promise s (s.watermarks r offsets tp next rest chosen answer)
  | restorationEnds (r : Nat) (ending : Ending) (without : ending ≠ .assigned)
      (unfinished : ∀ ending, (s.restorations r).phase ≠ .ended ending) :
      Move promise s (s.setRestoration r (.ended ending))
  | assignThrew (r : Nat) (chosen : List Assignment) (commits : List Nat)
      (settling : (s.restorations r).phase = .settling chosen commits)
      (newest : s.overtaken (s.restorations r).generation = false) :
      Move promise s
        ((s.log (.assignCalled (s.restorations r).generation chosen true)).setRestoration r .rejected)
  | assigned (r : Nat) (chosen : List Assignment) (commits : List Nat)
      (settling : (s.restorations r).phase = .settling chosen commits)
      (newest : s.overtaken (s.restorations r).generation = false)
      (between : ∀ call groups, s.run ≠ .dispatching call groups) :
      Move promise s (((s.restorations r).partitions.foldl
        (State.addLease (s.restorations r).generation)
        (s.log (.assignCalled (s.restorations r).generation chosen false))).setRestoration r
          (.ended .assigned))

inductive Moves (promise : Promise) : State → State → Prop where
  | refl (s : State) : Moves promise s s
  | tail {s t u : State} (first : Moves promise s t) (next : Move promise t u) : Moves promise s u

section Tasks
variable (s : State) (t n : Nat) (phase : TaskPhase)

@[simp] theorem setTask_lease : ((s.setTask t phase).taskTable n).lease = (s.taskTable n).lease := by
  rcases eq_or_ne n t with rfl | other
  · simp [State.setTask]
  · simp [State.setTask, other]

@[simp] theorem setTask_call : ((s.setTask t phase).taskTable n).call = (s.taskTable n).call := by
  rcases eq_or_ne n t with rfl | other
  · simp [State.setTask]
  · simp [State.setTask, other]

@[simp] theorem setTask_partition :
    ((s.setTask t phase).taskTable n).partition = (s.taskTable n).partition := by
  rcases eq_or_ne n t with rfl | other
  · simp [State.setTask]
  · simp [State.setTask, other]

@[simp] theorem setTask_rest : ((s.setTask t phase).taskTable n).rest = (s.taskTable n).rest := by
  rcases eq_or_ne n t with rfl | other
  · simp [State.setTask]
  · simp [State.setTask, other]

theorem setTask_phase :
    ((s.setTask t phase).taskTable n).phase = if n = t then phase else (s.taskTable n).phase := by
  rcases eq_or_ne n t with rfl | other
  · simp [State.setTask]
  · simp [State.setTask, other]

end Tasks

theorem Moves.single {promise : Promise} {s t : State} (move : Move promise s t) :
    Moves promise s t :=
  .tail (.refl s) move

theorem Moves.head {promise : Promise} {s t u : State} (first : Move promise s t)
    (rest : Moves promise t u) : Moves promise s u := by
  induction rest with
  | refl => exact .single first
  | tail _ next ih => exact .tail ih next

theorem Moves.trans {promise : Promise} {s t u : State} (first : Moves promise s t)
    (second : Moves promise t u) : Moves promise s u := by
  induction second with
  | refl => exact first
  | tail _ next ih => exact .tail ih next

section Functions
variable {promise : Promise} {s : State}

theorem fail_moves (f : Failure) : Moves promise s (s.fail f) := by
  apply Moves.head (.fails f)
  apply Moves.head .invalidate
  exact .single (.book _ _)

theorem leaveLoop_moves (handedOut : s.HandedOut) : Moves promise s s.leaveLoop := by
  unfold State.leaveLoop
  split
  · exact .head .invalidate (.single (.turn _ (.inr (.inr ⟨_, rfl⟩)) handedOut))
  · exact .single (.turn _ (.inr (.inr ⟨_, rfl⟩)) handedOut)

theorem failedLoop_moves (f : Failure) : Moves promise s (s.fail f).leaveLoop := by
  apply Moves.trans (fail_moves f)
  apply leaveLoop_moves
  exact fun _ _ _ => .inr rfl

theorem rebalance_moves (code : RebalanceCode) (partitions : List TopicPartition) (throws : Bool) :
    Moves promise s (s.rebalance code partitions throws) := by
  cases code with
  | revoke =>
    unfold State.rebalance
    dsimp only
    split
    · exact .head .invalidate (fail_moves .unassign)
    · exact .single .invalidate
  | assign => exact .single (.rebalanced partitions)
  | other => exact .head .invalidate (fail_moves .rebalance)

theorem deliverNext_moves {t : Nat} (ready : (s.taskTable t).phase = .ready) :
    Moves promise s (s.deliverNext t) := by
  have active : (s.taskTable t).phase ≠ .settled ∧ (s.taskTable t).phase ≠ .done := by
    rw [ready]
    simp
  unfold State.deliverNext
  split
  · rename_i left
    exact .single (.finished t ready left)
  · rename_i message rest left
    split
    · exact .single (.rejects t active)
    · rename_i lease held
      split
      · rename_i lost
        exact .single (.overtakenReady t lease message rest ready left held lost)
      · rename_i current
        split
        · exact .single (.rejects t active)
        · exact .single (.handler t lease message rest ready left held (by simpa using current))

theorem readyNext_moves {t : Nat} (move : Move promise s (s.setTask t .ready)) :
    Moves promise s ((s.setTask t .ready).deliverNext t) := by
  apply Moves.head move
  apply deliverNext_moves
  simp [State.setTask]

theorem afterHandler_moves {t r : Nat} (throws : Bool)
    (handling : (s.taskTable t).phase = .handling r) :
    Moves promise s (s.afterHandler t r throws) := by
  unfold State.afterHandler
  dsimp only
  split
  · rename_i lost
    exact .single (.overtakenHandling t r handling lost)
  · rename_i held
    have current : s.current (s.records r).message.partition (s.records r).lease = true := by
      simpa using held
    split
    · rename_i committed
      exact readyNext_moves (.acknowledged t r .ready handling (.inl committed) (.inl rfl))
    · split
      · unfold State.seekBack
        dsimp only
        split
        · exact .single (.soughtInVain t r handling current)
        · exact .single (.sought t r handling current)
      · rename_i metadata mark
        have marked : (s.records r).marked.isSome = true := by simp [mark]
        split
        · apply Moves.head (.commit r (some metadata) throws (promise.handling s t r handling) current)
          exact .single (.acknowledged t r _ handling (.inr marked) (.inr ⟨_, rfl⟩))
        · unfold State.store
          dsimp only
          split
          · exact .single (.stored t r .rejected handling current marked (.inr rfl))
          · apply Moves.head (.stored t r .ready handling current marked (.inl rfl))
            apply deliverNext_moves
            simp [State.setTask]

theorem taskCaught_moves {t : Nat} (rejected : (s.taskTable t).phase = .rejected) :
    Moves promise s (s.taskCaught t) := by
  unfold State.taskCaught
  split
  · rename_i none
    apply Moves.single
    apply Move.overtakenRejected t rejected
    intro lease held
    rw [none] at held
    cases held
  · rename_i lease held
    split
    · have kept : ((s.fail .delivery).taskTable t).phase = .rejected := rejected
      apply Moves.trans (fail_moves .delivery)
      apply Moves.single
      apply Move.overtakenRejected t kept
      intro other _
      simp [State.current, State.fail, State.rejectCommits, State.invalidate]
    · rename_i lost
      apply Moves.single
      apply Move.overtakenRejected t rejected
      intro other same
      rw [held] at same
      cases same
      simpa using lost

theorem taskEnds_moves {t : Nat} (throws : Bool) (settled : (s.taskTable t).phase = .settled) :
    Moves promise s (s.taskEnds t throws) := by
  unfold State.taskEnds
  dsimp only
  split
  · exact .single (.ends t settled)
  · rename_i lease held
    split
    · rename_i live
      have same : ∀ p, p ≠ (s.taskTable t).partition →
          Function.update s.paused (s.taskTable t).partition false p = s.paused p :=
        fun p other => Function.update_of_ne other _ _
      split
      · exact .head (.resumes t lease s.paused settled held live.1 fun _ _ => rfl) (fail_moves .resume)
      · exact .single (.resumes t lease _ settled held live.1 same)
    · exact .single (.ends t settled)

theorem assign_moves {r : Nat} {chosen : List Assignment} {commits : List Nat} (throws : Bool)
    (settling : (s.restorations r).phase = .settling chosen commits)
    (between : ∀ call groups, s.run ≠ .dispatching call groups) :
    Moves promise s (s.assign r chosen throws) := by
  have unfinished : ∀ ending, (s.restorations r).phase ≠ .ended ending := by
    intro ending ended
    rw [settling] at ended
    cases ended
  unfold State.assign
  dsimp only
  split
  · exact .single (.restorationEnds r .overtaken (by simp) unfinished)
  · rename_i held
    have newest : s.overtaken (s.restorations r).generation = false := by simpa using held
    cases throws with
    | true => exact .single (.assignThrew r chosen commits settling newest)
    | false => exact .single (.assigned r chosen commits settling newest between)

theorem restorationCaught_moves {r : Nat} (rejected : (s.restorations r).phase = .rejected) :
    Moves promise s (s.restorationCaught r) := by
  have unfinished : ∀ ending, (s.restorations r).phase ≠ .ended ending := by
    intro ending ended
    rw [rejected] at ended
    cases ended
  unfold State.restorationCaught
  split
  · exact .single (.restorationEnds r .failed (by simp) unfinished)
  · exact .trans (fail_moves .restoration) (.single (.restorationEnds r .failed (by simp) unfinished))

theorem poll_moves (throws : Bool) (polling : s.run = .polling) : Moves promise s (s.poll throws) := by
  have handedOut : s.HandedOut := by
    intro call groups batch
    rw [polling] at batch
    cases batch
  unfold State.poll
  split
  · split
    · exact failedLoop_moves .consume
    · exact .single (.called handedOut)
  · exact leaveLoop_moves handedOut

theorem fetched_moves {call : Nat} (answer : Option (List Message)) (fetching : s.run = .fetching call)
    (kept : promise.Keeps s (.fetched answer)) : Moves promise s (s.fetched call answer) := by
  cases answer with
  | none => exact failedLoop_moves .consume
  | some messages =>
    unfold State.fetched
    dsimp only
    split
    · rename_i stopping
      exact .single (.dropped call messages fetching stopping)
    · rename_i opened
      exact .single (.received call messages fetching (kept call fetching) (by simpa using opened))

theorem dispatch_moves {call : Nat} {groups : List (Nat × List Message)} (throws : Bool)
    (batch : s.run = .dispatching call groups) : Moves promise s (s.dispatch call throws groups) := by
  cases groups with
  | nil =>
    apply Moves.single
    apply Move.turn _ (.inl rfl)
    intro other rest here
    rw [batch] at here
    cases here
    exact .inl rfl
  | cons group groups =>
    obtain ⟨partition, messages⟩ := group
    simp only [State.dispatch]
    split
    · exact failedLoop_moves .consume
    · apply Moves.head (.launch call partition messages groups batch)
      apply deliverNext_moves
      simp [State.launch]

theorem perform_moves {t : State} {a : Action} (kept : promise.Keeps s a)
    (between : a.synchronous = false → ∀ call groups, s.run ≠ .dispatching call groups)
    (next : perform s a = some t) : Moves promise s t := by
  cases a with
  | rebalance code partitions throws =>
    cases next
    exact rebalance_moves code partitions throws
  | nativeError offsetLost =>
    cases next
    exact fail_moves _
  | provided r answer =>
    simp only [perform] at next
    split at next
    · rename_i awaiting
      cases next
      exact .single (.provided r answer awaiting)
    · cases next
  | watermarks r answer =>
    simp only [perform] at next
    split at next
    · rename_i offsets tp offset rest chosen querying
      cases next
      exact .single (.watermarks r offsets tp offset rest chosen answer querying)
    · cases next
  | assign r throws =>
    simp only [perform] at next
    split at next
    · rename_i settling
      split at next
      · cases next
        exact assign_moves throws settling (between rfl)
      · cases next
    · cases next
  | restorationCaught r =>
    simp only [perform] at next
    split at next
    · rename_i rejected
      cases next
      exact restorationCaught_moves rejected
    · cases next
  | run =>
    simp only [perform] at next
    split at next
    · rename_i idle
      cases next
      exact .single (.turn _ (.inl rfl) (fun _ _ batch => by rw [idle] at batch; cases batch))
    · cases next
      exact .refl _
  | poll throws =>
    simp only [perform] at next
    split at next
    · rename_i polling
      cases next
      exact poll_moves throws polling
    · cases next
  | fetched answer =>
    simp only [perform] at next
    split at next
    · rename_i fetching
      cases next
      exact fetched_moves answer fetching kept
    · cases next
  | dispatch throws =>
    simp only [perform] at next
    split at next
    · rename_i batch
      cases next
      exact dispatch_moves throws batch
    · cases next
  | handlerSettles t threw throws =>
    simp only [perform] at next
    split at next
    · rename_i r handling
      cases next
      cases threw with
      | true =>
        apply Moves.single
        apply Move.rejects t
        rw [handling]
        simp
      | false => exact afterHandler_moves throws handling
    · cases next
  | mark r candidate metadata =>
    simp only [perform] at next
    split at next
    · cases next
      unfold State.mark
      dsimp only
      split
      · rename_i allowed
        exact .single (.mark r metadata kept allowed.2)
      · exact .refl _
    · cases next
  | commit r candidate throws =>
    simp only [perform] at next
    split at next
    · cases next
      unfold State.commit
      dsimp only
      split
      · rename_i allowed
        exact .single (.commit r none throws kept allowed.2)
      · exact .refl _
    · cases next
  | offsetCommit failed offsets =>
    cases next
    exact .single (.book _ _)
  | commitContinues c =>
    simp only [perform] at next
    split at next
    · rename_i resolved
      cases next
      exact .single (.committed c resolved)
    · cases next
  | commitAwaited t =>
    simp only [perform] at next
    split at next
    · rename_i c committing
      split at next
      · cases next
        exact readyNext_moves (.awaited t c committing)
      · cases next
        apply Moves.single
        apply Move.rejects t
        rw [committing]
        simp
      · cases next
    · cases next
  | seekSettles t failed =>
    simp only [perform] at next
    split at next
    · rename_i seeking
      cases next
      cases failed with
      | true =>
        apply Moves.single
        apply Move.rejects t
        rw [seeking]
        simp
      | false => exact .single (.soughtBack t seeking)
    · cases next
  | taskCaught t =>
    simp only [perform] at next
    split at next
    · rename_i rejected
      cases next
      exact taskCaught_moves rejected
    · cases next
  | taskEnds t throws =>
    simp only [perform] at next
    split at next
    · rename_i settled
      cases next
      exact taskEnds_moves throws settled
    · cases next
  | drained =>
    simp only [perform] at next
    split at next
    · rename_i draining
      split at next
      · cases next
        exact .single (.turn _ (.inr (.inl rfl)) (fun _ _ batch => by rw [draining] at batch; cases batch))
      · cases next
    · cases next
  | stop throws =>
    cases next
    apply Moves.single
    apply Move.stop
    intro p already
    split
    · trivial
    · exact already
  | disconnect =>
    cases next
    apply Moves.head (.stop s.paused fun _ already => already)
    apply Moves.head .invalidate
    exact .single (.book _ _)
  | cancel =>
    cases next
    exact .single .cancel

theorem step_moves {t : State} {a : Action} (kept : promise.Keeps s a) (next : step s a = some t) :
    Moves promise s t := by
  unfold step at next
  split at next
  · split at next
    · rename_i synchronous
      apply perform_moves kept _ next
      intro waits
      rw [synchronous] at waits
      cases waits
    · cases next
  · rename_i outside
    exact perform_moves kept (fun _ => outside) next

theorem steps_moves (Inv : State → Prop) (preserved : ∀ s t, Inv s → Move promise s t → Inv t)
    {t : State} (run : Steps step promise.Keeps s t) (start : Inv s) : Inv t := by
  apply steps_invariant Inv _ run start
  intro s a t held kept next
  have moves := step_moves kept next
  clear next
  induction moves with
  | refl => exact held
  | tail _ move ih => exact preserved _ _ ih move

end Functions

/-- A run of the consumer whose surroundings keep a promise. -/
def Promise.Reaches (promise : Promise) (s : State) : Prop :=
  ∃ topic restoring, Steps step promise.Keeps (initial topic restoring) s

theorem reachable_reaches {s : State} (reach : Reachable s) : Promise.none.Reaches s := by
  obtain ⟨topic, restoring, run⟩ := reach
  refine ⟨topic, restoring, steps_mono ?_ run⟩
  intro s a _
  unfold Promise.Keeps
  split
  · trivial
  · trivial
  · exact fun _ _ => trivial
  · trivial

end Kafka
