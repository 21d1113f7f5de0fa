import TsServiceLib.Kafka.DeliveryOwnership

/-!
The promises of the commits. A step of the consumer opens one commit, answers
those that a callback names, rejects all that are pending, lets one go on after
its `await`, or leaves them alone. Once the consumer has failed or has been
disconnected no lease is current any more, so that no commit is opened.
-/
namespace Kafka
open Transitions Numbers OrderedMaps

/-- How the promise of a commit has settled: `true` if it was resolved. -/
def CommitStatus.outcome : CommitStatus → Option Bool
  | pending => none
  | resolved => some true
  | rejected => some false
  | continued => some true

namespace State

def outcome (s : State) (c : Nat) : Option Bool := (s.commitTable c).status.outcome

/-- The topic, partition and offset that the native client was given with a commit. -/
def target (s : State) (c : Nat) : String × Nat × Int :=
  let message := (s.records (s.commitTable c).record).message
  (message.topic, message.partition, message.offset + 1)

def ledger (s : State) := (s.commitTable, s.commits, s.nextCommit)

/-- No lease is current, and none will be. -/
def Closed (s : State) : Prop :=
  s.failure.isSome = true ∨ s.stopping = true ∧ s.assignments = .empty

end State

section Effects
variable {s t : State}

/-- The commits are left alone, and the consumer does not fail. -/
def Quiet (s t : State) : Prop := t.ledger = s.ledger ∧ t.failure = s.failure

/-- What a step does to the commits. -/
inductive Effect (s : State) (a : Action) (t : State) : Prop where
  | quiet (still : Quiet s t)
  | opened (r : Nat) (metadata : Option String) (throws : Bool) (known : r < s.nextRecord)
      (current : s.current (s.records r).message.partition (s.records r).lease = true)
      (still : Quiet (s.openCommit r metadata throws) t)
  | cleared (rejected : t.ledger = s.rejectCommits.ledger)
  | answered (failed : Bool) (offsets : List (String × Nat × Int))
      (called : a = .offsetCommit failed offsets) (is : t = s.offsetCommit failed offsets)
  | continued (c : Nat) (resolved : (s.commitTable c).status = .resolved) (is : t = s.commitContinues c)

theorem deliverNext_quiet (n : Nat) : Quiet s (s.deliverNext n) := by
  unfold State.deliverNext
  split
  · exact ⟨rfl, rfl⟩
  · split
    · exact ⟨rfl, rfl⟩
    · split
      · exact ⟨rfl, rfl⟩
      · split <;> exact ⟨rfl, rfl⟩

theorem readyNext_quiet (n : Nat) : Quiet s ((s.setTask n .ready).deliverNext n) :=
  deliverNext_quiet n

theorem leaveLoop_ledger : s.leaveLoop.ledger = s.ledger := by
  unfold State.leaveLoop
  split <;> rfl

theorem leaveLoop_quiet : Quiet s s.leaveLoop := by
  refine ⟨leaveLoop_ledger, ?_⟩
  unfold State.leaveLoop
  split <;> rfl

theorem addLeases_quiet (generation : Nat) (partitions : List TopicPartition) :
    Quiet s (partitions.foldl (State.addLease generation) s) := by
  induction partitions generalizing s with
  | nil => exact ⟨rfl, rfl⟩
  | cons tp rest ih =>
    obtain ⟨ledger, failure⟩ := ih (s := s.addLease generation tp)
    exact ⟨ledger, failure⟩

theorem assign_quiet (r : Nat) (chosen : List Assignment) (throws : Bool) : Quiet s (s.assign r chosen throws) := by
  unfold State.assign
  dsimp only
  split
  · exact ⟨rfl, rfl⟩
  · split
    · exact ⟨rfl, rfl⟩
    · exact addLeases_quiet _ _

/-- What the end of a handler does to the commits. -/
theorem afterHandler_effect (owned : Owned s) {a : Action} {n r : Nat} (throws : Bool)
    (handling : (s.taskTable n).phase = .handling r) : Effect s a (s.afterHandler n r throws) := by
  unfold State.afterHandler
  dsimp only
  split
  · exact .quiet ⟨rfl, rfl⟩
  · rename_i held
    have current : s.current (s.records r).message.partition (s.records r).lease = true := by simpa using held
    split
    · exact .quiet (readyNext_quiet n)
    · split
      · unfold State.seekBack
        dsimp only
        split <;> exact .quiet ⟨rfl, rfl⟩
      · rename_i metadata _
        split
        · exact .opened r (some metadata) throws (owned.handling n r handling).1 current ⟨rfl, rfl⟩
        · unfold State.store
          dsimp only
          split
          · exact .quiet ⟨rfl, rfl⟩
          · obtain ⟨ledger, failure⟩ :=
              deliverNext_quiet (s := (s.log (.stored (s.records r).lease (s.records r).message.offset)).setTask n .ready) n
            exact .quiet ⟨ledger, failure⟩

theorem dispatch_effect {a : Action} (call : Nat) (throws : Bool) (groups : List (Nat × List Message)) :
    Effect s a (s.dispatch call throws groups) := by
  cases groups with
  | nil => exact .quiet ⟨rfl, rfl⟩
  | cons group groups =>
    simp only [State.dispatch]
    split
    · exact .cleared leaveLoop_ledger
    · obtain ⟨ledger, failure⟩ := deliverNext_quiet (s := s.launch call group.1 group.2 groups) s.nextTask
      exact .quiet ⟨ledger, failure⟩

theorem poll_effect {a : Action} (throws : Bool) : Effect s a (s.poll throws) := by
  unfold State.poll
  split
  · split
    · exact .cleared leaveLoop_ledger
    · exact .quiet ⟨rfl, rfl⟩
  · exact .quiet leaveLoop_quiet

theorem fetched_effect {a : Action} (call : Nat) (answer : Option (List Message)) : Effect s a (s.fetched call answer) := by
  cases answer with
  | none => exact .cleared leaveLoop_ledger
  | some messages =>
    unfold State.fetched
    dsimp only
    split <;> exact .quiet ⟨rfl, rfl⟩

theorem rebalance_effect {a : Action} (code : RebalanceCode) (partitions : List TopicPartition) (throws : Bool) :
    Effect s a (s.rebalance code partitions throws) := by
  cases code with
  | revoke =>
    unfold State.rebalance
    dsimp only
    split
    · exact .cleared rfl
    · exact .quiet ⟨rfl, rfl⟩
  | assign => exact .quiet ⟨rfl, rfl⟩
  | other => exact .cleared rfl

theorem taskCaught_effect {a : Action} (n : Nat) : Effect s a (s.taskCaught n) := by
  unfold State.taskCaught
  split
  · exact .quiet ⟨rfl, rfl⟩
  · split
    · exact .cleared rfl
    · exact .quiet ⟨rfl, rfl⟩

theorem taskEnds_effect {a : Action} (n : Nat) (throws : Bool) : Effect s a (s.taskEnds n throws) := by
  unfold State.taskEnds
  split
  · exact .quiet ⟨rfl, rfl⟩
  · split
    · dsimp only
      split
      · exact .cleared rfl
      · exact .quiet ⟨rfl, rfl⟩
    · exact .quiet ⟨rfl, rfl⟩

theorem restorationCaught_effect {a : Action} (r : Nat) : Effect s a (s.restorationCaught r) := by
  unfold State.restorationCaught
  split
  · exact .quiet ⟨rfl, rfl⟩
  · exact .cleared rfl

theorem perform_effect {a : Action} (owned : Owned s) (next : perform s a = some t) : Effect s a t := by
  cases a with
  | rebalance code partitions throws =>
    cases next
    exact rebalance_effect code partitions throws
  | nativeError offsetLost =>
    cases next
    exact .cleared rfl
  | provided r answer =>
    simp only [perform] at next
    split at next
    · cases next
      cases answer <;> exact .quiet ⟨rfl, rfl⟩
    · cases next
  | watermarks r answer =>
    simp only [perform] at next
    split at next
    · cases next
      cases answer <;> exact .quiet ⟨rfl, rfl⟩
    · cases next
  | assign r throws =>
    simp only [perform] at next
    split at next
    · rename_i chosen commits _
      split at next
      · cases next
        exact .quiet (assign_quiet r chosen throws)
      · cases next
    · cases next
  | restorationCaught r =>
    simp only [perform] at next
    split at next
    · cases next
      exact restorationCaught_effect r
    · cases next
  | run =>
    simp only [perform] at next
    split at next <;> cases next <;> exact .quiet ⟨rfl, rfl⟩
  | poll throws =>
    simp only [perform] at next
    split at next
    · cases next
      exact poll_effect throws
    · cases next
  | fetched answer =>
    simp only [perform] at next
    split at next
    · rename_i call _
      cases next
      exact fetched_effect call answer
    · cases next
  | dispatch throws =>
    simp only [perform] at next
    split at next
    · rename_i call groups _
      cases next
      exact dispatch_effect call throws groups
    · cases next
  | handlerSettles n threw throws =>
    simp only [perform] at next
    split at next
    · rename_i r handling
      cases next
      cases threw with
      | true => exact .quiet ⟨rfl, rfl⟩
      | false => exact afterHandler_effect owned throws handling
    · cases next
  | mark r candidate metadata =>
    simp only [perform] at next
    split at next
    · cases next
      unfold State.mark
      dsimp only
      split <;> exact .quiet ⟨rfl, rfl⟩
    · cases next
  | commit r candidate throws =>
    simp only [perform] at next
    split at next
    · rename_i known
      cases next
      unfold State.commit
      dsimp only
      split
      · rename_i allowed
        exact .opened r none throws known allowed.2 ⟨rfl, rfl⟩
      · exact .quiet ⟨rfl, rfl⟩
    · cases next
  | offsetCommit failed offsets =>
    cases next
    exact .answered failed offsets rfl rfl
  | commitContinues c =>
    simp only [perform] at next
    split at next
    · rename_i resolved
      cases next
      exact .continued c resolved rfl
    · cases next
  | commitAwaited n =>
    simp only [perform] at next
    split at next
    · split at next
      · cases next
        exact .quiet (readyNext_quiet n)
      · cases next
        exact .quiet ⟨rfl, rfl⟩
      · cases next
    · cases next
  | seekSettles n failed =>
    simp only [perform] at next
    split at next
    · cases next
      exact .quiet ⟨rfl, rfl⟩
    · cases next
  | taskCaught n =>
    simp only [perform] at next
    split at next
    · cases next
      exact taskCaught_effect n
    · cases next
  | taskEnds n throws =>
    simp only [perform] at next
    split at next
    · cases next
      exact taskEnds_effect n throws
    · cases next
  | drained =>
    simp only [perform] at next
    split at next
    · split at next
      · cases next
        exact .quiet ⟨rfl, rfl⟩
      · cases next
    · cases next
  | stop throws =>
    cases next
    exact .quiet ⟨rfl, rfl⟩
  | disconnect =>
    cases next
    exact .cleared rfl
  | cancel =>
    cases next
    exact .quiet ⟨rfl, rfl⟩

theorem step_effect {a : Action} (owned : Owned s) (next : step s a = some t) : Effect s a t := by
  unfold step at next
  split at next
  · split at next
    · exact perform_effect owned next
    · cases next
  · exact perform_effect owned next

end Effects

section Records
variable {s t u : State}

/-- The messages of the records made so far stay as they are. -/
def Kept (s t : State) : Prop :=
  t.topic = s.topic ∧ s.nextRecord ≤ t.nextRecord ∧
    ∀ r, r < s.nextRecord → (t.records r).message = (s.records r).message

theorem kept_same (topic : t.topic = s.topic) (next : t.nextRecord = s.nextRecord)
    (same : ∀ r, (t.records r).message = (s.records r).message) : Kept s t := by
  refine ⟨topic, Nat.le_of_eq next.symm, ?_⟩
  intro r _
  exact same r

theorem kept_refl (s : State) : Kept s s := kept_same rfl rfl fun _ => rfl

theorem kept_trans (first : Kept s t) (second : Kept t u) : Kept s u := by
  obtain ⟨topic, grown, same⟩ := first
  obtain ⟨topic', grown', same'⟩ := second
  refine ⟨topic'.trans topic, Nat.le_trans grown grown', ?_⟩
  intro r known
  rw [same' r (by omega), same r known]

theorem updated_message (r n : Nat) {record : Record} (same : record.message = (s.records r).message) :
    (Function.update s.records r record n).message = (s.records n).message := by
  rcases eq_or_ne n r with rfl | other
  · rw [Function.update_self, same]
  · rw [Function.update_of_ne other]

theorem addLeases_kept (generation : Nat) (partitions : List TopicPartition) :
    Kept s (partitions.foldl (State.addLease generation) s) := by
  induction partitions generalizing s with
  | nil => exact kept_refl s
  | cons tp rest ih => exact kept_trans (kept_same rfl rfl fun _ => rfl) ih

theorem move_kept {promise : Promise} (move : Move promise s t) : Kept s t := by
  cases move with
  | handler n lease message rest =>
    refine ⟨rfl, Nat.le_succ _, ?_⟩
    intro r known
    simp only [State.startHandler]
    rw [Function.update_of_ne (by omega)]
  | mark r metadata => exact kept_same rfl rfl fun n => updated_message r n rfl
  | committed c => exact kept_same rfl rfl fun n => updated_message _ n rfl
  | assigned r chosen =>
    obtain ⟨topic, grown, same⟩ := addLeases_kept (s := s.log (.assignCalled (s.restorations r).generation chosen false))
      (s.restorations r).generation (s.restorations r).partitions
    exact ⟨topic, grown, same⟩
  | provided r answer => cases answer <;> exact kept_same rfl rfl fun _ => rfl
  | watermarks r offsets tp next rest chosen answer => cases answer <;> exact kept_same rfl rfl fun _ => rfl
  | _ => exact kept_same rfl rfl fun _ => rfl

/-- The messages that are delivered are of the topic of the consumer. -/
structure Addressed (s : State) : Prop where
  record : ∀ r, r < s.nextRecord → (s.records r).message.topic = s.topic
  rest : ∀ n, ∀ m ∈ (s.taskTable n).rest, m.topic = s.topic
  groups : ∀ call groups, s.run = .dispatching call groups → ∀ p values, (p, values) ∈ groups →
    ∀ m ∈ values, m.topic = s.topic

/-- The frame of the moves that hand out no message. -/
theorem addressed_frame (addressed : Addressed s) (kept : Kept s t) (next : t.nextRecord = s.nextRecord)
    (rest : ∀ n, (t.taskTable n).rest = (s.taskTable n).rest)
    (run : t.run = s.run ∨ ∀ call groups, t.run ≠ .dispatching call groups) : Addressed t := by
  obtain ⟨topic, _, same⟩ := kept
  constructor
  · intro r known
    rw [next] at known
    rw [topic, same r known]
    exact addressed.record r known
  · intro n
    rw [rest, topic]
    exact addressed.rest n
  · intro call groups batch
    rw [topic]
    rcases run with unchanged | other
    · exact addressed.groups call groups (unchanged ▸ batch)
    · exact absurd batch (other call groups)

theorem received_addressed (addressed : Addressed s) (call : Nat) (messages : List Message) :
    Addressed { s with
      restart := s.restartAfter messages
      run := .dispatching call (State.groupByPartition (s.assigned messages)).entries } := by
  refine ⟨addressed.record, addressed.rest, ?_⟩
  intro other groups batch p values mem m inside
  cases batch
  obtain ⟨_, whole⟩ := groupByPartition_mem.mp mem
  rw [whole, List.mem_filter, State.assigned, List.mem_filter, Bool.and_eq_true, decide_eq_true_eq] at inside
  exact inside.1.2.1

theorem launch_addressed (addressed : Addressed s) {call partition : Nat} {messages : List Message}
    {groups : List (Nat × List Message)} (batch : s.run = .dispatching call ((partition, messages) :: groups)) :
    Addressed (s.launch call partition messages groups) := by
  refine ⟨addressed.record, ?_, ?_⟩
  · intro n m mem
    rcases eq_or_ne n s.nextTask with rfl | other
    · simp only [State.launch, Function.update_self] at mem
      exact addressed.groups call _ batch partition messages List.mem_cons_self m mem
    · simp only [State.launch, Function.update_of_ne other] at mem
      exact addressed.rest n m mem
  · intro other rest here p values mem
    cases here
    exact addressed.groups call _ batch p values (List.mem_cons_of_mem _ mem)

theorem handler_addressed (addressed : Addressed s) {n lease : Nat} {message : Message} {rest : List Message}
    (left : (s.taskTable n).rest = message :: rest) : Addressed (s.startHandler n lease message rest) := by
  have own := addressed.rest n
  rw [left] at own
  refine ⟨?_, ?_, addressed.groups⟩
  · intro r known
    rcases eq_or_ne r s.nextRecord with rfl | other
    · simp only [State.startHandler, Function.update_self]
      exact own message List.mem_cons_self
    · simp only [State.startHandler, Function.update_of_ne other] at known ⊢
      exact addressed.record r (by omega)
  · intro k m mem
    rcases eq_or_ne k n with rfl | other
    · simp only [State.startHandler, Function.update_self] at mem
      exact own m (List.mem_cons_of_mem _ mem)
    · simp only [State.startHandler, Function.update_of_ne other] at mem
      exact addressed.rest k m mem

theorem addLeases_quietly (generation : Nat) (partitions : List TopicPartition) :
    (partitions.foldl (State.addLease generation) s).nextRecord = s.nextRecord ∧
      (partitions.foldl (State.addLease generation) s).taskTable = s.taskTable ∧
      (partitions.foldl (State.addLease generation) s).run = s.run := by
  induction partitions generalizing s with
  | nil => exact ⟨rfl, rfl, rfl⟩
  | cons tp rest ih => exact ih

theorem endTask_rest (n k : Nat) : ((s.endTask n).taskTable k).rest = (s.taskTable k).rest := by
  rcases eq_or_ne k n with rfl | other
  · simp [State.endTask]
  · simp [State.endTask, other]

theorem move_addressed {promise : Promise} (addressed : Addressed s) (move : Move promise s t) : Addressed t := by
  have kept := move_kept move
  cases move with
  | received call messages => exact received_addressed addressed call messages
  | launch call partition messages groups batch => exact launch_addressed addressed batch
  | handler n lease message rest ready left held => exact handler_addressed addressed left
  | assigned r chosen =>
    obtain ⟨next, tasks, run⟩ := addLeases_quietly (s := s.log (.assignCalled (s.restorations r).generation chosen false))
      (s.restorations r).generation (s.restorations r).partitions
    exact addressed_frame addressed kept next (fun n => congrArg (fun table => (table n).rest) tasks) (.inl run)
  | provided r answer => cases answer <;> exact addressed_frame addressed kept rfl (fun _ => rfl) (.inl rfl)
  | watermarks r offsets tp next rest chosen answer =>
    cases answer <;> exact addressed_frame addressed kept rfl (fun _ => rfl) (.inl rfl)
  | turn run still =>
    refine addressed_frame addressed kept rfl (fun _ => rfl) (.inr ?_)
    rcases still with rfl | rfl | ⟨_, rfl⟩ <;> simp
  | called => exact addressed_frame addressed kept rfl (fun _ => rfl) (.inr (by simp [State.callConsume]))
  | dropped => exact addressed_frame addressed kept rfl (fun _ => rfl) (.inr (by simp))
  | sought n r => exact addressed_frame addressed kept rfl (fun k => setTask_rest _ n k .seeking) (.inl rfl)
  | soughtInVain n r => exact addressed_frame addressed kept rfl (fun k => setTask_rest _ n k .rejected) (.inl rfl)
  | stored n r phase => exact addressed_frame addressed kept rfl (fun k => setTask_rest _ n k phase) (.inl rfl)
  | acknowledged n r phase => exact addressed_frame addressed kept rfl (fun k => setTask_rest _ n k phase) (.inl rfl)
  | awaited n => exact addressed_frame addressed kept rfl (fun k => setTask_rest _ n k .ready) (.inl rfl)
  | finished n => exact addressed_frame addressed kept rfl (fun k => setTask_rest _ n k .settled) (.inl rfl)
  | soughtBack n => exact addressed_frame addressed kept rfl (fun k => setTask_rest _ n k .settled) (.inl rfl)
  | overtakenReady n => exact addressed_frame addressed kept rfl (fun k => setTask_rest _ n k .settled) (.inl rfl)
  | overtakenHandling n => exact addressed_frame addressed kept rfl (fun k => setTask_rest _ n k .settled) (.inl rfl)
  | overtakenRejected n => exact addressed_frame addressed kept rfl (fun k => setTask_rest _ n k .settled) (.inl rfl)
  | rejects n => exact addressed_frame addressed kept rfl (fun k => setTask_rest _ n k .rejected) (.inl rfl)
  | ends n => exact addressed_frame addressed kept rfl (endTask_rest n) (.inl rfl)
  | resumes n lease => exact addressed_frame addressed kept rfl (endTask_rest (s := s) n) (.inl rfl)
  | _ => exact addressed_frame addressed kept rfl (fun _ => rfl) (.inl rfl)

end Records

section Closing
variable {s t : State}

theorem closed_lost (closed : s.Closed) (p l : Nat) : s.current p l = false := by
  rw [Bool.eq_false_iff]
  intro current
  obtain ⟨working, _, _, found⟩ := (current_iff p l).mp current
  rcases closed with failed | ⟨_, unassigned⟩
  · rw [working] at failed
    cases failed
  · rw [unassigned] at found
    cases found

theorem closed_overtaken (closed : s.Closed) (g : Nat) : s.overtaken g = true := by
  rw [← Bool.not_eq_false]
  intro newest
  obtain ⟨_, working, unfailed, _⟩ := (overtaken_iff g).mp newest
  rcases closed with failed | ⟨stopping, _⟩
  · rw [unfailed] at failed
    cases failed
  · rw [working] at stopping
    cases stopping

theorem closed_frame (closed : s.Closed) (failure : s.failure.isSome = true → t.failure.isSome = true)
    (stopping : s.stopping = true → t.stopping = true)
    (assignments : s.assignments = .empty → t.assignments = .empty) : t.Closed := by
  rcases closed with failed | ⟨stopped, unassigned⟩
  · exact .inl (failure failed)
  · exact .inr ⟨stopping stopped, assignments unassigned⟩

theorem move_closed {promise : Promise} (closed : s.Closed) (move : Move promise s t) : t.Closed := by
  cases move with
  | assigned r chosen commits settling newest =>
    rw [closed_overtaken closed] at newest
    cases newest
  | invalidate => exact closed_frame closed id id fun _ => rfl
  | rebalanced => exact closed_frame closed id id fun _ => rfl
  | fails f => exact closed_frame closed (fun _ => rfl) id id
  | stop => exact closed_frame closed id (fun _ => rfl) id
  | provided r answer => cases answer <;> exact closed_frame closed id id id
  | watermarks r offsets tp next rest chosen answer => cases answer <;> exact closed_frame closed id id id
  | _ => exact closed_frame closed id id id

/-- What is shown of one move by this rule holds of a step. -/
theorem step_by_moves (Inv : State → Prop) (preserved : ∀ s t, Inv s → Move Promise.none s t → Inv t) {a : Action}
    (held : Inv s) (next : step s a = some t) : Inv t := by
  have keeps : Promise.none.Keeps s a := by
    unfold Promise.Keeps
    split
    · trivial
    · trivial
    · exact fun _ _ => trivial
    · trivial
  have moves := step_moves keeps next
  clear next keeps
  induction moves with
  | refl => exact held
  | tail _ move ih => exact preserved _ _ ih move

theorem step_kept {a : Action} (next : step s a = some t) : Kept s t :=
  step_by_moves (Kept s) (fun _ _ kept move => kept_trans kept (move_kept move)) (kept_refl s) next

end Closing

/-- The pending set holds the commits that have not settled, and a commit is
    about the message of its record. -/
structure Filed (s : State) : Prop where
  owned : Owned s
  addressed : Addressed s
  pending : ∀ c, c ∈ s.commits ↔ c < s.nextCommit ∧ s.outcome c = none
  nodup : s.commits.Nodup
  unused : ∀ c, s.nextCommit ≤ c → s.outcome c = none
  failed : s.failure.isSome = true → s.commits = []
  known : ∀ c, c < s.nextCommit → (s.commitTable c).record < s.nextRecord
  target : ∀ c, c < s.nextCommit → s.target c = (s.topic, (s.commitTable c).partition, (s.commitTable c).next)

section Settling
variable {s t : State} {a : Action}

theorem ledger_fields (same : t.ledger = s.ledger) :
    t.commitTable = s.commitTable ∧ t.commits = s.commits ∧ t.nextCommit = s.nextCommit := by
  simpa [State.ledger] using same

theorem ledger_outcome (same : t.ledger = s.ledger) (c : Nat) : t.outcome c = s.outcome c := by
  simp only [State.outcome, (ledger_fields same).1]

theorem setCommits_outcome (ids : List Nat) (status : CommitStatus) (c : Nat) :
    (s.setCommits ids status c).status.outcome = if c ∈ ids then status.outcome else s.outcome c := by
  simp only [State.setCommits, State.outcome]
  split <;> rfl

theorem rejectCommits_outcome (c : Nat) :
    s.rejectCommits.outcome c = if c ∈ s.commits then some false else s.outcome c :=
  setCommits_outcome s.commits .rejected c

theorem openCommit_outcome (r : Nat) (metadata : Option String) (throws : Bool) (c : Nat) :
    (s.openCommit r metadata throws).outcome c =
      if c = s.nextCommit then if throws then some false else none else s.outcome c := by
  simp only [State.outcome, State.openCommit]
  rcases eq_or_ne c s.nextCommit with rfl | other
  · cases throws <;> simp [CommitStatus.outcome]
  · simp [other]

/-- The commits that an answer of the native client is for. -/
def State.named (s : State) (failed : Bool) (offsets : List (String × Nat × Int)) (c : Nat) : Bool :=
  failed || offsets.any fun offset =>
    decide (offset = (s.topic, (s.commitTable c).partition, (s.commitTable c).next))

theorem offsetCommit_outcome (failed : Bool) (offsets : List (String × Nat × Int)) (c : Nat) :
    (s.offsetCommit failed offsets).outcome c =
      if c ∈ s.commits ∧ s.named failed offsets c = true then some (!failed) else s.outcome c := by
  have filtered := setCommits_outcome (s := s) (s.commits.filter (s.named failed offsets))
    (if failed then .rejected else .resolved) c
  simp only [List.mem_filter] at filtered
  refine Eq.trans filtered ?_
  cases failed <;> rfl

theorem commitContinues_outcome {d : Nat} (resolved : (s.commitTable d).status = .resolved) (c : Nat) :
    (s.commitContinues d).outcome c = s.outcome c := by
  refine Eq.trans (setCommits_outcome (s := s) [d] .continued c) ?_
  split
  · rename_i same
    rw [List.mem_singleton] at same
    rw [same, State.outcome, resolved]
    rfl
  · rfl

theorem effect_settled (filed : Filed s) (effect : Effect s a t) {c : Nat} (settled : s.outcome c ≠ none) :
    t.outcome c = s.outcome c := by
  have answered : c ∉ s.commits := fun mem => settled ((filed.pending c).mp mem).2
  cases effect with
  | quiet still => exact ledger_outcome still.1 c
  | opened r metadata throws known current still =>
    have other : c ≠ s.nextCommit := fun same => settled (filed.unused c (Nat.le_of_eq same.symm))
    rw [ledger_outcome still.1, openCommit_outcome, if_neg other]
  | cleared rejected => rw [ledger_outcome rejected, rejectCommits_outcome, if_neg answered]
  | answered failed offsets called is => rw [is, offsetCommit_outcome, if_neg fun both => answered both.1]
  | continued d resolved is => rw [is, commitContinues_outcome resolved]

/-- A commit is resolved by a callback that names it, while it is pending. -/
theorem effect_resolves (filed : Filed s) (effect : Effect s a t) {c : Nat} (before : s.outcome c = none)
    (after : t.outcome c = some true) :
    c ∈ s.commits ∧ ∃ offsets, a = .offsetCommit false offsets ∧ s.target c ∈ offsets := by
  cases effect with
  | quiet still =>
    rw [ledger_outcome still.1, before] at after
    cases after
  | opened r metadata throws known current still =>
    rw [ledger_outcome still.1, openCommit_outcome, before] at after
    cases throws <;> simp at after
  | cleared rejected =>
    rw [ledger_outcome rejected, rejectCommits_outcome, before] at after
    split at after <;> cases after
  | answered failed offsets called is =>
    rw [is, offsetCommit_outcome, before] at after
    split at after
    · rename_i named
      cases failed with
      | true => cases after
      | false =>
        have found := named.2
        rw [State.named, Bool.false_or, List.any_eq_true] at found
        obtain ⟨offset, mem, same⟩ := found
        refine ⟨named.1, offsets, called, ?_⟩
        rw [filed.target c ((filed.pending c).mp named.1).1, ← of_decide_eq_true same]
        exact mem
    · cases after
  | continued d resolved is =>
    rw [is, commitContinues_outcome resolved, before] at after
    cases after

/-- The commits beside one that has been opened are about what they were about. -/
theorem target_kept (kept : Kept s t) (filed : Filed s) {c : Nat} (known : c < s.nextCommit)
    (same : (t.commitTable c).record = (s.commitTable c).record ∧
      (t.commitTable c).partition = (s.commitTable c).partition ∧ (t.commitTable c).next = (s.commitTable c).next) :
    (t.commitTable c).record < t.nextRecord ∧
      t.target c = (t.topic, (t.commitTable c).partition, (t.commitTable c).next) := by
  obtain ⟨topic, grown, messages⟩ := kept
  obtain ⟨record, partition, next⟩ := same
  have made := filed.known c known
  have target := filed.target c known
  rw [record, partition, next, topic, ← target]
  refine ⟨by omega, ?_⟩
  simp only [State.target, record, messages _ made]

theorem setCommits_about (ids : List Nat) (status : CommitStatus) (c : Nat) :
    (s.setCommits ids status c).record = (s.commitTable c).record ∧
      (s.setCommits ids status c).partition = (s.commitTable c).partition ∧
      (s.setCommits ids status c).next = (s.commitTable c).next := by
  simp only [State.setCommits]
  split <;> exact ⟨rfl, rfl, rfl⟩

theorem filed_without (filed : Filed s) (owned : Owned t) (addressed : Addressed t) (kept : Kept s t)
    (next : t.nextCommit = s.nextCommit) (fewer : t.commits.Sublist s.commits)
    (about : ∀ c, (t.commitTable c).record = (s.commitTable c).record ∧
      (t.commitTable c).partition = (s.commitTable c).partition ∧ (t.commitTable c).next = (s.commitTable c).next)
    (settled : ∀ c, c ∉ s.commits → t.outcome c = s.outcome c)
    (pending : ∀ c, c ∈ s.commits → (c ∈ t.commits ↔ t.outcome c = none))
    (failed : t.failure.isSome = true → t.commits = []) : Filed t := by
  refine ⟨owned, addressed, ?_, fewer.nodup filed.nodup, ?_, failed, ?_, ?_⟩
  · intro c
    by_cases before : c ∈ s.commits
    · have known := ((filed.pending c).mp before).1
      rw [pending c before, next]
      exact ⟨fun after => ⟨known, after⟩, fun both => both.2⟩
    · have after : c ∉ t.commits := fun mem => before (fewer.subset mem)
      rw [settled c before, next, ← filed.pending c]
      exact ⟨fun mem => absurd mem after, fun mem => absurd mem before⟩
  · intro c unused
    rw [next] at unused
    have before : c ∉ s.commits := fun mem => by
      have := ((filed.pending c).mp mem).1
      omega
    rw [settled c before]
    exact filed.unused c unused
  · intro c known
    exact (target_kept kept filed (next ▸ known) (about c)).1
  · intro c known
    exact (target_kept kept filed (next ▸ known) (about c)).2

theorem opened_filed (filed : Filed s) (owned : Owned t) (addressed : Addressed t) (kept : Kept s t) {r : Nat}
    {metadata : Option String} {throws : Bool} (known : r < s.nextRecord)
    (current : s.current (s.records r).message.partition (s.records r).lease = true)
    (still : Quiet (s.openCommit r metadata throws) t) : Filed t := by
  obtain ⟨table, commits, next⟩ := ledger_fields still.1
  have outcome : ∀ c, t.outcome c = _ := fun c => (ledger_outcome still.1 c).trans (openCommit_outcome r metadata throws c)
  have grown : t.nextCommit = s.nextCommit + 1 := next
  have members : ∀ c, c ∈ t.commits ↔ c ∈ s.commits ∨ throws = false ∧ c = s.nextCommit := by
    intro c
    rw [commits]
    cases throws <;> simp [State.openCommit]
  have new : s.nextCommit ∉ s.commits := fun mem => Nat.lt_irrefl _ ((filed.pending _).mp mem).1
  have about : ∀ c, c < t.nextCommit → c ≠ s.nextCommit → c < s.nextCommit ∧ t.commitTable c = s.commitTable c := by
    intro c below other
    rw [table]
    simp only [State.openCommit, Function.update_of_ne other, and_true]
    omega
  have mine : t.commitTable s.nextCommit = ⟨r, (s.records r).message.partition, (s.records r).message.offset + 1,
      metadata, if throws then .rejected else .pending⟩ := by
    rw [table]
    exact Function.update_self ..
  refine ⟨owned, addressed, ?_, ?_, ?_, ?_, ?_, ?_⟩
  · intro c
    rw [members, outcome, filed.pending]
    rcases eq_or_ne c s.nextCommit with rfl | other
    · cases throws <;> simp [grown]
    · rw [if_neg other]
      constructor
      · rintro (⟨below, pending⟩ | ⟨_, same⟩)
        · exact ⟨by omega, pending⟩
        · exact absurd same other
      · rintro ⟨below, pending⟩
        exact .inl ⟨(about c below other).1, pending⟩
  · rw [commits]
    cases throws with
    | true => exact filed.nodup
    | false =>
      simp only [State.openCommit, Bool.false_eq_true, if_false]
      exact List.nodup_append.mpr ⟨filed.nodup, List.nodup_singleton _, fun a mem b single same => by
        rw [List.mem_singleton] at single
        exact new (single ▸ same ▸ mem)⟩
  · intro c unused
    rw [outcome, if_neg (by omega)]
    exact filed.unused c (by omega)
  · intro failed
    have working := ((current_iff _ _).mp current).1
    have failure : t.failure = s.failure := still.2
    rw [failure, working] at failed
    cases failed
  · intro c below
    rcases eq_or_ne c s.nextCommit with rfl | other
    · rw [mine]
      exact Nat.lt_of_lt_of_le known kept.2.1
    · obtain ⟨before, same⟩ := about c below other
      exact (target_kept kept filed before (by rw [same]; exact ⟨rfl, rfl, rfl⟩)).1
  · intro c below
    rcases eq_or_ne c s.nextCommit with rfl | other
    · have topic := filed.addressed.record r known
      obtain ⟨same, _, messages⟩ := kept
      simp only [State.target, mine, messages r known, topic, same]
    · obtain ⟨before, same⟩ := about c below other
      exact (target_kept kept filed before (by rw [same]; exact ⟨rfl, rfl, rfl⟩)).2

theorem step_filed (filed : Filed s) (next : step s a = some t) : Filed t := by
  have kept := step_kept next
  have owned := step_by_moves Owned (fun _ _ held move => move_owned held move) filed.owned next
  have addressed := step_by_moves Addressed (fun _ _ held move => move_addressed held move) filed.addressed next
  cases step_effect filed.owned next with
  | quiet still =>
    obtain ⟨table, commits, same⟩ := ledger_fields still.1
    refine filed_without filed owned addressed kept same (commits ▸ List.Sublist.refl _) ?_ ?_ ?_ ?_
    · intro c
      rw [table]
      exact ⟨rfl, rfl, rfl⟩
    · intro c _
      exact ledger_outcome still.1 c
    · intro c mem
      rw [commits, ledger_outcome still.1]
      exact ⟨fun _ => ((filed.pending c).mp mem).2, fun _ => mem⟩
    · intro failed
      rw [still.2] at failed
      rw [commits, filed.failed failed]
  | opened r metadata throws known current still => exact opened_filed filed owned addressed kept known current still
  | cleared rejected =>
    obtain ⟨table, commits, same⟩ := ledger_fields rejected
    have emptied : t.commits = [] := commits
    refine filed_without filed owned addressed kept same (emptied ▸ List.nil_sublist _) ?_ ?_ ?_ fun _ => emptied
    · intro c
      rw [table]
      exact setCommits_about _ _ c
    · intro c before
      rw [ledger_outcome rejected, rejectCommits_outcome, if_neg before]
    · intro c before
      rw [emptied, ledger_outcome rejected, rejectCommits_outcome, if_pos before]
      simp
  | answered failed offsets called is =>
    subst is
    refine filed_without filed owned addressed kept rfl List.filter_sublist ?_ ?_ ?_ ?_
    · intro c
      exact setCommits_about _ _ c
    · intro c before
      rw [offsetCommit_outcome, if_neg fun both => before both.1]
    · intro c before
      have member : c ∈ (s.offsetCommit failed offsets).commits ↔ c ∈ s.commits ∧ (!s.named failed offsets c) = true :=
        List.mem_filter
      rw [member, offsetCommit_outcome]
      by_cases named : s.named failed offsets c = true
      · simp [before, named]
      · simp [before, named, ((filed.pending c).mp before).2]
    · intro broken
      have none_left : s.commits = [] := filed.failed broken
      simp [State.offsetCommit, none_left]
  | continued d resolved is =>
    subst is
    refine filed_without filed owned addressed kept rfl (List.Sublist.refl _) ?_ ?_ ?_ filed.failed
    · intro c
      exact setCommits_about _ _ c
    · intro c _
      exact commitContinues_outcome resolved c
    · intro c mem
      rw [commitContinues_outcome resolved]
      exact ⟨fun _ => ((filed.pending c).mp mem).2, fun _ => mem⟩

theorem initial_filed (topic : String) (restoring : Bool) : Filed (initial topic restoring) where
  owned := initial_owned topic restoring
  addressed := ⟨by simp [initial], by simp [initial], by simp [initial]⟩
  pending := by simp [initial]
  nodup := by simp [initial]
  unused := fun _ _ => rfl
  failed := by simp [initial]
  known := by simp [initial]
  target := by simp [initial]

theorem reachable_filed (reach : Reachable s) : Filed s := by
  obtain ⟨topic, restoring, run⟩ := reach
  exact steps_invariant Filed (fun _ _ _ filed _ next => step_filed filed next) run (initial_filed topic restoring)

theorem closed_run (filed : Filed s) (closed : s.Closed) (none_left : s.commits = []) (run : Steps step Any s t) :
    t.commits = [] := by
  have invariant := steps_invariant (fun u => Filed u ∧ u.Closed ∧ u.commits = []) ?_ run ⟨filed, closed, none_left⟩
  · exact invariant.2.2
  · rintro u a v ⟨filed, closed, none_left⟩ _ next
    refine ⟨step_filed filed next, step_by_moves State.Closed (fun _ _ held move => move_closed held move) closed next, ?_⟩
    cases step_effect filed.owned next with
    | quiet still => rw [(ledger_fields still.1).2.1, none_left]
    | opened r metadata throws known current still =>
      rw [closed_lost closed] at current
      cases current
    | cleared rejected => exact (ledger_fields rejected).2.1
    | answered failed offsets called is => simp [is, State.offsetCommit, none_left]
    | continued d resolved is => rw [is, State.commitContinues, none_left]

theorem disconnect_closed (next : step s .disconnect = some t) : t.Closed ∧ t.commits = [] := by
  have is : t = s.disconnect := by
    unfold step at next
    split at next <;> simpa [Action.synchronous, perform] using next.symm
  subst is
  exact ⟨.inr ⟨rfl, rfl⟩, rfl⟩

end Settling

/-- A handler commits its record, and the native client answers. -/
def acknowledgedCommit : List Action :=
  [.rebalance .assign [⟨"topic", 0⟩] false, .provided 0 (some none), .assign 0 false, .run,
    .poll false, .fetched (some [⟨"topic", 0, 5⟩]), .dispatch false, .commit 0 0 false, .dispatch false,
    .offsetCommit false [("topic", 0, 6)]]

end Kafka
