import TsServiceLib.Kafka.LeaseLog
import Mathlib.Data.List.Perm.Basic

/-!
Who owns what in a delivery. A lease belongs to one partition, a task to one
lease, and the messages of a task, as the groups of a batch, to its partition;
what a record says of its acknowledgement is in the history.
-/
namespace Kafka
open Transitions Numbers OrderedMaps

section Groups

/-- The grouping loop, from the groups it has already made. -/
theorem grouping_get (messages : List Message) (groups : OrderedMap Nat (List Message)) (p : Nat) :
    (messages.foldl (fun groups message =>
      groups.set message.partition ((groups.get message.partition).getD [] ++ [message]))
      groups).get p =
    if messages.filter (fun m => decide (m.partition = p)) = [] then groups.get p
    else some ((groups.get p).getD [] ++ messages.filter fun m => decide (m.partition = p)) := by
  induction messages generalizing groups with
  | nil => simp
  | cons m rest ih =>
    rw [List.foldl_cons, ih, OrderedMap.get_set]
    rcases eq_or_ne m.partition p with rfl | other
    · simp only [decide_true, List.filter_cons_of_pos, if_true, Option.getD_some, List.cons_ne_nil,
        if_false]
      split
      · rename_i none_left
        rw [none_left]
      · simp
    · simp [other, other.symm]

theorem groupByPartition_mem {messages : List Message} {p : Nat} {values : List Message} :
    (p, values) ∈ (State.groupByPartition messages).entries ↔
      values ≠ [] ∧ values = messages.filter fun m => decide (m.partition = p) := by
  rw [← OrderedMap.get_eq_some_iff, State.groupByPartition, grouping_get, OrderedMap.get_empty]
  simp only [Option.getD_none, List.nil_append]
  split
  · rename_i none_left
    simp only [reduceCtorEq, false_iff, not_and]
    intro some_left same
    exact some_left (same.trans none_left)
  · rename_i some_left
    simp only [Option.some.injEq]
    constructor
    · intro same
      exact ⟨same ▸ some_left, same.symm⟩
    · exact fun both => both.2.symm

theorem grouped_head {s : State} {p l : Nat} (messages : List Message)
    (found : s.assignments.get p = some l) :
    ((s.assigned messages).filter fun m => decide (m.partition = p)).head? =
      messages.find? fun m => decide (m.topic = s.topic ∧ m.partition = p) := by
  have both : (s.assigned messages).filter (fun m => decide (m.partition = p)) =
      messages.filter fun m => decide (m.topic = s.topic ∧ m.partition = p) := by
    rw [State.assigned, List.filter_filter]
    apply List.filter_congr
    intro m _
    rcases eq_or_ne m.partition p with rfl | other
    · simp [OrderedMap.has, found]
    · simp [other]
  rw [both, List.head?_filter]

end Groups

structure Owned (s : State) : Prop where
  assigned : ∀ p l, s.assignments.get p = some l → l < s.nextLease ∧ (s.leases l).partition = p
  tasks : ∀ n l, (s.taskTable n).lease = some l →
    n < s.nextTask ∧ l < s.nextLease ∧ (s.leases l).partition = (s.taskTable n).partition
  rest : ∀ n, ∀ m ∈ (s.taskTable n).rest, m.partition = (s.taskTable n).partition
  handling : ∀ n r, (s.taskTable n).phase = .handling r → r < s.nextRecord ∧
    (s.taskTable n).lease = some (s.records r).lease ∧
    (s.records r).message.partition = (s.taskTable n).partition
  marked : ∀ r, (s.records r).marked.isSome = true →
    .marked (s.records r).lease (s.records r).message.offset ∈ s.history
  committed : ∀ r, (s.records r).committed = true →
    .committed (s.records r).lease (s.records r).message.offset ∈ s.history
  started : ∀ call l o, .handlerStarted call l o ∈ s.history → l < s.nextLease
  groups : ∀ call groups, s.run = .dispatching call groups → (groups.map Prod.fst).Nodup ∧
    ∀ p values, (p, values) ∈ groups → ∀ m ∈ values, m.partition = p

def State.objects (s : State) :=
  (s.nextLease, s.nextTask, s.nextRecord, fun l => (s.leases l).partition)

/-- A record with what is said of it left out. -/
def State.delivered (s : State) (r : Nat) : Nat × Message := ((s.records r).lease, (s.records r).message)

section Invariant
variable {s t : State}

theorem owned_frame (owned : Owned s) (objects : t.objects = s.objects)
    (assigned : ∀ p l, t.assignments.get p = some l → s.assignments.get p = some l)
    (tasks : ∀ n, (t.taskTable n).lease = (s.taskTable n).lease ∧
      (t.taskTable n).partition = (s.taskTable n).partition ∧
      (t.taskTable n).rest = (s.taskTable n).rest ∧
      ∀ r, (t.taskTable n).phase = .handling r → (s.taskTable n).phase = .handling r)
    (records : t.records = s.records)
    (run : t.run = s.run ∨ ∀ call groups, t.run ≠ .dispatching call groups)
    (history : ∃ events, t.history = events ++ s.history ∧
      ∀ call l o, .handlerStarted call l o ∉ events) : Owned t := by
  simp only [State.objects, Prod.mk.injEq, funext_iff] at objects
  obtain ⟨nextLease, nextTask, nextRecord, leases⟩ := objects
  obtain ⟨events, grown, quiet⟩ := history
  refine ⟨?_, ?_, ?_, ?_, ?_, ?_, ?_, ?_⟩
  · intro p l found
    rw [nextLease, leases]
    exact owned.assigned p l (assigned p l found)
  · intro n l held
    rw [(tasks n).1] at held
    rw [nextTask, nextLease, leases, (tasks n).2.1]
    exact owned.tasks n l held
  · intro n m mem
    rw [(tasks n).2.2.1] at mem
    rw [(tasks n).2.1]
    exact owned.rest n m mem
  · intro n r phase
    rw [nextRecord, records, (tasks n).1, (tasks n).2.1]
    exact owned.handling n r ((tasks n).2.2.2 r phase)
  · intro r
    rw [records, grown]
    exact fun marked => List.mem_append_right _ (owned.marked r marked)
  · intro r
    rw [records, grown]
    exact fun committed => List.mem_append_right _ (owned.committed r committed)
  · intro call l o mem
    rw [grown, List.mem_append] at mem
    rw [nextLease]
    exact owned.started call l o (mem.resolve_left (quiet call l o))
  · intro call groups batch
    rcases run with same | other
    · exact owned.groups call groups (same ▸ batch)
    · exact absurd batch (other call groups)

theorem setTask_owned (owned : Owned s) (n : Nat) (phase : TaskPhase)
    (other : ∀ r, phase ≠ .handling r) : Owned (s.setTask n phase) := by
  refine owned_frame owned rfl (fun _ _ found => found) ?_ rfl (.inl rfl) ⟨[], rfl, by simp⟩
  intro m
  refine ⟨setTask_lease .., setTask_partition .., setTask_rest .., ?_⟩
  intro r handling
  rw [setTask_phase] at handling
  split at handling
  · exact absurd handling (other r)
  · exact handling

theorem log_owned (owned : Owned s) {e : Event} (other : ∀ call l o, e ≠ .handlerStarted call l o) :
    Owned (s.log e) := by
  refine owned_frame owned rfl (fun _ _ found => found) (fun _ => ⟨rfl, rfl, rfl, fun _ same => same⟩)
    rfl (.inl rfl) ⟨[e], rfl, ?_⟩
  intro call l o mem
  exact other call l o (List.mem_singleton.mp mem).symm

theorem record_owned (owned : Owned s) {r : Nat} {R : Record} {e : Event}
    (same : (R.lease, R.message) = s.delivered r) (other : ∀ call l o, e ≠ .handlerStarted call l o)
    (marked : R.marked.isSome = true → (s.records r).marked.isSome = true ∨ e = .marked R.lease R.message.offset)
    (committed : R.committed = true →
      (s.records r).committed = true ∨ e = .committed R.lease R.message.offset) :
    Owned { s with records := Function.update s.records r R, history := e :: s.history } := by
  simp only [State.delivered, Prod.mk.injEq] at same
  have logged := log_owned owned other
  refine ⟨logged.assigned, logged.tasks, logged.rest, ?_, ?_, ?_, logged.started, logged.groups⟩
  · intro n r' handling
    have known := owned.handling n r' handling
    rcases eq_or_ne r' r with rfl | apart
    · simp only [Function.update_self, same]
      exact known
    · simp only [Function.update_of_ne apart]
      exact known
  · intro r'
    rcases eq_or_ne r' r with rfl | apart
    · simp only [Function.update_self]
      intro said
      rcases marked said with old | rfl
      · rw [same.1, same.2]
        exact List.mem_cons_of_mem _ (owned.marked r' old)
      · exact List.mem_cons_self
    · simp only [Function.update_of_ne apart]
      exact logged.marked r'
  · intro r'
    rcases eq_or_ne r' r with rfl | apart
    · simp only [Function.update_self]
      intro said
      rcases committed said with old | rfl
      · rw [same.1, same.2]
        exact List.mem_cons_of_mem _ (owned.committed r' old)
      · exact List.mem_cons_self
    · simp only [Function.update_of_ne apart]
      exact logged.committed r'

theorem received_owned (owned : Owned s) (call : Nat) (messages : List Message) :
    Owned { s with
      restart := s.restartAfter messages
      run := .dispatching call (State.groupByPartition (s.assigned messages)).entries } := by
  refine ⟨owned.assigned, owned.tasks, owned.rest, owned.handling, owned.marked, owned.committed,
    owned.started, ?_⟩
  intro other groups batch
  cases batch
  refine ⟨(State.groupByPartition (s.assigned messages)).nodup, ?_⟩
  intro p values mem m within
  rw [groupByPartition_mem] at mem
  rw [mem.2, List.mem_filter, decide_eq_true_eq] at within
  exact within.2

theorem launch_owned {call partition : Nat} {messages : List Message}
    {groups : List (Nat × List Message)} (owned : Owned s)
    (batch : s.run = .dispatching call ((partition, messages) :: groups)) :
    Owned (s.launch call partition messages groups) := by
  have grouped := owned.groups call _ batch
  have others : ∀ n, n ≠ s.nextTask →
      (s.launch call partition messages groups).taskTable n = s.taskTable n :=
    fun n other => Function.update_of_ne other _ _
  have new : (s.launch call partition messages groups).taskTable s.nextTask =
      ⟨call, partition, s.assignments.get partition, messages, .ready⟩ := Function.update_self ..
  refine ⟨owned.assigned, ?_, ?_, ?_, owned.marked, owned.committed, owned.started, ?_⟩
  · intro n l held
    rcases eq_or_ne n s.nextTask with rfl | other
    · rw [new] at held ⊢
      exact ⟨Nat.lt_succ_self _, owned.assigned partition l held⟩
    · rw [others n other] at held ⊢
      obtain ⟨known, lease⟩ := owned.tasks n l held
      exact ⟨Nat.lt_succ_of_lt known, lease⟩
  · intro n
    rcases eq_or_ne n s.nextTask with rfl | other
    · rw [new]
      exact grouped.2 partition messages List.mem_cons_self
    · rw [others n other]
      exact owned.rest n
  · intro n r
    rcases eq_or_ne n s.nextTask with rfl | other
    · rw [new]
      simp
    · rw [others n other]
      exact owned.handling n r
  · intro other rest here
    cases here
    refine ⟨(List.nodup_cons.mp grouped.1).2, ?_⟩
    intro p values mem
    exact grouped.2 p values (List.mem_cons_of_mem _ mem)

theorem handler_owned {n lease : Nat} {message : Message} {rest : List Message} (owned : Owned s)
    (left : (s.taskTable n).rest = message :: rest) (held : (s.taskTable n).lease = some lease) :
    Owned (s.startHandler n lease message rest) := by
  have others : ∀ m, m ≠ n → (s.startHandler n lease message rest).taskTable m = s.taskTable m :=
    fun m other => Function.update_of_ne other _ _
  have here : (s.startHandler n lease message rest).taskTable n =
      { s.taskTable n with rest := rest, phase := .handling s.nextRecord } := Function.update_self ..
  have fresh : (s.startHandler n lease message rest).records s.nextRecord =
      ⟨lease, message, none, false⟩ := Function.update_self ..
  have old : ∀ r, r ≠ s.nextRecord → (s.startHandler n lease message rest).records r = s.records r :=
    fun r other => Function.update_of_ne other _ _
  have within := owned.rest n
  rw [left] at within
  refine ⟨owned.assigned, ?_, ?_, ?_, ?_, ?_, ?_, owned.groups⟩
  · intro m l
    rcases eq_or_ne m n with rfl | other
    · rw [here]
      exact owned.tasks m l
    · rw [others m other]
      exact owned.tasks m l
  · intro m
    rcases eq_or_ne m n with rfl | other
    · rw [here]
      exact fun x mem => within x (List.mem_cons_of_mem _ mem)
    · rw [others m other]
      exact owned.rest m
  · intro m r
    rcases eq_or_ne m n with rfl | other
    · rw [here]
      intro handling
      cases handling
      rw [fresh]
      exact ⟨Nat.lt_succ_self _, held, within message List.mem_cons_self⟩
    · rw [others m other]
      intro handling
      obtain ⟨known, same⟩ := owned.handling m r handling
      rw [old r (Nat.ne_of_lt known)]
      exact ⟨Nat.lt_succ_of_lt known, same⟩
  · intro r
    rcases eq_or_ne r s.nextRecord with rfl | other
    · rw [fresh]
      simp
    · rw [old r other]
      exact fun marked => List.mem_cons_of_mem _ (owned.marked r marked)
  · intro r
    rcases eq_or_ne r s.nextRecord with rfl | other
    · rw [fresh]
      simp
    · rw [old r other]
      exact fun committed => List.mem_cons_of_mem _ (owned.committed r committed)
  · intro call l o mem
    rcases List.mem_cons.mp mem with new | earlier
    · cases new
      exact (owned.tasks n lease held).2.1
    · exact owned.started call l o earlier

theorem addLease_owned (owned : Owned s) (generation : Nat) (tp : TopicPartition) :
    Owned (s.addLease generation tp) := by
  have logged := log_owned owned (e := .leaseCreated s.nextLease tp.partition generation) (by simp)
  have old : ∀ l, l < s.nextLease → (s.addLease generation tp).leases l = s.leases l :=
    fun l known => Function.update_of_ne (Nat.ne_of_lt known) _ _
  refine ⟨?_, ?_, owned.rest, owned.handling, logged.marked, logged.committed, ?_, owned.groups⟩
  · intro p l found
    simp only [State.addLease, OrderedMap.get_set] at found ⊢
    split at found
    · rename_i same
      cases found
      simp [same]
    · obtain ⟨known, own⟩ := owned.assigned p l found
      rw [Function.update_of_ne (Nat.ne_of_lt known)]
      exact ⟨Nat.lt_succ_of_lt known, own⟩
  · intro n l held
    obtain ⟨numbered, known, own⟩ := owned.tasks n l held
    rw [old l known]
    exact ⟨numbered, Nat.lt_succ_of_lt known, own⟩
  · intro call l o mem
    exact Nat.lt_succ_of_lt (logged.started call l o mem)

theorem addLeases_owned (generation : Nat) (partitions : List TopicPartition) (owned : Owned s) :
    Owned (partitions.foldl (State.addLease generation) s) := by
  induction partitions generalizing s with
  | nil => exact owned
  | cons tp rest ih => exact ih (addLease_owned owned generation tp)

theorem invalidate_owned (owned : Owned s) : Owned s.invalidate := by
  refine owned_frame owned ?_ ?_ (fun _ => ⟨rfl, rfl, rfl, fun _ same => same⟩) rfl (.inl rfl) ?_
  · simp only [State.objects, State.invalidate, Prod.mk.injEq, true_and]
    funext l
    split <;> rfl
  · intro p l found
    simp [State.invalidate] at found
  · exact ⟨s.leased.map .revoked ++ [.invalidated], by simp [State.invalidate], by simp⟩

theorem move_owned {promise : Promise} (owned : Owned s) (move : Move promise s t) : Owned t := by
  cases move with
  | invalidate => exact invalidate_owned owned
  | received call messages => exact received_owned owned call messages
  | launch call partition messages groups batch => exact launch_owned owned batch
  | handler n lease message rest ready left held => exact handler_owned owned left held
  | rebalanced partitions =>
    have logged := log_owned (invalidate_owned owned)
      (e := .rebalanced s.invalidate.generation partitions) (by simp)
    exact { logged with }
  | assigned r chosen commits =>
    have logged := log_owned owned (e := .assignCalled (s.restorations r).generation chosen false) (by simp)
    exact { addLeases_owned _ (s.restorations r).partitions logged with }
  | fails | cancel | stop | book | restorationEnds => exact { owned with }
  | provided r answer => cases answer <;> exact { owned with }
  | watermarks r offsets tp next rest chosen answer => cases answer <;> exact { owned with }
  | turn run still =>
    refine owned_frame owned rfl (fun _ _ found => found) (fun _ => ⟨rfl, rfl, rfl, fun _ same => same⟩)
      rfl (.inr ?_) ⟨[], rfl, by simp⟩
    rcases still with rfl | rfl | ⟨_, rfl⟩ <;> simp
  | dropped =>
    exact owned_frame owned rfl (fun _ _ found => found) (fun _ => ⟨rfl, rfl, rfl, fun _ same => same⟩)
      rfl (.inr (by simp)) ⟨[], rfl, by simp⟩
  | called =>
    exact owned_frame owned rfl (fun _ _ found => found) (fun _ => ⟨rfl, rfl, rfl, fun _ same => same⟩)
      rfl (.inr (by simp [State.callConsume])) ⟨[_], rfl, by simp⟩
  | mark r metadata =>
    exact record_owned owned rfl (by simp) (fun _ => .inr rfl) (fun committed => .inl committed)
  | committed c =>
    have said := record_owned owned (r := (s.commitTable c).record)
      (R := { s.records (s.commitTable c).record with committed := true })
      (e := .committed _ _) rfl (by simp) (fun marked => .inl marked) (fun _ => .inr rfl)
    exact { said with }
  | commit r =>
    have logged := log_owned owned (e := .commitCalled (s.records r).lease (s.records r).message.offset)
      (by simp)
    exact { logged with }
  | assignThrew r chosen =>
    have logged := log_owned owned (e := .assignCalled (s.restorations r).generation chosen true) (by simp)
    exact { logged with }
  | sought n r =>
    have logged := log_owned owned (e := .sought (s.records r).lease (s.records r).message.offset) (by simp)
    exact { setTask_owned logged n .seeking (by simp) with }
  | soughtInVain n r =>
    exact setTask_owned (log_owned owned (by simp)) n .rejected (by simp)
  | stored n r phase handling current marked next =>
    refine setTask_owned (log_owned owned (by simp)) n phase ?_
    rcases next with rfl | rfl <;> simp
  | acknowledged n r phase handling done next =>
    refine setTask_owned owned n phase ?_
    rcases next with rfl | ⟨_, rfl⟩ <;> simp
  | awaited | finished | soughtBack | overtakenReady | overtakenHandling | overtakenRejected | rejects =>
    exact setTask_owned owned _ _ (by simp)
  | ends n => exact { setTask_owned owned n .done (by simp) with }
  | resumes n lease =>
    have ended := setTask_owned (log_owned owned (e := .resumed lease) (by simp)) n .done (by simp)
    exact { ended with }

theorem initial_owned (topic : String) (restoring : Bool) : Owned (initial topic restoring) where
  assigned _ _ found := by cases found
  tasks := by simp [initial]
  rest := by simp [initial]
  handling := by simp [initial]
  marked := by simp [initial]
  committed := by simp [initial]
  started := by simp [initial]
  groups := by simp [initial]

end Invariant

end Kafka
