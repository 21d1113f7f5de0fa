import TsServiceLib.Kafka.DeliveryOwnership

/-!
At least once. A lease has at most one task at a time, since its partition is
paused until the task has ended, and a task has at most one message that is
delivered and not acknowledged: the one its handler has. When the task leaves
that message it seeks back to it, so the message is the first that comes next.
The offset after a message is therefore stored or committed only when nothing
delivered before it is left behind.
-/
namespace Kafka
open Transitions Numbers OrderedMaps

/-- Handlers acknowledge only the record they are running for. The client hands
    over nothing of a paused partition, and starts again where a seek has sent
    it. The order of the offsets that follow does not matter. -/
def orderly : Promise where
  own s r := ∃ n, (s.taskTable n).phase = .handling r
  batch s _ messages := ∀ p m,
    messages.find? (fun m => decide (m.topic = s.topic ∧ m.partition = p)) = some m →
      s.paused p = false ∧ ∀ offset, s.restart p = some offset → m.offset = offset
  handling _ n _ handling := ⟨n, handling⟩

def Acknowledged (history : List Event) (l : Nat) (offset : Int) : Prop :=
  .marked l offset ∈ history ∨ .committed l offset ∈ history

/-- An offset is stored or committed only over acknowledged messages; a commit
    may itself be the acknowledgement of the last of them. -/
def Ordered : List Event → Prop
  | [] => True
  | e :: earlier =>
    (∀ l n, e = .stored l n ∨ e = .commitCalled l n → ∀ call o, .handlerStarted call l o ∈ earlier →
      o ≤ n → Acknowledged earlier l o ∨ e = .commitCalled l o) ∧ Ordered earlier

theorem ordered_split {later earlier : List Event} {e : Event}
    (ordered : Ordered (later ++ e :: earlier)) : Ordered (e :: earlier) := by
  induction later with
  | nil => exact ordered
  | cons f later ih => exact ih ordered.2

theorem ordered_append {quiet history : List Event}
    (plain : ∀ e ∈ quiet, ∀ l n, e ≠ .stored l n ∧ e ≠ .commitCalled l n) (ordered : Ordered history) :
    Ordered (quiet ++ history) := by
  induction quiet with
  | nil => exact ordered
  | cons e rest ih =>
    refine ⟨?_, ih fun f mem => plain f (List.mem_cons_of_mem _ mem)⟩
    intro l n wrong
    obtain ⟨first, second⟩ := plain e List.mem_cons_self l n
    exact absurd wrong (by simp [first, second])

/-- The messages of the partition are a group of the batch that is handed out. -/
def Grouped (s : State) (p : Nat) (values : List Message) : Prop :=
  ∃ call groups, s.run = .dispatching call groups ∧ (p, values) ∈ groups

/-- The task is one of the lease and has not ended. -/
def Open (s : State) (l n : Nat) : Prop :=
  (s.taskTable n).lease = some l ∧ (s.taskTable n).phase ≠ .done

/-- A message a task may have delivered and left unacknowledged. -/
def Owes (s : State) (p n : Nat) (o : Int) : Prop :=
  match (s.taskTable n).phase with
  | .ready => ∃ m, (s.taskTable n).rest.head? = some m ∧ m.offset = o
  | .handling r => (s.records r).message.offset = o
  | .committing _ => False
  | .rejected => True
  | .seeking => s.restart p = some o ∨ s.stopping = true
  | .settled => s.restart p = some o ∨ s.stopping = true
  | .done => False

/-- Where the unacknowledged message of a lease is: with its task, first in its
    group, or where the client starts again. -/
inductive Due (s : State) (p l : Nat) (o : Int) : Prop where
  | task (n : Nat) (opened : Open s l n) (owes : Owes s p n o)
  | group (closed : ∀ n, ¬ Open s l n) (values : List Message) (grouped : Grouped s p values)
      (first : ∃ m, values.head? = some m ∧ m.offset = o)
  | restart (closed : ∀ n, ¬ Open s l n) (ungrouped : ∀ values, ¬ Grouped s p values)
      (again : s.restart p = some o ∨ s.stopping = true)

structure Position (s : State) (p l : Nat) : Prop where
  alone : ∀ n m, Open s l n → Open s l m → n = m
  paused : ∀ n, Open s l n → s.paused p = true
  waiting : ∀ values, Grouped s p values → ∀ n, ¬ Open s l n
  due : ∀ call o, .handlerStarted call l o ∈ s.history → Acknowledged s.history l o ∨ Due s p l o

section Positions
variable {s t : State} {p l : Nat}

theorem Position.owed (position : Position s p l) {n : Nat} (opened : Open s l n) {call : Nat} {o : Int}
    (started : .handlerStarted call l o ∈ s.history) : Acknowledged s.history l o ∨ Owes s p n o := by
  rcases position.due call o started with acknowledged | ⟨m, other, owes⟩ | ⟨closed⟩ | ⟨closed⟩
  · exact .inl acknowledged
  · rw [position.alone n m opened other]
    exact .inr owes
  · exact absurd opened (closed n)
  · exact absurd opened (closed n)

theorem Position.ungrouped (position : Position s p l) {n : Nat} (opened : Open s l n) :
    ∀ values, ¬ Grouped s p values :=
  fun values grouped => position.waiting values grouped n opened

/-- What a lease sees of a move that is not its own. -/
structure Unseen (s t : State) (p l : Nat) : Prop where
  tasks : ∀ n, (s.taskTable n).lease = some l ∨ (t.taskTable n).lease = some l →
    t.taskTable n = s.taskTable n
  records : ∀ n r, (s.taskTable n).lease = some l → (s.taskTable n).phase = .handling r →
    (t.records r).message = (s.records r).message
  paused : s.paused p = true → t.paused p = true
  restart : t.restart p = s.restart p ∨ t.stopping = true
  stopping : s.stopping = true → t.stopping = true
  groups : ∀ values, Grouped t p values ↔ Grouped s p values
  started : ∀ call o, .handlerStarted call l o ∈ t.history → .handlerStarted call l o ∈ s.history
  acknowledged : ∀ o, Acknowledged s.history l o → Acknowledged t.history l o

theorem Unseen.open_iff (unseen : Unseen s t p l) (n : Nat) : Open t l n ↔ Open s l n := by
  unfold Open
  constructor
  · rintro ⟨held, phase⟩
    have same := unseen.tasks n (.inr held)
    rw [same] at held phase
    exact ⟨held, phase⟩
  · rintro ⟨held, phase⟩
    rw [unseen.tasks n (.inl held)]
    exact ⟨held, phase⟩

theorem Unseen.again (unseen : Unseen s t p l) {o : Int} (again : s.restart p = some o ∨ s.stopping = true) :
    t.restart p = some o ∨ t.stopping = true := by
  rcases again with restart | stopping
  · rcases unseen.restart with same | stopped
    · exact .inl (same.trans restart)
    · exact .inr stopped
  · exact .inr (unseen.stopping stopping)

theorem Unseen.owes (unseen : Unseen s t p l) {n : Nat} {o : Int} (opened : Open s l n)
    (owes : Owes s p n o) : Owes t p n o := by
  have same := unseen.tasks n (.inl opened.1)
  unfold Owes at owes ⊢
  rw [same]
  split at owes
  · exact owes
  · rename_i r handling
    rw [unseen.records n r opened.1 handling]
    exact owes
  · exact owes
  · trivial
  · exact unseen.again owes
  · exact unseen.again owes
  · exact owes

theorem Unseen.position (unseen : Unseen s t p l) (position : Position s p l) : Position t p l := by
  refine ⟨?_, ?_, ?_, ?_⟩
  · intro n m first second
    exact position.alone n m ((unseen.open_iff n).mp first) ((unseen.open_iff m).mp second)
  · intro n opened
    exact unseen.paused (position.paused n ((unseen.open_iff n).mp opened))
  · intro values grouped n opened
    exact position.waiting values ((unseen.groups values).mp grouped) n ((unseen.open_iff n).mp opened)
  · intro call o mem
    rcases position.due call o (unseen.started call o mem) with
      acknowledged | ⟨n, opened, owes⟩ | ⟨closed, values, grouped, first⟩ | ⟨closed, ungrouped, again⟩
    · exact .inl (unseen.acknowledged o acknowledged)
    · exact .inr (.task n ((unseen.open_iff n).mpr opened) (unseen.owes opened owes))
    · refine .inr (.group ?_ values ((unseen.groups values).mpr grouped) first)
      exact fun n opened => closed n ((unseen.open_iff n).mp opened)
    · refine .inr (.restart ?_ ?_ (unseen.again again))
      · exact fun n opened => closed n ((unseen.open_iff n).mp opened)
      · exact fun values grouped => ungrouped values ((unseen.groups values).mp grouped)

/-- A move of a task of the lease, which goes on. -/
theorem own_position (position : Position s p l) {n : Nat} (opened : Open s l n)
    (others : ∀ m, m ≠ n → t.taskTable m = s.taskTable m) (still : Open t l n)
    (paused : t.paused = s.paused) (run : t.run = s.run)
    (due : ∀ call o, .handlerStarted call l o ∈ t.history →
      Acknowledged t.history l o ∨ Owes t p n o) : Position t p l := by
  have only : ∀ m, Open t l m → m = n := by
    intro m other
    by_contra apart
    unfold Open at other
    rw [others m apart] at other
    exact apart (position.alone m n other opened)
  refine ⟨?_, ?_, ?_, ?_⟩
  · intro m m' first second
    rw [only m first, only m' second]
  · intro m _
    rw [paused]
    exact position.paused n opened
  · intro values grouped
    unfold Grouped at grouped
    rw [run] at grouped
    exact absurd opened (position.waiting values grouped n)
  · intro call o mem
    exact (due call o mem).imp_right (.task n still)

theorem end_position (position : Position s p l) {n : Nat} (settled : (s.taskTable n).phase = .settled)
    (held : (s.taskTable n).lease = some l) (others : ∀ m, m ≠ n → t.taskTable m = s.taskTable m)
    (done : (t.taskTable n).phase = .done) (run : t.run = s.run) (restart : t.restart = s.restart)
    (stopping : t.stopping = s.stopping)
    (started : ∀ call o, .handlerStarted call l o ∈ t.history → .handlerStarted call l o ∈ s.history)
    (acknowledged : ∀ o, Acknowledged s.history l o → Acknowledged t.history l o) : Position t p l := by
  have opened : Open s l n := ⟨held, by simp [settled]⟩
  have closed : ∀ m, ¬ Open t l m := by
    intro m other
    rcases eq_or_ne m n with rfl | apart
    · exact other.2 done
    · unfold Open at other
      rw [others m apart] at other
      exact apart (position.alone m n other opened)
  have ungrouped : ∀ values, ¬ Grouped t p values := by
    unfold Grouped
    rw [run]
    exact position.ungrouped opened
  refine ⟨?_, ?_, ?_, ?_⟩
  · exact fun m _ first => absurd first (closed m)
  · exact fun m first => absurd first (closed m)
  · exact fun values grouped => absurd grouped (ungrouped values)
  · intro call o mem
    refine (position.owed opened (started call o mem)).imp (acknowledged o) fun owes => ?_
    rw [Owes, settled] at owes
    rw [← restart, ← stopping] at owes
    exact .restart closed ungrouped owes

end Positions

structure Accounted (s : State) : Prop where
  owned : Owned s
  ordered : Ordered s.history
  positions : ∀ p l, s.current p l = true → Position s p l

section Invariant
variable {s t : State}

theorem Accounted.partition (accounted : Accounted s) {p l n : Nat} (current : s.current p l = true)
    (held : (s.taskTable n).lease = some l) : (s.taskTable n).partition = p := by
  have found := ((current_iff p l).mp current).2.2.2
  rw [← (accounted.owned.tasks n l held).2.2]
  exact (accounted.owned.assigned p l found).2

theorem unseen_accounted (accounted : Accounted s) (owned : Owned t) (ordered : Ordered t.history)
    (current : t.current = s.current) (unseen : ∀ p l, s.current p l = true → Unseen s t p l) :
    Accounted t := by
  refine ⟨owned, ordered, ?_⟩
  intro p l here
  rw [current] at here
  exact (unseen p l here).position (accounted.positions p l here)

theorem closed_accounted (owned : Owned t) (ordered : Ordered t.history)
    (closed : ∀ p l, t.current p l = false) : Accounted t := by
  refine ⟨owned, ordered, ?_⟩
  intro p l here
  rw [closed p l] at here
  cases here

theorem log_accounted (accounted : Accounted s) {e : Event}
    (other : ∀ call l o, e ≠ .handlerStarted call l o) (ordered : Ordered (e :: s.history)) :
    Accounted (s.log e) := by
  apply unseen_accounted accounted (log_owned accounted.owned other) ordered rfl
  intro p l _
  refine ⟨fun _ _ => rfl, fun _ _ _ _ => rfl, id, .inl rfl, id, fun _ => Iff.rfl, ?_, ?_⟩
  · intro call o mem
    rcases List.mem_cons.mp mem with new | old
    · exact absurd new.symm (other call l o)
    · exact old
  · intro o acknowledged
    exact acknowledged.imp (List.mem_cons_of_mem _) (List.mem_cons_of_mem _)

theorem phase_accounted (accounted : Accounted s) (n : Nat) (phase : TaskPhase)
    (opened : (s.taskTable n).phase ≠ .done) (still : phase ≠ .done) (other : ∀ r, phase ≠ .handling r)
    (owes : ∀ p l o, s.current p l = true → (s.taskTable n).lease = some l → Owes s p n o →
      Acknowledged s.history l o ∨ Owes (s.setTask n phase) p n o) : Accounted (s.setTask n phase) := by
  have others : ∀ m, m ≠ n → (s.setTask n phase).taskTable m = s.taskTable m :=
    fun m apart => Function.update_of_ne apart _ _
  refine ⟨setTask_owned accounted.owned n phase other, accounted.ordered, ?_⟩
  intro p l current
  have position := accounted.positions p l current
  by_cases held : (s.taskTable n).lease = some l
  · have working : Open s l n := ⟨held, opened⟩
    apply own_position position working others _ rfl rfl
    · intro call o mem
      exact (position.owed working mem).elim .inl (owes p l o current held)
    · refine ⟨by simpa using held, ?_⟩
      rw [setTask_phase, if_pos rfl]
      exact still
  · apply Unseen.position (s := s) _ position
    refine ⟨?_, fun _ _ _ _ => rfl, id, .inl rfl, id, fun _ => Iff.rfl, fun _ _ => id, fun _ => id⟩
    intro m mine
    apply others m
    rintro rfl
    rw [setTask_lease] at mine
    exact mine.elim held held

theorem Accounted.handled (accounted : Accounted s) {n r call : Nat} {o : Int}
    (handling : (s.taskTable n).phase = .handling r)
    (current : s.current (s.records r).message.partition (s.records r).lease = true)
    (started : .handlerStarted call (s.records r).lease o ∈ s.history) :
    Acknowledged s.history (s.records r).lease o ∨ (s.records r).message.offset = o := by
  have opened : Open s (s.records r).lease n :=
    ⟨(accounted.owned.handling n r handling).2.1, by simp [handling]⟩
  have owed := (accounted.positions _ _ current).owed opened started
  rw [Owes, handling] at owed
  exact owed

theorem stored_ordered (accounted : Accounted s) {n r : Nat}
    (handling : (s.taskTable n).phase = .handling r)
    (current : s.current (s.records r).message.partition (s.records r).lease = true)
    (marked : (s.records r).marked.isSome = true) :
    Ordered (.stored (s.records r).lease (s.records r).message.offset :: s.history) := by
  refine ⟨?_, accounted.ordered⟩
  intro l k which call o started _
  obtain ⟨rfl, rfl⟩ : (s.records r).lease = l ∧ (s.records r).message.offset = k := by simpa using which
  rcases accounted.handled handling current started with acknowledged | rfl
  · exact .inl acknowledged
  · exact .inl (.inl (accounted.owned.marked r marked))

theorem commitCalled_ordered (accounted : Accounted s) {n r : Nat}
    (handling : (s.taskTable n).phase = .handling r)
    (current : s.current (s.records r).message.partition (s.records r).lease = true) :
    Ordered (.commitCalled (s.records r).lease (s.records r).message.offset :: s.history) := by
  refine ⟨?_, accounted.ordered⟩
  intro l k which call o started _
  obtain ⟨rfl, rfl⟩ : (s.records r).lease = l ∧ (s.records r).message.offset = k := by simpa using which
  rcases accounted.handled handling current started with acknowledged | rfl
  · exact .inl acknowledged
  · exact .inr rfl

theorem quiet_ordered (accounted : Accounted s) {e : Event}
    (plain : ∀ l n, e ≠ .stored l n ∧ e ≠ .commitCalled l n) : Ordered (e :: s.history) := by
  have only : ∀ f ∈ [e], ∀ l n, f ≠ .stored l n ∧ f ≠ .commitCalled l n := by
    intro f mem
    rw [List.mem_singleton.mp mem]
    exact plain
  exact ordered_append only accounted.ordered

theorem restartAt_accounted (accounted : Accounted s) {n r : Nat} (o : Int)
    (handling : (s.taskTable n).phase = .handling r)
    (current : s.current (s.records r).message.partition (s.records r).lease = true) :
    Accounted (s.restartAt (s.records r).message.partition o) := by
  have owned : Owned (s.restartAt (s.records r).message.partition o) := { accounted.owned with }
  refine ⟨owned, accounted.ordered, ?_⟩
  intro p l here
  have position := accounted.positions p l here
  rcases eq_or_ne p (s.records r).message.partition with rfl | apart
  · have same : (s.records r).lease = l := by
      have first := ((current_iff _ _).mp current).2.2.2
      have second := ((current_iff _ _).mp here).2.2.2
      exact Option.some.inj (first.symm.trans second)
    subst same
    have opened : Open s (s.records r).lease n :=
      ⟨(accounted.owned.handling n r handling).2.1, by simp [handling]⟩
    refine own_position position opened (fun _ _ => rfl) opened rfl rfl ?_
    intro call k mem
    have owed := position.owed opened mem
    unfold Owes at owed ⊢
    simp only [State.restartAt, handling] at owed ⊢
    exact owed
  · apply Unseen.position (s := s) _ position
    refine ⟨fun _ _ => rfl, fun _ _ _ _ => rfl, id, .inl ?_, id, fun _ => Iff.rfl, fun _ _ => id, fun _ => id⟩
    exact Function.update_of_ne apart _ _

theorem handler_accounted {n lease : Nat} {message : Message} {rest : List Message}
    (accounted : Accounted s) (ready : (s.taskTable n).phase = .ready)
    (left : (s.taskTable n).rest = message :: rest) (held : (s.taskTable n).lease = some lease) :
    Accounted (s.startHandler n lease message rest) := by
  have others : ∀ m, m ≠ n → (s.startHandler n lease message rest).taskTable m = s.taskTable m :=
    fun m apart => Function.update_of_ne apart _ _
  have here : (s.startHandler n lease message rest).taskTable n =
      { s.taskTable n with rest := rest, phase := .handling s.nextRecord } := Function.update_self ..
  have fresh : (s.startHandler n lease message rest).records s.nextRecord =
      ⟨lease, message, none, false⟩ := Function.update_self ..
  have more : ∀ {l : Nat} {o : Int}, Acknowledged s.history l o →
      Acknowledged (s.startHandler n lease message rest).history l o :=
    fun acknowledged => acknowledged.imp (List.mem_cons_of_mem _) (List.mem_cons_of_mem _)
  refine ⟨handler_owned accounted.owned left held, quiet_ordered accounted (by simp), ?_⟩
  intro p l current
  have position := accounted.positions p l current
  rcases eq_or_ne lease l with rfl | apart
  · have opened : Open s lease n := ⟨held, by simp [ready]⟩
    apply own_position position opened others _ rfl rfl
    · intro call o mem
      have owes : ∀ k, message.offset = k → Owes (s.startHandler n lease message rest) p n k := by
        intro k same
        unfold Owes
        rw [here]
        dsimp only
        rw [fresh]
        exact same
      rcases List.mem_cons.mp mem with new | old
      · cases new
        exact .inr (owes _ rfl)
      · refine (position.owed opened old).imp more fun owed => ?_
        simp only [Owes, ready, left, List.head?_cons, Option.some.injEq] at owed
        obtain ⟨_, rfl, same⟩ := owed
        exact owes o same
    · refine ⟨?_, ?_⟩
      · rw [here]
        exact held
      · rw [here]
        simp
  · apply Unseen.position (s := s) _ position
    refine ⟨?_, ?_, id, .inl rfl, id, fun _ => Iff.rfl, ?_, fun _ => more⟩
    · intro m mine
      apply others m
      rintro rfl
      rw [here, or_self, held] at mine
      exact apart (Option.some.inj mine)
    · intro m r _ handling
      have known := (accounted.owned.handling m r handling).1
      exact congrArg Record.message (Function.update_of_ne (Nat.ne_of_lt known) _ _)
    · intro call o mem
      rcases List.mem_cons.mp mem with new | old
      · cases new
        exact absurd rfl apart
      · exact old

theorem record_accounted (accounted : Accounted s) {r : Nat} {R : Record} {e : Event}
    (owned : Owned { s with records := Function.update s.records r R, history := e :: s.history })
    (same : R.message = (s.records r).message) (other : ∀ call l o, e ≠ .handlerStarted call l o)
    (plain : ∀ l n, e ≠ .stored l n ∧ e ≠ .commitCalled l n) :
    Accounted { s with records := Function.update s.records r R, history := e :: s.history } := by
  apply unseen_accounted accounted owned (quiet_ordered accounted plain) rfl
  intro p l _
  refine ⟨fun _ _ => rfl, ?_, id, .inl rfl, id, fun _ => Iff.rfl, ?_, ?_⟩
  · intro _ r' _ _
    rcases eq_or_ne r' r with rfl | apart
    · simp only [Function.update_self]
      exact same
    · simp only [Function.update_of_ne apart]
  · intro call o mem
    rcases List.mem_cons.mp mem with new | old
    · exact absurd new.symm (other call l o)
    · exact old
  · intro o acknowledged
    exact acknowledged.imp (List.mem_cons_of_mem _) (List.mem_cons_of_mem _)

theorem launch_accounted {call partition : Nat} {messages : List Message}
    {groups : List (Nat × List Message)} (accounted : Accounted s)
    (batch : s.run = .dispatching call ((partition, messages) :: groups)) :
    Accounted (s.launch call partition messages groups) := by
  have others : ∀ n, n ≠ s.nextTask →
      (s.launch call partition messages groups).taskTable n = s.taskTable n :=
    fun n other => Function.update_of_ne other _ _
  have new : (s.launch call partition messages groups).taskTable s.nextTask =
      ⟨call, partition, s.assignments.get partition, messages, .ready⟩ := Function.update_self ..
  have unused : ∀ l, (s.taskTable s.nextTask).lease ≠ some l :=
    fun l held => Nat.lt_irrefl _ (accounted.owned.tasks _ l held).1
  have nodup := List.nodup_cons.mp (accounted.owned.groups call _ batch).1
  have before : ∀ p values, Grouped s p values ↔ (p, values) ∈ (partition, messages) :: groups := by
    intro p values
    constructor
    · rintro ⟨_, _, here, mem⟩
      rw [batch] at here
      cases here
      exact mem
    · exact fun mem => ⟨call, _, batch, mem⟩
  have after : ∀ p values, Grouped (s.launch call partition messages groups) p values ↔
      (p, values) ∈ groups := by
    intro p values
    constructor
    · rintro ⟨_, _, here, mem⟩
      cases here
      exact mem
    · exact fun mem => ⟨call, groups, rfl, mem⟩
  refine ⟨launch_owned accounted.owned batch, accounted.ordered, ?_⟩
  intro p l current
  have found := ((current_iff (s := s) p l).mp current).2.2.2
  have position := accounted.positions p l current
  rcases eq_or_ne p partition with rfl | apart
  · have idle := position.waiting messages ((before p messages).mpr List.mem_cons_self)
    have only : ∀ n, Open (s.launch call p messages groups) l n → n = s.nextTask := by
      intro n opened
      by_contra other
      unfold Open at opened
      rw [others n other] at opened
      exact idle n opened
    have opened : Open (s.launch call p messages groups) l s.nextTask := by
      unfold Open
      rw [new]
      exact ⟨found, by simp⟩
    refine ⟨?_, ?_, ?_, ?_⟩
    · intro n m first second
      rw [only n first, only m second]
    · intro n _
      exact Function.update_self ..
    · intro values grouped
      rw [after] at grouped
      exact absurd (List.mem_map_of_mem grouped) nodup.1
    · intro c o mem
      refine (position.due c o mem).imp_right fun due => .task s.nextTask opened ?_
      unfold Owes
      rw [new]
      rcases due with ⟨n, busy, _⟩ | ⟨_, values, grouped, first⟩ | ⟨_, ungrouped, _⟩
      · exact absurd busy (idle n)
      · rw [before, List.mem_cons] at grouped
        rcases grouped with same | later
        · cases same
          exact first
        · exact absurd (List.mem_map_of_mem later) nodup.1
      · exact absurd ((before p messages).mpr List.mem_cons_self) (ungrouped messages)
  · apply Unseen.position (s := s) _ position
    refine ⟨?_, fun _ _ _ _ => rfl, ?_, .inl rfl, id, ?_, fun _ _ => id, fun _ => id⟩
    · intro n mine
      apply others n
      rintro rfl
      rw [new] at mine
      rcases mine with held | held
      · exact unused l held
      · have there := accounted.owned.assigned partition l held
        exact apart ((accounted.owned.assigned p l found).2.symm.trans there.2)
    · intro paused
      simp only [State.launch, Function.update_of_ne apart]
      exact paused
    · intro values
      rw [before, after, List.mem_cons]
      simp [apart]

theorem dropped_accounted (accounted : Accounted s) {call : Nat} {messages : List Message}
    (fetching : s.run = .fetching call) (stopping : s.stopping = true)
    (owned : Owned { s with restart := s.restartAfter messages, run := .polling }) :
    Accounted { s with restart := s.restartAfter messages, run := .polling } := by
  apply unseen_accounted accounted owned accounted.ordered rfl
  intro p l _
  refine ⟨fun _ _ => rfl, fun _ _ _ _ => rfl, id, .inr stopping, id, ?_, fun _ _ => id, fun _ => id⟩
  intro values
  simp [Grouped, fetching]

/-- The client hands over the message it was sent back to first. -/
theorem received_accounted (accounted : Accounted s) {call : Nat} {messages : List Message}
    (fetching : s.run = .fetching call) (kept : orderly.batch s call messages)
    (opened : s.stopping = false) :
    Accounted { s with
      restart := s.restartAfter messages
      run := .dispatching call (State.groupByPartition (s.assigned messages)).entries } := by
  refine ⟨received_owned accounted.owned call messages, accounted.ordered, ?_⟩
  intro p l current
  have position := accounted.positions p l current
  have head := grouped_head messages ((current_iff (s := s) p l).mp current).2.2.2
  have before : ∀ values, ¬ Grouped s p values := by simp [Grouped, fetching]
  have after : ∀ values, Grouped { s with
      restart := s.restartAfter messages
      run := .dispatching call (State.groupByPartition (s.assigned messages)).entries } p values ↔
      values ≠ [] ∧ values = (s.assigned messages).filter fun m => decide (m.partition = p) := by
    intro values
    rw [← groupByPartition_mem]
    constructor
    · rintro ⟨_, _, here, mem⟩
      cases here
      exact mem
    · exact fun mem => ⟨call, _, rfl, mem⟩
  cases found : messages.find? fun m => decide (m.topic = s.topic ∧ m.partition = p) with
  | none =>
    rw [found, List.head?_eq_none_iff] at head
    apply Unseen.position (s := s) _ position
    refine ⟨fun _ _ => rfl, fun _ _ _ _ => rfl, id, .inl ?_, id, ?_, fun _ _ => id, fun _ => id⟩
    · have absent : messages.any (fun m => decide (m.topic = s.topic ∧ m.partition = p)) = false := by
        rw [List.any_eq_false]
        exact List.find?_eq_none.mp found
      simp only [State.restartAfter, absent]
      rfl
    · intro values
      rw [after, head]
      simp [before values]
  | some m =>
    obtain ⟨unpaused, again⟩ := kept p m found
    have closed : ∀ n, ¬ Open s l n := by
      intro n busy
      rw [position.paused n busy] at unpaused
      cases unpaused
    refine ⟨fun n _ busy => absurd busy (closed n), fun n busy => absurd busy (closed n),
      fun _ _ => closed, ?_⟩
    intro c o mem
    refine (position.due c o mem).imp_right fun due => ?_
    rcases due with ⟨n, busy, _⟩ | ⟨_, values, grouped, _⟩ | ⟨_, _, owed⟩
    · exact absurd busy (closed n)
    · exact absurd grouped (before values)
    · have restart : s.restart p = some o := owed.resolve_right (by simp [opened])
      rw [found] at head
      refine .group closed _ ((after _).mpr ⟨?_, rfl⟩) ⟨m, head, again o restart⟩
      intro empty
      rw [empty] at head
      cases head

theorem addLease_accounted (accounted : Accounted s) (generation : Nat) (tp : TopicPartition) :
    Accounted (s.addLease generation tp) := by
  refine ⟨addLease_owned accounted.owned generation tp, quiet_ordered accounted (by simp), ?_⟩
  intro p l here
  obtain ⟨failure, aborted, cancelled, found⟩ := (current_iff p l).mp here
  simp only [State.addLease, OrderedMap.get_set] at found
  have started : ∀ call k o, .handlerStarted call k o ∈ (s.addLease generation tp).history →
      .handlerStarted call k o ∈ s.history := by
    intro call k o mem
    rcases List.mem_cons.mp mem with new | old
    · cases new
    · exact old
  split at found
  · -- the new lease has neither tasks nor deliveries
    cases found
    have closed : ∀ n, ¬ Open (s.addLease generation tp) s.nextLease n :=
      fun n busy => Nat.lt_irrefl _ (accounted.owned.tasks n _ busy.1).2.1
    refine ⟨fun n _ busy => absurd busy (closed n), fun n busy => absurd busy (closed n),
      fun _ _ => closed, ?_⟩
    intro call o mem
    exact absurd (accounted.owned.started call _ o (started call _ o mem)) (Nat.lt_irrefl _)
  · rename_i apart
    have old : l ≠ s.nextLease := Nat.ne_of_lt (accounted.owned.assigned p l found).1
    have current : s.current p l = true := by
      rw [current_iff]
      refine ⟨failure, ?_, cancelled, found⟩
      simpa only [State.addLease, Function.update_of_ne old] using aborted
    apply Unseen.position (s := s) _ (accounted.positions p l current)
    refine ⟨fun _ _ => rfl, fun _ _ _ _ => rfl, ?_, .inl ?_, id, fun _ => Iff.rfl, ?_, ?_⟩
    · intro paused
      simpa only [State.addLease, Function.update_of_ne apart] using paused
    · simp only [State.addLease, Function.update_of_ne apart]
    · exact fun call o => started call l o
    · intro o acknowledged
      exact acknowledged.imp (List.mem_cons_of_mem _) (List.mem_cons_of_mem _)

theorem addLeases_accounted (generation : Nat) (partitions : List TopicPartition)
    (accounted : Accounted s) : Accounted (partitions.foldl (State.addLease generation) s) := by
  induction partitions generalizing s with
  | nil => exact accounted
  | cons tp rest ih => exact ih (addLease_accounted accounted generation tp)

theorem ends_accounted (accounted : Accounted s) {n : Nat} (paused : Nat → Bool)
    (settled : (s.taskTable n).phase = .settled)
    (same : ∀ p l, s.current p l = true → (s.taskTable n).lease ≠ some l → paused p = s.paused p) :
    Accounted ((s.endTask n).setPaused paused) := by
  have owned : Owned ((s.endTask n).setPaused paused) :=
    { setTask_owned accounted.owned n .done (by simp) with }
  have others : ∀ m, m ≠ n → ((s.endTask n).setPaused paused).taskTable m = s.taskTable m :=
    fun m apart => Function.update_of_ne apart _ _
  have here : ((s.endTask n).setPaused paused).taskTable n = { s.taskTable n with phase := .done } :=
    Function.update_self ..
  refine ⟨owned, accounted.ordered, ?_⟩
  intro p l current
  have position := accounted.positions p l current
  by_cases held : (s.taskTable n).lease = some l
  · exact end_position position settled held others (by rw [here]) rfl rfl rfl (fun _ _ => id) (fun _ => id)
  · apply Unseen.position (s := s) _ position
    refine ⟨?_, fun _ _ _ _ => rfl, ?_, .inl rfl, id, fun _ => Iff.rfl, fun _ _ => id, fun _ => id⟩
    · intro m mine
      apply others m
      rintro rfl
      rw [here] at mine
      exact mine.elim held held
    · intro still
      exact (same p l current held).trans still

def State.delivery (s : State) := (s.taskTable, s.records, s.restart, s.history)

theorem plain_accounted (accounted : Accounted s) (owned : Owned t) (current : t.current = s.current)
    (delivery : t.delivery = s.delivery) (run : t.run = s.run)
    (paused : ∀ p, s.paused p = true → t.paused p = true)
    (stopping : s.stopping = true → t.stopping = true) : Accounted t := by
  simp only [State.delivery, Prod.mk.injEq] at delivery
  obtain ⟨tasks, records, restart, history⟩ := delivery
  apply unseen_accounted accounted owned (history ▸ accounted.ordered) current
  intro p l _
  exact {
    tasks := fun n _ => congrFun tasks n
    records := fun _ r _ _ => congrArg Record.message (congrFun records r)
    paused := paused p
    restart := .inl (congrFun restart p)
    stopping := stopping
    groups := fun values => by rw [Grouped, Grouped, run]
    started := fun _ _ mem => history ▸ mem
    acknowledged := fun _ said => history.symm ▸ said }

theorem loop_accounted (accounted : Accounted s) (owned : Owned t) (handedOut : s.HandedOut)
    (current : t.current = s.current) (delivery : t.delivery = s.delivery)
    (paused : t.paused = s.paused) (stopping : t.stopping = s.stopping)
    (between : ∀ call groups, t.run ≠ .dispatching call groups) : Accounted t := by
  simp only [State.delivery, Prod.mk.injEq] at delivery
  obtain ⟨tasks, records, restart, history⟩ := delivery
  apply unseen_accounted accounted owned (history ▸ accounted.ordered) current
  intro p l here
  have before : ∀ values, ¬ Grouped s p values := by
    rintro values ⟨call, groups, batch, mem⟩
    rcases handedOut call groups batch with empty | failed
    · rw [empty] at mem
      cases mem
    · rw [((current_iff p l).mp here).1] at failed
      cases failed
  have after : ∀ values, ¬ Grouped t p values :=
    fun _ ⟨call, groups, batch, _⟩ => between call groups batch
  exact {
    tasks := fun n _ => congrFun tasks n
    records := fun _ r _ _ => congrArg Record.message (congrFun records r)
    paused := fun still => (congrFun paused p).trans still
    restart := .inl (congrFun restart p)
    stopping := fun still => stopping.trans still
    groups := fun values => by simp [before values, after values]
    started := fun _ _ mem => history ▸ mem
    acknowledged := fun _ said => history.symm ▸ said }

theorem invalidate_ordered (ordered : Ordered s.history) : Ordered s.invalidate.history := by
  have quiet : ∀ e ∈ s.leased.map Event.revoked ++ [.invalidated], ∀ l n,
      e ≠ .stored l n ∧ e ≠ .commitCalled l n := by
    intro e mem
    rcases List.mem_append.mp mem with revoked | invalidated
    · obtain ⟨l, _, rfl⟩ := List.mem_map.mp revoked
      simp
    · rw [List.mem_singleton.mp invalidated]
      simp
  have longer := ordered_append quiet ordered
  rw [List.append_assoc] at longer
  exact longer

theorem rejected_owes (s : State) (p n : Nat) (o : Int) : Owes (s.setTask n .rejected) p n o := by
  simp [Owes, setTask_phase]

theorem acknowledged_owed (owned : Owned s) {p l n r : Nat} {o : Int}
    (handling : (s.taskTable n).phase = .handling r)
    (said : (s.records r).committed = true ∨ (s.records r).marked.isSome = true)
    (held : (s.taskTable n).lease = some l) (owes : Owes s p n o) : Acknowledged s.history l o := by
  rw [Owes, handling] at owes
  have same := Option.some.inj ((owned.handling n r handling).2.1.symm.trans held)
  rw [← owes, ← same]
  rcases said with committed | marked
  · exact .inr (owned.committed r committed)
  · exact .inl (owned.marked r marked)

theorem move_accounted (accounted : Accounted s) (move : Move orderly s t) : Accounted t := by
  have owned := move_owned accounted.owned move
  cases move with
  | invalidate =>
    apply closed_accounted owned (invalidate_ordered accounted.ordered)
    simp [State.current, State.invalidate]
  | rebalanced partitions =>
    refine closed_accounted owned ⟨by simp, invalidate_ordered accounted.ordered⟩ ?_
    simp [State.current, State.beginRestoration, State.invalidate]
  | fails | cancel =>
    apply closed_accounted owned accounted.ordered
    simp [State.current]
  | stop paused more => exact plain_accounted accounted owned rfl rfl rfl more (fun _ => rfl)
  | book | restorationEnds =>
    exact plain_accounted accounted owned rfl rfl rfl (fun _ => id) id
  | provided r answer =>
    cases answer <;>
      exact plain_accounted accounted owned rfl rfl rfl (fun _ => id) id
  | watermarks r offsets tp next rest chosen answer =>
    cases answer <;>
      exact plain_accounted accounted owned rfl rfl rfl (fun _ => id) id
  | turn run still handedOut =>
    apply loop_accounted accounted owned handedOut rfl rfl rfl rfl
    rcases still with rfl | rfl | ⟨_, rfl⟩ <;> simp
  | called handedOut =>
    have logged := log_accounted accounted (e := .consumeCalled s.nextCall s.generation) (by simp)
      (quiet_ordered accounted (by simp))
    exact loop_accounted logged owned handedOut rfl rfl rfl rfl
      (by simp [State.callConsume])
  | dropped call messages fetching stopping => exact dropped_accounted accounted fetching stopping owned
  | received call messages fetching kept opened => exact received_accounted accounted fetching kept opened
  | launch call partition messages groups batch => exact launch_accounted accounted batch
  | handler n lease message rest ready left held => exact handler_accounted accounted ready left held
  | mark r metadata => exact record_accounted accounted owned rfl (by simp) (by simp)
  | committed c =>
    have said := record_accounted accounted (r := (s.commitTable c).record)
      (R := { s.records (s.commitTable c).record with committed := true })
      (e := .committed _ _) { owned with } rfl (by simp) (by simp)
    exact plain_accounted said owned rfl rfl rfl (fun _ => id) id
  | commit r metadata throws own current =>
    obtain ⟨n, handling⟩ := own
    have logged := log_accounted accounted (by simp) (commitCalled_ordered accounted handling current)
    exact plain_accounted logged owned rfl rfl rfl (fun _ => id) id
  | sought n r handling current =>
    have logged := log_accounted accounted (e := .sought (s.records r).lease (s.records r).message.offset)
      (by simp) (quiet_ordered accounted (by simp))
    have moved := restartAt_accounted logged (s.records r).message.offset handling current
    refine phase_accounted moved n .seeking (by simp [State.log, State.restartAt, handling]) (by simp)
      (by simp) ?_
    intro p l o here held owes
    have same : (s.records r).message.offset = o := by
      simpa only [Owes, State.restartAt, State.log, handling] using owes
    have own : (s.records r).message.partition = p :=
      (accounted.owned.handling n r handling).2.2.trans (accounted.partition here held)
    subst same own
    simp [Owes, State.restartAt, State.log, State.setTask]
  | soughtInVain n r handling current =>
    have logged := log_accounted accounted (e := .sought (s.records r).lease (s.records r).message.offset)
      (by simp) (quiet_ordered accounted (by simp))
    refine phase_accounted logged n .rejected (by simp [State.log, handling]) (by simp) (by simp) ?_
    intro p l o _ _ _
    exact .inr (rejected_owes ..)
  | stored n r phase handling current marked next =>
    have logged := log_accounted accounted (by simp) (stored_ordered accounted handling current marked)
    refine phase_accounted logged n phase (by simp [State.log, handling]) ?_ ?_ ?_
    · rcases next with rfl | rfl <;> simp
    · rcases next with rfl | rfl <;> simp
    · intro p l o _ held owes
      exact .inl (acknowledged_owed logged.owned handling (.inr marked) held owes)
  | acknowledged n r phase handling done next =>
    refine phase_accounted accounted n phase (by simp [handling]) ?_ ?_ ?_
    · rcases next with rfl | ⟨_, rfl⟩ <;> simp
    · rcases next with rfl | ⟨_, rfl⟩ <;> simp
    · intro p l o _ held owes
      exact .inl (acknowledged_owed accounted.owned handling done held owes)
  | awaited n c committing =>
    refine phase_accounted accounted n .ready (by simp [committing]) (by simp) (by simp) ?_
    intro p l o _ _ owes
    simp [Owes, committing] at owes
  | finished n ready left =>
    refine phase_accounted accounted n .settled (by simp [ready]) (by simp) (by simp) ?_
    intro p l o _ _ owes
    simp [Owes, ready, left] at owes
  | soughtBack n seeking =>
    refine phase_accounted accounted n .settled (by simp [seeking]) (by simp) (by simp) ?_
    intro p l o _ _ owes
    right
    rw [Owes, seeking] at owes
    rw [Owes, setTask_phase, if_pos rfl]
    exact owes
  | overtakenReady n lease message rest ready left held lost =>
    refine phase_accounted accounted n .settled (by simp [ready]) (by simp) (by simp) ?_
    intro p l o current same
    have own := accounted.owned.rest n message (by simp [left])
    rw [own, accounted.partition current same, Option.some.inj (held.symm.trans same), current] at lost
    cases lost
  | overtakenHandling n r handling lost =>
    refine phase_accounted accounted n .settled (by simp [handling]) (by simp) (by simp) ?_
    intro p l o current held
    obtain ⟨_, same, own⟩ := accounted.owned.handling n r handling
    rw [own, accounted.partition current held, Option.some.inj (same.symm.trans held), current] at lost
    cases lost
  | overtakenRejected n rejected lost =>
    refine phase_accounted accounted n .settled (by simp [rejected]) (by simp) (by simp) ?_
    intro p l o current held
    have gone := lost l held
    rw [accounted.partition current held, current] at gone
    cases gone
  | rejects n active =>
    refine phase_accounted accounted n .rejected active.2 (by simp) (by simp) ?_
    intro p l o _ _ _
    exact .inr (rejected_owes ..)
  | ends n settled => exact ends_accounted accounted s.paused settled (fun _ _ _ _ => rfl)
  | resumes n lease paused settled held current same =>
    have logged := log_accounted accounted (e := .resumed lease) (by simp) (quiet_ordered accounted (by simp))
    refine ends_accounted logged paused settled ?_
    intro p l other unheld
    apply same p
    rintro rfl
    have first := ((current_iff _ _).mp current).2.2.2
    have second := ((current_iff (s := s) _ _).mp other).2.2.2
    rw [first] at second
    exact unheld (held.trans second)
  | assignThrew r chosen commits =>
    have logged := log_accounted accounted (e := .assignCalled (s.restorations r).generation chosen true)
      (by simp) (quiet_ordered accounted (by simp))
    exact plain_accounted logged owned rfl rfl rfl (fun _ => id) id
  | assigned r chosen commits =>
    have logged := log_accounted accounted (e := .assignCalled (s.restorations r).generation chosen false)
      (by simp) (quiet_ordered accounted (by simp))
    have leases := addLeases_accounted (s.restorations r).generation (s.restorations r).partitions logged
    exact plain_accounted leases owned rfl rfl rfl (fun _ => id) id

theorem initial_accounted (topic : String) (restoring : Bool) : Accounted (initial topic restoring) where
  owned := initial_owned topic restoring
  ordered := trivial
  positions := by
    intro p l current
    have found := ((current_iff p l).mp current).2.2.2
    cases found

theorem reaches_accounted (reach : orderly.Reaches s) : Accounted s := by
  obtain ⟨topic, restoring, run⟩ := reach
  exact steps_moves Accounted (fun _ _ held move => move_accounted held move) run
    (initial_accounted topic restoring)

/- When the offset after a message is stored or committed under a lease, every
   message delivered under it up to that offset has been marked or committed,
   the last of them perhaps by this very commit. -/
theorem stored_after_acknowledged (reach : orderly.Reaches s) :
    ∀ later e earlier l n, s.history = later ++ e :: earlier →
      (e = .stored l n ∨ e = .commitCalled l n) →
      ∀ call o, .handlerStarted call l o ∈ earlier → o ≤ n →
        Acknowledged earlier l o ∨ e = .commitCalled l o := by
  intro later e earlier l n split which
  have ordered := (reaches_accounted reach).ordered
  rw [split] at ordered
  exact (ordered_split ordered).1 l n which

end Invariant

/-- The promise, checked on an action. -/
def keepsOrder (s : State) : Action → Bool
  | .mark r _ _ => (List.range s.nextTask).any fun n => decide ((s.taskTable n).phase = .handling r)
  | .commit r _ _ => (List.range s.nextTask).any fun n => decide ((s.taskTable n).phase = .handling r)
  | .fetched (some messages) => messages.all fun m =>
    let first := messages.find? fun other => decide (other.topic = s.topic ∧ other.partition = m.partition)
    !s.paused m.partition &&
      decide (s.restart m.partition = none ∨ s.restart m.partition = first.map Message.offset)
  | _ => true

theorem keepsOrder_keeps (s : State) (a : Action) (passed : keepsOrder s a = true) : orderly.Keeps s a := by
  unfold Promise.Keeps
  split
  · obtain ⟨n, _, handling⟩ := List.any_eq_true.mp passed
    exact ⟨n, of_decide_eq_true handling⟩
  · obtain ⟨n, _, handling⟩ := List.any_eq_true.mp passed
    exact ⟨n, of_decide_eq_true handling⟩
  · rename_i messages
    intro call _ p m found
    have own : m.topic = s.topic ∧ m.partition = p := by simpa using List.find?_some found
    have checked := List.all_eq_true.mp passed m (List.mem_of_find?_eq_some found)
    simp only [own.2, found, Bool.and_eq_true, Bool.not_eq_true', Option.map_some,
      decide_eq_true_eq] at checked
    refine ⟨checked.1, ?_⟩
    intro offset restart
    rw [restart] at checked
    have same : offset = m.offset := by simpa using checked.2
    exact same.symm
  · trivial

/-- Of two messages the first is marked and stored, the second left; the client
    is sent back to it, and the next handler commits it. -/
def leftAndRedelivered : List Action :=
  [.rebalance .assign [⟨"topic", 0⟩] false, .provided 0 (some none), .assign 0 false, .run,
    .poll false, .fetched (some [⟨"topic", 0, 5⟩, ⟨"topic", 0, 6⟩]), .dispatch false, .mark 0 0 "",
    .dispatch false, .poll false, .handlerSettles 0 false false, .handlerSettles 0 false false,
    .seekSettles 0 false, .taskEnds 0 false, .fetched (some [⟨"topic", 0, 6⟩]), .dispatch false,
    .commit 2 2 false]

theorem stored_after_acknowledged_redelivered : ∃ s, orderly.Reaches s ∧ ∃ earlier,
    s.history = .commitCalled 0 6 :: earlier ∧ .handlerStarted 0 0 5 ∈ earlier ∧
    .sought 0 6 ∈ earlier ∧ .handlerStarted 1 0 6 ∈ earlier ∧ Acknowledged earlier 0 5 := by
  obtain ⟨s, run, earlier, split, first, sought, second⟩ : ∃ s,
      execWhere step keepsOrder (initial "topic" false) leftAndRedelivered = some s ∧ ∃ earlier,
      s.history = .commitCalled 0 6 :: earlier ∧ .handlerStarted 0 0 5 ∈ earlier ∧
      .sought 0 6 ∈ earlier ∧ .handlerStarted 1 0 6 ∈ earlier :=
    ⟨_, rfl, _, rfl, by decide, by decide, by decide⟩
  have reach : orderly.Reaches s := ⟨"topic", false, execWhere_steps keepsOrder_keeps run⟩
  have said := stored_after_acknowledged reach [] _ earlier 0 6 split (.inr rfl) 0 5 first (by decide)
  exact ⟨s, reach, earlier, split, first, sought, second, said.resolve_right (by simp)⟩

end Kafka
