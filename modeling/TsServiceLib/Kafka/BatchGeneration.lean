import TsServiceLib.Kafka.LeaseLog

/-!
Batches and rebalances. A batch is handed out under the leases that are there
when it arrives, and nothing compares the generation of the call that fetched
it. A batch can therefore cross a rebalance that was completed while its call
was outstanding. It cannot in a run where every batch that arrives in another
generation than its call was made in has no message of an assigned partition.
-/
namespace Kafka
open Transitions Numbers OrderedMaps

/-- A message of a call made before an invalidation was handed to a handler
    under a lease created after it. -/
def CrossesRebalance (history : List Event) : Prop :=
  ∃ call lease offset partition generation issued, ∃ later between before earlier,
    history = later ++ .handlerStarted call lease offset :: between ++
      .leaseCreated lease partition generation :: before ++ .invalidated :: earlier ∧
    .consumeCalled call issued ∈ earlier

/-- A consume call is outstanding while its partition is revoked and assigned
    again; the messages it then brings are delivered under the new lease. -/
def reassignedInFlight : List Action :=
  [.rebalance .assign [⟨"topic", 0⟩] false, .provided 0 (some none), .assign 0 false, .run,
    .poll false, .rebalance .revoke [⟨"topic", 0⟩] false, .rebalance .assign [⟨"topic", 0⟩] false,
    .provided 1 (some none), .assign 1 false, .fetched (some [⟨"topic", 0, 5⟩]), .dispatch false]

theorem batch_crosses_rebalance : ∃ s, Reachable s ∧ CrossesRebalance s.history := by
  obtain ⟨s, run, split⟩ : ∃ s, exec step (initial "topic" false) reassignedInFlight = some s ∧
      s.history = [] ++ .handlerStarted 0 1 5 :: [] ++ .leaseCreated 1 0 3 ::
        [.assignCalled 3 [⟨"topic", 0, none⟩] false, .rebalanced 3 [⟨"topic", 0⟩]] ++ .invalidated ::
        [.revoked 0, .invalidated, .consumeCalled 0 1, .leaseCreated 0 0 1,
          .assignCalled 1 [⟨"topic", 0, none⟩] false, .rebalanced 1 [⟨"topic", 0⟩], .invalidated] :=
    ⟨_, rfl, rfl⟩
  exact ⟨s, exec_reachable run, 0, 1, 5, 0, 3, 1, _, _, _, _, split, by decide⟩

/-- A batch arrives while the source stops or in the generation its call was made
    in, or has no message of an assigned partition. -/
def sameGeneration : Promise where
  own _ _ := True
  batch s call messages :=
    s.stopping = true ∨ (∀ issued, .consumeCalled call issued ∈ s.history → issued = s.generation) ∨
      s.assigned messages = []
  handling _ _ _ _ := trivial

def NotNewer (s : State) (call lease : Nat) : Prop :=
  call < s.nextCall ∧ lease < s.nextLease ∧
    ∀ issued, .consumeCalled call issued ∈ s.history → (s.leases lease).generation ≤ issued

/-- What is known of calls and leases: each is numbered once, leases in use are
    of the current generation, and no delivery uses a lease newer than its call. -/
structure Dated (s : State) : Prop where
  logged : Logged s
  calls : ∀ call issued, .consumeCalled call issued ∈ s.history → call < s.nextCall
  created : ∀ l p g, .leaseCreated l p g ∈ s.history → l < s.nextLease ∧ (s.leases l).generation = g
  assigned : ∀ p l, s.assignments.get p = some l → (s.leases l).generation = s.generation
  fetching : ∀ call, s.run = .fetching call → call < s.nextCall
  dispatching : ∀ call groups, s.run = .dispatching call groups → ∀ p messages,
    (p, messages) ∈ groups → ∀ l, s.assignments.get p = some l → NotNewer s call l
  tasks : ∀ t l, (s.taskTable t).lease = some l → NotNewer s (s.taskTable t).call l
  started : ∀ call l offset, .handlerStarted call l offset ∈ s.history → NotNewer s call l

section Runs
variable {s : State}

theorem NotNewer.mono {t : State} {call lease : Nat} (held : NotNewer s call lease)
    (calls : s.nextCall ≤ t.nextCall) (leases : s.nextLease ≤ t.nextLease)
    (same : (t.leases lease).generation = (s.leases lease).generation)
    (events : ∀ issued, .consumeCalled call issued ∈ t.history →
      .consumeCalled call issued ∈ s.history) : NotNewer t call lease := by
  obtain ⟨call_lt, lease_lt, older⟩ := held
  refine ⟨by omega, by omega, ?_⟩
  intro issued mem
  rw [same]
  exact older issued (events issued mem)

/-- A move that leaves calls, leases and the run alone and only adds events of
    other kinds, or handlers of deliveries that are known. -/
theorem dated_of_same {t : State} (dated : Dated s) (logged : Logged t)
    (nextCall : t.nextCall = s.nextCall) (nextLease : t.nextLease = s.nextLease)
    (leases : ∀ l, (t.leases l).generation = (s.leases l).generation)
    (generation : ∀ p l, t.assignments.get p = some l → s.assignments.get p = some l ∧
      t.generation = s.generation)
    (run : t.run = s.run ∨ (∀ call, t.run ≠ .fetching call) ∧ ∀ call groups, t.run ≠ .dispatching call groups)
    (tasks : ∀ n l, (t.taskTable n).lease = some l →
      (s.taskTable n).lease = some l ∧ (t.taskTable n).call = (s.taskTable n).call)
    (history : ∀ e ∈ t.history, e ∈ s.history ∨
      ((∀ c g, e ≠ .consumeCalled c g) ∧ (∀ l p g, e ≠ .leaseCreated l p g) ∧
        ∀ c l o, e = .handlerStarted c l o → NotNewer s c l)) : Dated t := by
  have calls : ∀ c g, .consumeCalled c g ∈ t.history → .consumeCalled c g ∈ s.history := by
    intro c g mem
    rcases history _ mem with old | ⟨new, _⟩
    · exact old
    · exact absurd rfl (new c g)
  have transfer : ∀ {c l : Nat}, NotNewer s c l → NotNewer t c l := by
    intro c l held
    exact held.mono (Nat.le_of_eq nextCall.symm) (Nat.le_of_eq nextLease.symm) (leases l) (calls c)
  refine ⟨logged, ?_, ?_, ?_, ?_, ?_, ?_, ?_⟩
  · intro c g mem
    rw [nextCall]
    exact dated.calls c g (calls c g mem)
  · intro l p g mem
    rcases history _ mem with old | ⟨_, new, _⟩
    · rw [nextLease, leases]
      exact dated.created l p g old
    · exact absurd rfl (new l p g)
  · intro p l found
    obtain ⟨old, same⟩ := generation p l found
    rw [leases, same]
    exact dated.assigned p l old
  · intro call fetching
    rcases run with same | other
    · rw [nextCall]
      exact dated.fetching call (same ▸ fetching)
    · exact absurd fetching (other.1 call)
  · intro call groups dispatching p messages mem l found
    rcases run with same | other
    · exact transfer (dated.dispatching call groups (same ▸ dispatching) p messages mem l
        (generation p l found).1)
    · exact absurd dispatching (other.2 call groups)
  · intro n l held
    obtain ⟨old, same⟩ := tasks n l held
    rw [same]
    exact transfer (dated.tasks n l old)
  · intro c l o mem
    rcases history _ mem with old | ⟨_, _, new⟩
    · exact transfer (dated.started c l o old)
    · exact transfer (new c l o rfl)

/-- An event of which nothing is to be known. -/
def Plain (e : Event) : Prop :=
  (∀ c g, e ≠ .consumeCalled c g) ∧ (∀ l p g, e ≠ .leaseCreated l p g) ∧
    ∀ c l o, e ≠ .handlerStarted c l o

/-- What dates a call or a lease. -/
def State.dates (s : State) := (s.nextCall, s.nextLease, s.leases, s.assignments, s.generation)

/-- The frame of most moves: the phase of a task, the promises and bookkeeping,
    and perhaps one plain event. -/
theorem dated_frame {t : State} (dated : Dated s) (logged : Logged t) (core : t.dates = s.dates)
    (run : t.run = s.run ∨ (∀ call, t.run ≠ .fetching call) ∧ ∀ call groups, t.run ≠ .dispatching call groups)
    (tasks : ∀ n, (t.taskTable n).lease = (s.taskTable n).lease ∧
      (t.taskTable n).call = (s.taskTable n).call)
    (history : t.history = s.history ∨ ∃ e, Plain e ∧ t.history = e :: s.history) : Dated t := by
  simp only [State.dates, Prod.mk.injEq] at core
  obtain ⟨nextCall, nextLease, leases, assignments, generation⟩ := core
  apply dated_of_same dated logged nextCall nextLease
  · intro l
    rw [leases]
  · intro p l found
    rw [assignments] at found
    exact ⟨found, generation⟩
  · exact run
  · intro n l held
    rw [(tasks n).1] at held
    exact ⟨held, (tasks n).2⟩
  · intro e mem
    rcases history with same | ⟨new, ⟨first, second, third⟩, grown⟩
    · exact .inl (same ▸ mem)
    · rw [grown] at mem
      rcases List.mem_cons.mp mem with rfl | old
      · exact .inr ⟨first, second, fun c l o eq => absurd eq (third c l o)⟩
      · exact .inl old

theorem invalidate_dated (dated : Dated s) : Dated s.invalidate := by
  apply dated_of_same dated (invalidate_logged dated.logged) rfl rfl
  · intro l
    simp only [State.invalidate]
    split <;> rfl
  · intro p l found
    simp [State.invalidate] at found
  · exact .inl rfl
  · exact fun n l held => ⟨held, rfl⟩
  · intro e mem
    simp only [State.invalidate, List.mem_append, List.mem_map, List.mem_cons] at mem
    rcases mem with ⟨l, _, rfl⟩ | rfl | old
    · right
      simp
    · right
      simp
    · exact .inl old

theorem called_dated (dated : Dated s) (logged : Logged s.callConsume) : Dated s.callConsume := by
  have transfer : ∀ {c l : Nat}, NotNewer s c l → NotNewer s.callConsume c l := by
    intro c l held
    apply NotNewer.mono (t := s.callConsume) held (Nat.le_succ _) (Nat.le_refl _) rfl
    intro issued mem
    rcases List.mem_cons.mp mem with new | old
    · cases new
      exact absurd held.1 (Nat.lt_irrefl _)
    · exact old
  refine ⟨logged, ?_, ?_, dated.assigned, ?_, ?_, ?_, ?_⟩
  · intro c g mem
    rcases List.mem_cons.mp mem with new | old
    · cases new
      exact Nat.lt_succ_self _
    · exact Nat.lt_succ_of_lt (dated.calls c g old)
  · intro l p g mem
    rcases List.mem_cons.mp mem with new | old
    · cases new
    · exact dated.created l p g old
  · intro call fetching
    cases fetching
    exact Nat.lt_succ_self _
  · intro call groups dispatching
    cases dispatching
  · intro n l held
    exact transfer (dated.tasks n l held)
  · intro c l o mem
    rcases List.mem_cons.mp mem with new | old
    · cases new
    · exact transfer (dated.started c l o old)

theorem addLease_dated (dated : Dated s) (tp : TopicPartition)
    (between : ∀ call groups, s.run ≠ .dispatching call groups) :
    Dated (s.addLease s.generation tp) := by
  have transfer : ∀ {c l : Nat}, NotNewer s c l → NotNewer (s.addLease s.generation tp) c l := by
    intro c l held
    have other : l ≠ s.nextLease := Nat.ne_of_lt held.2.1
    apply NotNewer.mono (t := s.addLease s.generation tp) held (Nat.le_refl _) (Nat.le_succ _)
    · simp only [State.addLease, Function.update_of_ne other]
    · intro issued mem
      rcases List.mem_cons.mp mem with new | old
      · cases new
      · exact old
  refine ⟨addLease_logged dated.logged tp, ?_, ?_, ?_, dated.fetching, ?_, ?_, ?_⟩
  · intro c g mem
    rcases List.mem_cons.mp mem with new | old
    · cases new
    · exact dated.calls c g old
  · intro l p g mem
    rcases List.mem_cons.mp mem with new | old
    · cases new
      simp [State.addLease]
    · obtain ⟨known, same⟩ := dated.created l p g old
      have other : l ≠ s.nextLease := Nat.ne_of_lt known
      simp only [State.addLease, Function.update_of_ne other]
      exact ⟨Nat.lt_succ_of_lt known, same⟩
  · intro p l found
    simp only [State.addLease, OrderedMap.get_set] at found ⊢
    split at found
    · cases found
      simp
    · have other : l ≠ s.nextLease := Nat.ne_of_lt (dated.logged.assigned p l found)
      rw [Function.update_of_ne other]
      exact dated.assigned p l found
  · intro call groups dispatching
    exact absurd dispatching (between call groups)
  · intro n l held
    exact transfer (dated.tasks n l held)
  · intro c l o mem
    rcases List.mem_cons.mp mem with new | old
    · cases new
    · exact transfer (dated.started c l o old)

theorem addLeases_dated {generation : Nat} (newest : generation = s.generation)
    (partitions : List TopicPartition) (dated : Dated s)
    (between : ∀ call groups, s.run ≠ .dispatching call groups) :
    Dated (partitions.foldl (State.addLease generation) s) := by
  induction partitions generalizing s with
  | nil => exact dated
  | cons tp rest ih =>
    subst newest
    exact ih rfl (addLease_dated dated tp between) between

theorem received_dated {call : Nat} {messages : List Message} (dated : Dated s)
    (fetching : s.run = .fetching call) (kept : sameGeneration.batch s call messages) (opened : s.stopping = false)
    (logged : Logged { s with
      restart := s.restartAfter messages
      run := .dispatching call (State.groupByPartition (s.assigned messages)).entries }) :
    Dated { s with
      restart := s.restartAfter messages
      run := .dispatching call (State.groupByPartition (s.assigned messages)).entries } := by
  refine ⟨logged, dated.calls, dated.created, dated.assigned, ?_, ?_, dated.tasks, dated.started⟩
  · intro other wrong
    cases wrong
  · intro other groups here p values mem l found
    cases here
    refine ⟨dated.fetching call fetching, dated.logged.assigned p l found, ?_⟩
    intro issued called
    rcases kept with stopping | same | none
    · rw [opened] at stopping
      cases stopping
    · rw [same issued called]
      exact Nat.le_of_eq (dated.assigned p l found)
    · simp only [none] at mem
      cases mem

theorem launch_dated {call partition : Nat} {messages : List Message}
    {groups : List (Nat × List Message)} (dated : Dated s)
    (batch : s.run = .dispatching call ((partition, messages) :: groups))
    (logged : Logged (s.launch call partition messages groups)) :
    Dated (s.launch call partition messages groups) := by
  have known := dated.dispatching call _ batch
  refine ⟨logged, dated.calls, dated.created, dated.assigned, ?_, ?_, ?_, dated.started⟩
  · intro other wrong
    cases wrong
  · intro other rest here p values mem l found
    cases here
    exact known p values (List.mem_cons_of_mem _ mem) l found
  · intro n l held
    simp only [State.launch, Function.update_apply] at held ⊢
    split at held
    · rename_i new
      subst new
      simp only [if_true]
      exact known partition messages List.mem_cons_self l held
    · rename_i old
      simp only [old, if_false]
      exact dated.tasks n l held

theorem handler_dated {t lease : Nat} {message : Message} {rest : List Message} (dated : Dated s)
    (held : (s.taskTable t).lease = some lease) (logged : Logged (s.startHandler t lease message rest)) :
    Dated (s.startHandler t lease message rest) := by
  apply dated_of_same dated logged rfl rfl (fun _ => rfl) (fun p l found => ⟨found, rfl⟩) (.inl rfl)
  · intro n l
    rcases eq_or_ne n t with rfl | other
    · simp [State.startHandler]
    · simp [State.startHandler, other]
  · intro e mem
    rcases List.mem_cons.mp mem with rfl | old
    · right
      refine ⟨by simp, by simp, ?_⟩
      intro c l o same
      cases same
      exact dated.tasks t lease held
    · exact .inl old

theorem move_dated {t : State} (dated : Dated s) (move : Move sameGeneration s t) : Dated t := by
  have logged := move_logged dated.logged move
  have quiet : ∀ {e : Event}, Plain e → ∀ {history : List Event}, history = e :: s.history →
      history = s.history ∨ ∃ e, Plain e ∧ history = e :: s.history :=
    fun plain _ grown => .inr ⟨_, plain, grown⟩
  cases move with
  | invalidate => exact invalidate_dated dated
  | called => exact called_dated dated logged
  | received call messages fetching kept opened => exact received_dated dated fetching kept opened logged
  | launch call partition messages groups batch => exact launch_dated dated batch logged
  | handler t lease message rest ready left held => exact handler_dated dated held logged
  | assigned r chosen commits settling newest between =>
    have generation := ((overtaken_iff _).mp newest).1
    have entered : Dated (s.log (.assignCalled (s.restorations r).generation chosen false)) := by
      have named := log_logged dated.logged
        (e := .assignCalled (s.restorations r).generation chosen false) (by simp) (by simp)
        (fun _ uses => by cases uses) (fun g stamp => by cases stamp; exact generation)
      exact dated_frame dated named rfl (.inl rfl) (fun _ => ⟨rfl, rfl⟩)
        (quiet (by simp [Plain]) rfl)
    have leases := addLeases_dated (s := s.log _) generation (s.restorations r).partitions entered between
    exact { leases with logged }
  | turn run still =>
    apply dated_frame dated logged rfl (.inr _) (fun _ => ⟨rfl, rfl⟩) (.inl rfl)
    rcases still with rfl | rfl | ⟨_, rfl⟩ <;> simp
  | dropped =>
    exact dated_frame dated logged rfl (.inr (by simp)) (fun _ => ⟨rfl, rfl⟩)
      (.inl rfl)
  | fails | cancel | stop | book | restorationEnds =>
    exact dated_frame dated logged rfl (.inl rfl) (fun _ => ⟨rfl, rfl⟩) (.inl rfl)
  | provided r answer =>
    cases answer <;>
      exact dated_frame dated logged rfl (.inl rfl) (fun _ => ⟨rfl, rfl⟩) (.inl rfl)
  | watermarks r offsets tp next rest chosen answer =>
    cases answer <;>
      exact dated_frame dated logged rfl (.inl rfl) (fun _ => ⟨rfl, rfl⟩) (.inl rfl)
  | rebalanced partitions =>
    exact dated_frame (invalidate_dated dated) logged rfl (.inl rfl)
      (fun _ => ⟨rfl, rfl⟩) (.inr ⟨.rebalanced _ partitions, by simp [Plain], rfl⟩)
  | mark | commit | committed | assignThrew =>
    exact dated_frame dated logged rfl (.inl rfl) (fun _ => ⟨rfl, rfl⟩)
      (quiet (by simp [Plain]) rfl)
  | sought | soughtInVain | stored =>
    exact dated_frame dated logged rfl (.inl rfl)
      (fun _ => ⟨setTask_lease .., setTask_call ..⟩) (quiet (by simp [Plain]) rfl)
  | acknowledged | awaited | finished | soughtBack | overtakenReady | overtakenHandling |
    overtakenRejected | rejects =>
    exact dated_frame dated logged rfl (.inl rfl)
      (fun _ => ⟨setTask_lease .., setTask_call ..⟩) (.inl rfl)
  | ends =>
    exact dated_frame dated logged rfl (.inl rfl)
      (fun _ => ⟨setTask_lease _ _ _ .done, setTask_call _ _ _ .done⟩) (.inl rfl)
  | resumes =>
    exact dated_frame dated logged rfl (.inl rfl)
      (fun _ => ⟨setTask_lease _ _ _ .done, setTask_call _ _ _ .done⟩) (quiet (by simp [Plain]) rfl)

theorem initial_dated (topic : String) (restoring : Bool) : Dated (initial topic restoring) where
  logged := initial_logged topic restoring
  calls := by simp [initial]
  created := by simp [initial]
  assigned := by
    intro p l found
    cases found
  fetching := by simp [initial]
  dispatching := by simp [initial]
  tasks := by simp [initial]
  started := by simp [initial]

theorem reaches_dated (reach : sameGeneration.Reaches s) : Dated s := by
  obtain ⟨topic, restoring, run⟩ := reach
  exact steps_moves Dated (fun _ _ held move => move_dated held move) run (initial_dated topic restoring)

/- No batch crosses a rebalance in a run that keeps batches to their generation. -/
theorem batch_stays_in_generation (reach : sameGeneration.Reaches s) : ¬ CrossesRebalance s.history := by
  rintro ⟨call, lease, offset, partition, generation, issued, later, between, before, earlier, split,
    called⟩
  have dated := reaches_dated reach
  have stamps : ∀ (later : List Event) (e : Event) (earlier : List Event) (g : Nat),
      s.history = later ++ e :: earlier → e.stamp = some g → g = earlier.count .invalidated := by
    intro later e earlier g parts stamp
    have lawful := dated.logged.lawful
    rw [parts] at lawful
    exact (lawful_split lawful).2.1 g stamp
  have started := dated.started call lease offset (by rw [split]; simp)
  have created := dated.created lease partition generation (by rw [split]; simp)
  have older := started.2.2 issued (by rw [split]; simp [called])
  have lease_stamp : generation = (before ++ .invalidated :: earlier).count .invalidated := by
    apply stamps (later ++ .handlerStarted call lease offset :: between)
      (.leaseCreated lease partition generation) _ _ _ rfl
    rw [split]
    simp only [List.append_assoc, List.cons_append]
  obtain ⟨newer, oldest, parts⟩ := List.append_of_mem called
  have call_stamp : issued = oldest.count .invalidated := by
    apply stamps (later ++ .handlerStarted call lease offset :: between ++
      .leaseCreated lease partition generation :: before ++ .invalidated :: newer)
      (.consumeCalled call issued) _ _ _ rfl
    rw [split, parts]
    simp only [List.append_assoc, List.cons_append]
  rw [parts, List.count_append, List.count_cons_self, List.count_append, List.count_cons_of_ne
    (by simp)] at lease_stamp
  rw [created.2] at older
  omega

end Runs

/-- Only the arrival of a batch is promised anything of. -/
theorem keeps_sameGeneration {actions : List Action}
    (others : ∀ answer, .fetched (some answer) ∉ actions) (s : State) :
    ∀ a ∈ actions, sameGeneration.Keeps s a := by
  intro a mem
  unfold Promise.Keeps
  split
  · trivial
  · trivial
  · exact absurd mem (others _)
  · trivial

/-- The call that is outstanding over the rebalance brings nothing, and the
    message is brought by the next one. -/
theorem batch_stays_in_generation_late : ∃ s, sameGeneration.Reaches s ∧
    .consumeCalled 0 1 ∈ s.history ∧ .handlerStarted 1 1 5 ∈ s.history ∧ ¬ CrossesRebalance s.history := by
  obtain ⟨s, t, u, v, w, first, empty, second, batch, third, called, generation, history, old, started⟩ :
      ∃ s t u v w, exec step (initial "topic" false) (reassignedInFlight.take 9) = some s ∧
        step s (.fetched (some [])) = some t ∧
        exec step t [.dispatch false, .poll false] = some u ∧
        step u (.fetched (some [⟨"topic", 0, 5⟩])) = some v ∧
        exec step v [.dispatch false] = some w ∧
        u.run = .fetching 1 ∧ u.generation = 3 ∧
        u.history = [.consumeCalled 1 3, .leaseCreated 1 0 3, .assignCalled 3 [⟨"topic", 0, none⟩] false,
          .rebalanced 3 [⟨"topic", 0⟩], .invalidated, .revoked 0, .invalidated, .consumeCalled 0 1,
          .leaseCreated 0 0 1, .assignCalled 1 [⟨"topic", 0, none⟩] false, .rebalanced 1 [⟨"topic", 0⟩],
          .invalidated] ∧
        .consumeCalled 0 1 ∈ w.history ∧ .handlerStarted 1 1 5 ∈ w.history :=
    ⟨_, _, _, _, _, rfl, rfl, rfl, rfl, rfl, rfl, rfl, rfl, by decide, by decide⟩
  have reach : sameGeneration.Reaches w := by
    refine ⟨"topic", false, ?_⟩
    have before := exec_steps_of (keeps_sameGeneration (by simp [reassignedInFlight])) first
    have between := exec_steps_of (keeps_sameGeneration (by simp)) second
    have after := exec_steps_of (keeps_sameGeneration (by simp)) third
    have arrived : sameGeneration.Keeps u (.fetched (some [⟨"topic", 0, 5⟩])) := by
      intro call fetching
      rw [called] at fetching
      cases fetching
      refine .inr (.inl ?_)
      intro issued mem
      rw [history] at mem
      simpa [generation] using mem
    have nothing : sameGeneration.Keeps s (.fetched (some [])) := fun _ _ => .inr (.inr rfl)
    exact steps_trans (.tail (steps_trans (.tail before nothing empty) between) arrived batch) after
  exact ⟨w, reach, old, started, batch_stays_in_generation reach⟩

end Kafka
