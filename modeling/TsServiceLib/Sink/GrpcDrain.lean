import TsServiceLib.Sink.SessionOwnership

/-!
What a stop of the sink waits for. It takes the tasks that are there when it
begins, so it waits for everything exactly as long as nothing begins to be tracked
while it waits.
-/
namespace GrpcSessions
open Transitions Function

/-- The step has the sink track an operation. -/
def Tracks (s : State) : Action → Prop
  | .consume k _ => s.pending k = none
  | .begins _ opens => opens = true
  | _ => False

/-- Nothing begins to be tracked while a stop waits. -/
def Undisturbed (s : State) (a : Action) : Prop := Tracks s a → ∀ id snapshot, s.stops id ≠ .draining snapshot

structure Drain (s : State) : Prop where
  opening : ∀ i, (s.slots i).creation ≠ .settled → .opening i ∈ s.tasks
  finishing : ∀ i, (s.slots i).session = true → (s.slots i).phase ≠ .finished → .finishing i ∈ s.tasks
  creating : ∀ i, (s.slots i).phase.creating = true → (s.slots i).creation = .running
  found : ∀ {id snapshot}, s.stops id = .draining snapshot → s.tasks ⊆ snapshot

/-- The operation that a slot stands for is no further from its end. -/
structure Slot.Tracked (x y : Slot) : Prop where
  opening : y.creation ≠ .settled → x.creation ≠ .settled
  finishing : y.session = true → y.phase ≠ .finished → x.session = true ∧ x.phase ≠ .finished
  creating : y.phase.creating = true → x.phase.creating = true ∧ y.creation = x.creation

section Slots
variable {x y : Slot}

theorem tracked_refl (x : Slot) : x.Tracked x :=
  ⟨id, fun session alive => ⟨session, alive⟩, fun creating => ⟨creating, rfl⟩⟩

theorem tracked_follows (follows : x.Follows y) (same : x.SameRequest y) : x.Tracked y := by
  constructor
  · rw [same.creation]
    exact id
  · intro session alive
    rw [same.session] at session
    exact ⟨session, fun gone => alive (follows.finished.mpr gone)⟩
  · intro creating
    exact ⟨follows.creating creating, same.creation⟩

theorem same_receive (next : x.receive = some y) : x.SameRequest y := by
  unfold Slot.receive at next
  split at next
  case h_7 => cases next
  all_goals
    cases next
    exact ⟨rfl, rfl, rfl, rfl, rfl, rfl, rfl⟩

theorem same_handled {ok : Bool} (next : x.handled ok = some y) : x.SameRequest y := by
  unfold Slot.handled at next
  split at next
  · cases next
    split
    · exact ⟨rfl, rfl, rfl, rfl, rfl, rfl, rfl⟩
    · exact ⟨rfl, rfl, rfl, rfl, rfl, rfl, rfl⟩
  · cases next
    exact ⟨rfl, rfl, rfl, rfl, rfl, rfl, rfl⟩
  · cases next

theorem same_closed {ok : Bool} (next : x.closed ok = some y) : x.SameRequest y := by
  unfold Slot.closed at next
  split at next
  · split at next
    · cases next
      split
      · split
        · exact ⟨rfl, rfl, rfl, rfl, rfl, rfl, rfl⟩
        · exact ⟨rfl, rfl, rfl, rfl, rfl, rfl, rfl⟩
      · exact ⟨rfl, rfl, rfl, rfl, rfl, rfl, rfl⟩
    · cases next
  · cases next

end Slots

section Steps
variable {s t : State} {i c : Nat}

/-- The tasks and the stops are the same, and every operation is where it was or
    nearer to its end. -/
theorem drain_frame (hd : Drain s) (tasks : t.tasks = s.tasks) (stops : t.stops = s.stops)
    (slots : ∀ i, (s.slots i).Tracked (t.slots i)) : Drain t := by
  constructor
  · intro i running
    rw [tasks]
    exact hd.opening i ((slots i).opening running)
  · intro i session alive
    rw [tasks]
    obtain ⟨before, live⟩ := (slots i).finishing session alive
    exact hd.finishing i before live
  · intro i creating
    obtain ⟨before, creation⟩ := (slots i).creating creating
    rw [creation]
    exact hd.creating i before
  · intro id snapshot draining
    rw [stops] at draining
    rw [tasks]
    exact hd.found draining

theorem tracked_setSlot {x : Slot} (tracked : (s.slots i).Tracked x) (j : Nat) :
    (s.slots j).Tracked ((s.setSlot i x).slots j) :=
  slots_update (P := fun j y => (s.slots j).Tracked y) tracked (fun _ _ => tracked_refl _) j

theorem drain_setSlot (hd : Drain s) {x : Slot} (tracked : (s.slots i).Tracked x) : Drain (s.setSlot i x) :=
  drain_frame hd rfl rfl (tracked_setSlot tracked)

theorem drain_follow (hd : Drain s) {x : Slot} (follows : (s.slots i).Follows x)
    (same : (s.slots i).SameRequest x) : Drain (s.setSlot i x) :=
  drain_setSlot hd (tracked_follows follows same)

theorem tracked_dismiss {x : Slot} (running : x.creation = .running) : x.Tracked x.dismiss := by
  constructor
  · intro _
    rw [running]
    nofun
  · intro _ alive
    exact absurd rfl alive
  · nofun

theorem drain_openSlot (hd : Drain s) (quiet : ∀ id snapshot, s.stops id ≠ .draining snapshot) (kind : Kind) (k : Key) :
    Drain (s.openSlot kind k) := by
  constructor
  · intro j running
    by_cases same : j = s.nextSlot
    · subst same
      exact Finset.mem_insert_self ..
    · exact Finset.mem_insert_of_mem (hd.opening j (by simpa [State.openSlot, update_of_ne same] using running))
  · intro j session alive
    by_cases same : j = s.nextSlot
    · subst same
      simp [State.openSlot] at session
    · exact Finset.mem_insert_of_mem (hd.finishing j (by simpa [State.openSlot, update_of_ne same] using session)
        (by simpa [State.openSlot, update_of_ne same] using alive))
  · intro j creating
    by_cases same : j = s.nextSlot
    · subst same
      simp [State.openSlot]
    · simpa [State.openSlot, update_of_ne same] using
        hd.creating j (by simpa [State.openSlot, update_of_ne same] using creating)
  · intro id snapshot draining
    exact absurd draining (quiet id snapshot)

theorem drain_join (hd : Drain s) : Drain (s.join i) := drain_frame hd rfl rfl (fun _ => tracked_refl _)

theorem drain_dismiss (hd : Drain s) (running : (s.slots i).creation = .running) : Drain (s.dismiss i) :=
  drain_frame hd rfl rfl (tracked_setSlot (tracked_dismiss running))

theorem drain_consume (hd : Drain s) {kinds : Nat → Kind} {k : Key} {throws : Bool}
    (undisturbed : Undisturbed s (.consume k throws)) : Drain (s.consume kinds k throws) := by
  unfold State.consume
  split
  · exact drain_join hd
  · rename_i free
    have opened : Drain (s.openSlot (kinds k.consumer) k) := drain_openSlot hd (undisturbed free) _ k
    simp only
    split
    · apply drain_join
      apply drain_dismiss opened
      simp [State.openSlot]
    · exact drain_join opened

theorem drain_begins (hd : Drain s) {opens : Bool} (undisturbed : Undisturbed s (.begins i opens))
    (next : s.begins i opens = some t) : Drain t := by
  unfold State.begins at next
  split at next
  · rename_i phase
    have creating : (s.slots i).phase.creating = true := by
      rw [phase]
      rfl
    have running := hd.creating i creating
    cases next
    cases opens with
    | false =>
      apply drain_setSlot hd
      constructor
      · exact id
      · intro session _
        refine ⟨session, ?_⟩
        rw [phase]
        nofun
      · exact fun _ => ⟨creating, rfl⟩
    | true =>
      have tasks : ∀ {task}, task ∈ s.tasks → task ∈ insert (.finishing i) s.tasks := Finset.mem_insert_of_mem
      constructor
      · intro j
        apply slots_update (P := fun j y => y.creation ≠ .settled → .opening j ∈ insert (.finishing i) s.tasks)
        · intro _
          apply tasks
          apply hd.opening i
          rw [running]
          nofun
        · exact fun j _ unsettled => tasks (hd.opening j unsettled)
      · intro j
        apply slots_update (P := fun j y =>
          y.session = true → y.phase ≠ .finished → .finishing j ∈ insert (.finishing i) s.tasks)
        · exact fun _ _ => Finset.mem_insert_self ..
        · exact fun j _ session alive => tasks (hd.finishing j session alive)
      · intro j
        apply slots_update (P := fun _ y => y.phase.creating = true → y.creation = .running)
        · nofun
        · exact fun j _ => hd.creating j
      · intro id snapshot draining
        exact absurd draining (undisturbed rfl id snapshot)
  · cases next

theorem drain_created (hd : Drain s) (next : s.created i = some t) : Drain t := by
  unfold State.created at next
  split at next
  · rename_i session creation
    cases next
    apply drain_setSlot hd
    constructor
    · intro unsettled
      exact absurd rfl unsettled
    · exact fun session alive => ⟨session, alive⟩
    · intro creating
      have running := hd.creating i creating
      rw [creation] at running
      cases running
  · cases next

theorem drain_forgets (hd : Drain s) {task : Task} (next : s.forgets task = some t) : Drain t := by
  unfold State.forgets at next
  split at next
  · rename_i may
    cases next
    constructor
    · intro i unsettled
      refine Finset.mem_erase.mpr ⟨?_, hd.opening i unsettled⟩
      intro same
      rw [← same] at may
      exact unsettled may.2
    · intro i session alive
      refine Finset.mem_erase.mpr ⟨?_, hd.finishing i session alive⟩
      intro same
      rw [← same] at may
      exact alive may.2
    · exact hd.creating
    · intro id snapshot draining
      exact fun task mem => hd.found draining (Finset.mem_of_mem_erase mem)
  · cases next

theorem drain_stop (hd : Drain s) : Drain s.stop := by
  unfold State.stop
  split
  · constructor
    · exact hd.opening
    · exact hd.finishing
    · exact hd.creating
    · intro id snapshot draining
      by_cases same : id = s.nextStop
      · subst same
        have found : StopPhase.draining s.tasks = .draining snapshot := by simpa using draining
        cases found
        exact Finset.Subset.refl _
      · exact hd.found (by simpa [update_of_ne same] using draining)
  · exact hd

theorem drain_stopCloses (hd : Drain s) {id : Nat} (next : s.stopCloses id = some t) : Drain t := by
  unfold State.stopCloses at next
  split at next
  · split at next
    · cases next
      constructor
      · exact hd.opening
      · exact hd.finishing
      · exact hd.creating
      · intro other snapshot draining
        by_cases same : other = id
        · subst same
          simp at draining
        · exact hd.found (by simpa [update_of_ne same] using draining)
    · cases next
  · cases next

theorem drain_aside (hd : Drain s) {x : Slot} {may : Prop} [Decidable may]
    (next : (if may then some (s.setSlot i x) else none) = some t) (creation : x.creation = (s.slots i).creation)
    (session : x.session = (s.slots i).session) (phase : x.phase = (s.slots i).phase) : Drain t := by
  split at next
  · cases next
    apply drain_setSlot hd
    constructor
    · rw [creation]
      exact id
    · rw [session, phase]
      exact fun session alive => ⟨session, alive⟩
    · rw [phase]
      exact fun creating => ⟨creating, creation⟩
  · cases next

end Steps

theorem drain_step {kinds : Nat → Kind} {s t : State} {a : Action} (hs : Sessions s) (hd : Drain s)
    (undisturbed : Undisturbed s a) (next : step kinds s a = some t) : Drain t := by
  cases a with
  | consume k throws =>
    cases next
    exact drain_consume hd undisturbed
  | resume c =>
    simp only [step, State.resume] at next
    split at next
    · split at next
      · cases next
      · cases next
        exact drain_frame hd rfl rfl (fun _ => tracked_refl _)
      · split at next
        · cases next
          exact drain_frame hd rfl rfl (fun _ => tracked_refl _)
        · cases next
          exact drain_frame hd rfl rfl (tracked_setSlot
            ⟨id, fun session alive => ⟨session, alive⟩, fun creating => ⟨creating, rfl⟩⟩)
    · cases next
  | consumeSettles c consumed =>
    simp only [step, State.consumeSettles] at next
    split at next
    · cases next
      exact drain_frame hd rfl rfl (fun _ => tracked_refl _)
    · cases next
  | consumeReturns c =>
    simp only [step, State.consumeReturns] at next
    split at next
    · cases next
      exact drain_frame hd rfl rfl (tracked_setSlot
        ⟨id, fun session alive => ⟨session, alive⟩, fun creating => ⟨creating, rfl⟩⟩)
    · cases next
  | begins i opens => exact drain_begins hd undisturbed next
  | beginFails i =>
    simp only [step, State.beginFails] at next
    split at next
    · rename_i phase
      cases next
      exact drain_dismiss hd (hd.creating i (by rw [phase]; rfl))
    · cases next
  | abandoned i =>
    simp only [step, State.abandoned] at next
    split at next
    · rename_i phase
      cases next
      exact drain_dismiss hd (hd.creating i (by rw [phase]; rfl))
    · cases next
  | created i => exact drain_created hd next
  | wakes i =>
    simp only [step, State.wakes] at next
    split at next
    · rename_i may
      cases next
      exact drain_follow hd (Slot.follows_close (open_of_waiting may.1) false) ⟨rfl, rfl, rfl, rfl, rfl, rfl, rfl⟩
    · cases next
  | aborts i =>
    simp only [step, State.aborts] at next
    split at next
    · rename_i may
      cases next
      exact drain_follow hd (Slot.follows_fail (open_of_waiting may.1)) ⟨rfl, rfl, rfl, rfl, rfl, rfl, rfl⟩
    · cases next
  | receives i =>
    obtain ⟨x, received, rfl⟩ := Option.map_eq_some_iff.mp next
    exact drain_follow hd (Slot.follows_receive (hs.coherent i) received) (same_receive received)
  | closes i ok =>
    obtain ⟨x, closed, rfl⟩ := Option.map_eq_some_iff.mp next
    exact drain_follow hd (Slot.follows_closed (hs.coherent i) closed) (same_closed closed)
  | handles i ok =>
    obtain ⟨x, handled, rfl⟩ := Option.map_eq_some_iff.mp next
    exact drain_follow hd (Slot.follows_handled handled) (same_handled handled)
  | drains i =>
    simp only [step, State.drains] at next
    split at next
    · rename_i snapshot phase
      split at next
      · cases next
        apply drain_setSlot hd
        have alive : (s.slots i).phase ≠ .finished := by
          rw [phase]
          simp
        split
        · exact ⟨id, fun session _ => ⟨session, alive⟩, (by intros; contradiction)⟩
        · exact ⟨id, fun session _ => ⟨session, alive⟩, (by intros; contradiction)⟩
      · cases next
    · cases next
  | ends i =>
    simp only [step, State.ends] at next
    split at next
    · rename_i snapshot phase
      split at next
      · cases next
        apply drain_setSlot hd
        have alive : (s.slots i).phase ≠ .finished := by
          rw [phase]
          simp
        exact ⟨id, fun session _ => ⟨session, alive⟩, (by intros; contradiction)⟩
      · cases next
    · cases next
  | ended i =>
    simp only [step, State.ended] at next
    split at next
    · rename_i phase
      cases next
      exact drain_frame hd rfl rfl (tracked_setSlot ⟨id, fun _ alive => absurd rfl alive, (by intros; contradiction)⟩)
    · cases next
  | done i =>
    simp only [step, State.done] at next
    exact drain_aside hd next rfl rfl rfl
  | cancels i =>
    simp only [step, State.cancels] at next
    exact drain_aside hd next rfl rfl rfl
  | sends i =>
    simp only [step, State.sends] at next
    exact drain_aside hd next rfl rfl rfl
  | written i =>
    simp only [step, State.written] at next
    exact drain_aside hd next rfl rfl rfl
  | answers i ok =>
    simp only [step, State.answers] at next
    exact drain_aside hd next rfl rfl rfl
  | responds i =>
    simp only [step, State.responds] at next
    exact drain_aside hd next rfl rfl rfl
  | forgets task => exact drain_forgets hd next
  | start =>
    cases next
    exact drain_frame hd rfl rfl (fun _ => tracked_refl _)
  | stop =>
    cases next
    exact drain_stop hd
  | stopExpires id =>
    cases next
    exact drain_frame hd rfl rfl (fun _ => tracked_refl _)
  | stopCloses id => exact drain_stopCloses hd next

theorem drain_initial : Drain {} := by
  constructor
  · intro i running
    exact absurd rfl running
  · nofun
  · nofun
  · nofun

theorem drain_reachable {kinds : Nat → Kind} {s : State} (reach : ReachableWith kinds Undisturbed s) : Drain s := by
  have both : Sessions s ∧ Drain s := by
    apply steps_invariant (fun s => Sessions s ∧ Drain s) _ reach ⟨sessions_initial, drain_initial⟩
    intro s a t held undisturbed next
    exact ⟨(kept_step held.1 next).sessions, drain_step held.1 held.2 undisturbed next⟩
  exact both.2

/- Where nothing begins to be tracked while a stop waits, a stop whose context has not
   ended closes the clients when every operation that was ever tracked has settled: no task
   is left, every `createSession` has settled and every session is over. -/
theorem stop_drains {kinds : Nat → Kind} {s t : State} {id : Nat} (reach : ReachableWith kinds Undisturbed s)
    (lasting : id ∉ s.expired) (closes : step kinds s (.stopCloses id) = some t) :
    s.tasks = ∅ ∧ ∀ i, s.TaskSettled (.opening i) ∧ ((s.slots i).session = true → s.TaskSettled (.finishing i)) := by
  have hd := drain_reachable reach
  have empty : s.tasks = ∅ := by
    simp only [step, State.stopCloses] at closes
    split at closes
    · rename_i snapshot draining
      split at closes
      · rename_i may
        have apart : Disjoint snapshot s.tasks := may.resolve_left lasting
        exact Finset.subset_empty.mp (apart (hd.found draining) (Finset.Subset.refl _))
      · cases closes
    · cases closes
  refine ⟨empty, ?_⟩
  intro i
  constructor
  · by_contra running
    have tracked := hd.opening i running
    rw [empty] at tracked
    exact Finset.notMem_empty _ tracked
  · intro session
    by_contra alive
    have tracked := hd.finishing i session alive
    rw [empty] at tracked
    exact Finset.notMem_empty _ tracked

/-- A check that admits no step that tracks. -/
def untracked : Action → Bool
  | .consume _ _ => false
  | .begins _ opens => !opens
  | _ => true

theorem untracked_undisturbed (s : State) (a : Action) (passed : untracked a = true) : Undisturbed s a := by
  intro tracks
  cases a with
  | consume k throws => cases passed
  | begins i opens =>
    rw [show opens = true from tracks] at passed
    cases passed
  | _ => exact tracks.elim

/-- A stop waits for the session that it finds. -/
theorem stop_drains_session :
    ∃ s t, ReachableWith (fun _ => .clientStreaming) Undisturbed s ∧
      0 ∉ s.expired ∧ step (fun _ => .clientStreaming) s (.stopCloses 0) = some t ∧ s.tasks = ∅ ∧ (s.slots 0).endings = 1 := by
  have opened : ReachableWith (fun _ => .clientStreaming) Undisturbed
      (((State.start {}).consume (fun _ => .clientStreaming) ⟨0, "a"⟩ false)) := by
    apply Steps.tail (a := .consume ⟨0, "a"⟩ false) (steps_single (a := .start) (fun tracks => tracks.elim) rfl) _ rfl
    intro _ id snapshot draining
    cases draining
  have quiet : Undisturbed ((State.start {}).consume (fun _ => .clientStreaming) ⟨0, "a"⟩ false) (.begins 0 true) := by
    intro _ id snapshot draining
    cases draining
  have begun := Steps.tail opened quiet (show step (fun _ => .clientStreaming) _ (.begins 0 true) = some _ from rfl)
  have reach := steps_trans begun (execWhere_steps untracked_undisturbed
    (show execWhere (step fun _ => .clientStreaming) (fun _ => untracked) _ [.created 0, .forgets (.opening 0), .done 0,
      .stop, .wakes 0, .closes 0 true, .answers 0 true, .receives 0, .drains 0, .handles 0 true, .ends 0, .ended 0,
      .forgets (.finishing 0)] = some _ from rfl))
  obtain ⟨s, reach, draining, tasks, expired, endings⟩ : ∃ s, ReachableWith (fun _ => .clientStreaming) Undisturbed s ∧
      s.stops 0 = .draining {.finishing 0} ∧ s.tasks = ∅ ∧ s.expired = ∅ ∧ (s.slots 0).endings = 1 :=
    ⟨_, reach, rfl, rfl, rfl, rfl⟩
  have lasting : 0 ∉ s.expired := by
    rw [expired]
    exact Finset.notMem_empty 0
  have closes : step (fun _ => .clientStreaming) s (.stopCloses 0) =
      some { s with stops := update s.stops 0 .closed } := by
    simp [step, State.stopCloses, draining, tasks]
  exact ⟨s, _, reach, lasting, closes, (stop_drains reach lasting closes).1, endings⟩

/-- A `beginRequest` succeeds while a stop waits for it: the clients are closed under
    the session that it has opened. -/
theorem closed_under_session :
    ∃ s t, ReachableWith (fun _ => .clientStreaming) Any s ∧
      0 ∉ s.expired ∧ step (fun _ => .clientStreaming) s (.stopCloses 0) = some t ∧
      .finishing 0 ∈ s.tasks ∧ (s.slots 0).phase = .waiting ∧ t.stops 0 = .closed := by
  have run : exec (step fun _ => .clientStreaming) {} [.start, .consume ⟨0, "a"⟩ false, .stop, .begins 0 true, .created 0,
      .forgets (.opening 0)] = some _ := rfl
  exact ⟨_, _, exec_steps run, Finset.notMem_empty 0, rfl, by decide, rfl, rfl⟩

end GrpcSessions
