import TsServiceLib.Sink.ProducerOwnership

/-!
Orderly runs of a Kafka sink. A step keeps the owners of the producers; one that
settles a stop leaves none current and no start on the way to one, and from there
only a new start brings one. The runs at the end are not orderly: a stop that comes
while the producer of a start is still connecting forgets it.
-/
namespace KafkaSinks
open Transitions Function

structure Kept (s : State) (a : Action) (t : State) : Prop where
  owned : Owned t
  settles : ∀ id, Settles id s t → Quiet t
  quiet : (∀ setup, a ≠ .start setup) → Quiet s → Quiet t

section Steps
variable {s t u : State} {a : Action} {id p : Nat}

theorem kept_of (owned : Owned t) (stops : t.stops = s.stops) (nextStop : t.nextStop = s.nextStop)
    (quiet : (∀ setup, a ≠ .start setup) → Quiet s → Quiet t) : Kept s a t := by
  refine ⟨owned, ?_, quiet⟩
  rintro id ⟨settled, below, unsettled | above⟩
  · rw [stops] at settled
    exact absurd settled unsettled
  · rw [nextStop] at below
    exact absurd below (Nat.not_lt.mpr above)

theorem kept_aside (h : Owned s) (same : SameLives s t) (nextStop : t.nextStop = s.nextStop) (retains : Retains s t) :
    Kept s a t := by
  apply kept_of (owned_aside h same retains) same.stops nextStop
  rintro - ⟨producer, unopened⟩
  refine ⟨same.producer.trans producer, ?_⟩
  rw [same.starts]
  exact unopened

theorem quiet_setStart (quiet : Quiet s) (phase : StartPhase) (opens : phase.opening = false)
    (starts : t.starts = update s.starts id phase) (producer : t.producer = s.producer ∨ t.producer = none) :
    Quiet t := by
  constructor
  · rcases producer with same | gone
    · exact same.trans quiet.producer
    · exact gone
  · intro k
    rw [starts]
    by_cases same : k = id
    · subst same
      rw [update_self]
      exact opens
    · rw [update_of_ne same]
      exact quiet.unopened k

theorem unquiet (opening : (s.starts id).opening = true) (quiet : Quiet s) : False := by
  rw [quiet.unopened id] at opening
  cases opening

theorem begun_of (h : Owned s) {phase : StartPhase} (here : s.starts id = phase) (unsettled : phase ≠ .settled false) :
    id < s.nextStart := by
  apply h.begun
  rw [here]
  exact unsettled

theorem owned_goesOn (h : Owned s) {before phase : StartPhase} (here : s.starts id = before)
    (unsettled : before ≠ .settled false) (unfailing : ∀ p, before ≠ .failing p) (opens : phase.opening = false) :
    Owned (s.setStart id phase) := by
  apply owned_setStart h (begun_of h here unsettled)
  · intro opening
    rw [opens] at opening
    cases opening
  · intro p failing
    exact absurd (here.symm.trans failing) (unfailing p)

theorem owned_failStart (h : Owned s) {before : StartPhase} (here : s.starts id = before)
    (unsettled : before ≠ .settled false) (unfailing : ∀ p, before ≠ .failing p)
    (others : ∀ k, k ≠ id → (s.starts k).opening = false) (own : ∀ q, s.producer = some q → q = p) :
    Owned (s.failStart id p) := by
  have failing : Owned (s.setStart id (.failing p)) := owned_goesOn h here unsettled unfailing rfl
  have cleared : Owned { s.setStart id (.failing p) with producer := none } := by
    apply owned_clear failing
    intro q current
    rw [own q current]
    exact .inr ⟨id, by simp [State.setStart]⟩
  apply owned_unstart cleared
  refine ⟨rfl, ?_⟩
  intro k
  by_cases same : k = id
  · subst same
    simp [State.setStart, StartPhase.opening]
  · simpa [State.setStart, update_of_ne same] using others k same

/-- The stop disconnects the producer that it has found, and no other is current. -/
theorem kept_release (h : Owned s) {phase : StopPhase} (here : s.stops id = phase) (found : phase.found = some p) :
    Kept s a (s.release id p) := by
  have unsettled : s.stops id ≠ .settled := by
    intro settled
    rw [settled] at here
    rw [← here] at found
    cases found
  have disconnected : Owned (s.disconnect p) :=
    owned_aside h ⟨rfl, rfl, rfl, rfl, le_rfl, le_rfl⟩ (retains_disconnect p)
  have cleared : Owned { s.disconnect p with producer := none } := by
    apply owned_clear disconnected
    intro q current
    have same : q = p := h.found id p q (by rw [here]; exact found) current
    rw [same]
    refine .inl ?_
    simp [State.disconnect, State.setProducer]
  constructor
  · apply owned_setStop cleared (h.called id unsettled)
    · exact fun _ => ⟨(apart_of_unsettled h unsettled).1, fun _ => rfl⟩
    · simp
    · exact fun _ => rfl
    · exact fun _ => .inr rfl
  · rintro k ⟨settled, below, changed⟩
    exact ⟨rfl, (apart_of_unsettled h unsettled).1⟩
  · intro _ quiet
    exact ⟨rfl, quiet.unopened⟩

theorem kept_start (h : Owned s) {setup : Setup} (orderly : Orderly s (.start setup)) :
    Kept s (.start setup) (s.start setup) := by
  have begun : Owned { s with nextStart := s.nextStart + 1 } :=
    owned_aside h ⟨rfl, rfl, rfl, rfl, Nat.le_succ _, le_rfl⟩ (retains_same rfl)
  have unfailing : ∀ p, s.starts s.nextStart = .failing p → 0 < (s.producers p).disconnects := by
    intro p failing
    exact absurd (begun_of h failing nofun) (Nat.lt_irrefl _)
  have noStart : ∀ {P : Prop}, (∀ other, Action.start setup ≠ .start other) → P :=
    fun never => absurd rfl (never setup)
  unfold State.start
  simp only
  split
  · refine kept_of ?_ rfl rfl noStart
    exact owned_setStart begun (Nat.lt_succ_self _) nofun unfailing
  · rename_i unstarted
    have stopped : s.started = false := Bool.eq_false_of_not_eq_true unstarted
    have producer : s.producer = none := by
      by_contra current
      obtain ⟨k, holding⟩ := h.holder current stopped
      rw [orderly stopped (.inr current) k] at holding
      cases holding
    have running : Owned { s with nextStart := s.nextStart + 1, started := true } := owned_begin begun producer
    cases setup with
    | disabled =>
      refine kept_of ?_ rfl rfl noStart
      exact owned_setStart running (Nat.lt_succ_self _) nofun unfailing
    | broken =>
      refine kept_of ?_ rfl rfl noStart
      exact owned_setStart running (Nat.lt_succ_self _) nofun unfailing
    | complete =>
      refine kept_of ?_ rfl rfl noStart
      apply owned_setStart running (Nat.lt_succ_self _) _ unfailing
      intro _
      refine ⟨rfl, producer, orderly stopped (.inl rfl), ?_⟩
      intro k _
      by_contra opening
      have started := (h.opening k (Bool.eq_true_of_not_eq_false opening)).1
      rw [stopped] at started
      cases started

theorem kept_prepared (h : Owned s) {outcome : Prepared} (next : step s (.prepared id outcome) = some t) :
    Kept s (.prepared id outcome) t := by
  simp only [step, State.prepared] at next
  split at next
  · rename_i phase
    have opening : (s.starts id).opening = true := by
      rw [phase]
      rfl
    have alone := alone_of_opening h opening
    cases outcome with
    | failed =>
      cases next
      refine kept_of ?_ rfl rfl (fun _ quiet => (unquiet opening quiet).elim)
      apply owned_unstart (owned_goesOn h phase (by simp) (by simp) rfl)
      refine ⟨alone.producer, ?_⟩
      intro k
      by_cases same : k = id
      · subst same
        simp [State.setStart, StartPhase.opening]
      · simpa [State.setStart, update_of_ne same] using alone.others k same
    | unmade =>
      cases next
      exact kept_of (owned_goesOn h phase (by simp) (by simp) rfl) rfl rfl (fun _ quiet => (unquiet opening quiet).elim)
    | made =>
      cases next
      refine kept_of ?_ rfl rfl (fun _ quiet => (unquiet opening quiet).elim)
      have made : Owned s.makeProducer := owned_aside h ⟨rfl, rfl, rfl, rfl, le_rfl, le_rfl⟩ retains_makeProducer
      apply owned_setStart made (begun_of made phase (by simp))
      · exact fun _ => ⟨alone.started, alone.producer, alone.unstopped, alone.others⟩
      · intro p failing
        have here : s.starts id = .failing p := failing
        rw [phase] at here
        cases here
  · cases next

theorem kept_connected (h : Owned s) {ok : Bool} (next : step s (.connected id ok) = some t) :
    Kept s (.connected id ok) t := by
  simp only [step, State.connected] at next
  split at next
  · rename_i p phase
    have opening : (s.starts id).opening = true := by
      rw [phase]
      rfl
    have alone := alone_of_opening h opening
    split at next
    · cases next
      refine kept_of ?_ rfl rfl (fun _ quiet => (unquiet opening quiet).elim)
      have activating : Owned (s.setStart id (.activating p)) := owned_goesOn h phase (by simp) (by simp) rfl
      apply owned_take activating alone.started
      · intro k
        by_cases same : k = id
        · subst same
          simp [State.setStart, StartPhase.opening]
        · simpa [State.setStart, update_of_ne same] using alone.others k same
      · exact alone.unstopped
      · rfl
      · rfl
      · rfl
      · rfl
      · rfl
      · intro q other connected
        have same : (s.connect p).producers q = s.producers q := by
          simp [State.connect, State.setProducer, update_of_ne other]
        refine .inr ⟨?_, ?_, ?_⟩
        · rw [show (s.setStart id (.activating p)).producer = none from alone.producer]
          simp
        · rw [show (s.setStart id (.activating p)).producers q = (s.connect p).producers q from same.symm]
          exact connected
        · exact le_of_eq (congrArg Producer.disconnects same.symm)
    · cases next
      refine kept_of ?_ rfl rfl (fun _ quiet => (unquiet opening quiet).elim)
      apply owned_failStart h phase (by simp) (by simp) alone.others
      intro q current
      rw [alone.producer] at current
      cases current
  · cases next

theorem kept_activated (h : Owned s) {ok : Bool} (orderly : Orderly s (.activated id ok))
    (next : step s (.activated id ok) = some t) : Kept s (.activated id ok) t := by
  simp only [step, State.activated] at next
  split at next
  · rename_i p phase
    split at next
    · cases next
      refine kept_of (owned_goesOn h phase (by simp) (by simp) rfl) rfl rfl (fun _ quiet => ?_)
      exact quiet_setStart quiet (.settled true) rfl rfl (.inl rfl)
    · rename_i failed
      cases next
      obtain ⟨unopened, own⟩ := orderly (Bool.eq_false_of_not_eq_true failed)
      refine kept_of ?_ rfl rfl (fun _ quiet => ?_)
      · exact owned_failStart h phase (by simp) (by simp) (fun k _ => unopened k) (fun q => own p q phase)
      · exact quiet_setStart quiet (.failing p) rfl rfl (.inr rfl)
  · cases next

theorem kept_stop (h : Owned s) (orderly : Orderly s .stop) : Kept s .stop s.stop := by
  have called : Owned { s with nextStop := s.nextStop + 1 } :=
    owned_aside h ⟨rfl, rfl, rfl, rfl, le_rfl, Nat.le_succ _⟩ (retains_same rfl)
  have fresh : s.stops s.nextStop = .settled := by
    by_contra unsettled
    exact Nat.lt_irrefl _ (h.called _ unsettled)
  have stopAt : ∀ (phase : StopPhase) k,
      update s.stops s.nextStop phase k = if k = s.nextStop then phase else s.stops k := by
    intro phase k
    by_cases same : k = s.nextStop <;> simp [same]
  unfold State.stop
  unfold Orderly at orderly
  simp only
  split
  · rename_i started
    rw [if_pos started] at orderly
    constructor
    · constructor
      · exact h.owner
      · intro k opening
        have unopened : (s.starts k).opening = false := orderly k
        rw [show (s.starts k).opening = true from opening] at unopened
        cases unopened
      · exact h.single
      · intro k p q found current
        simp only [State.setStop, stopAt] at found
        split at found
        · cases found
        · exact h.found k p q found current
      · simp
      · intro k releasing
        simp only [State.setStop, stopAt] at releasing
        split at releasing
        · cases releasing
        · exact h.released k releasing
      · intro _ _
        refine ⟨s.nextStop, ?_⟩
        simp [State.setStop, StopPhase.holding]
      · exact h.begun
      · intro k unsettled
        simp only [State.setStop, stopAt] at unsettled
        split at unsettled
        · rename_i same
          rw [same]
          exact Nat.lt_succ_self _
        · exact Nat.lt_succ_of_lt (h.called k unsettled)
    · rintro k ⟨settled, below, changed⟩
      simp only [State.setStop, stopAt] at settled
      split at settled
      · cases settled
      · rename_i other
        rcases changed with unsettled | above
        · exact absurd settled unsettled
        · exact absurd (Nat.le_antisymm (Nat.le_of_lt_succ below) above) other
    · exact fun _ quiet => ⟨quiet.producer, quiet.unopened⟩
  · rename_i unstarted
    rw [if_neg unstarted] at orderly
    have stopped : s.started = false := Bool.eq_false_of_not_eq_true unstarted
    have quiet : Quiet s := by
      constructor
      · by_contra current
        obtain ⟨k, holding⟩ := h.holder current stopped
        exact current (orderly k holding)
      · intro k
        by_contra opening
        have started := (h.opening k (Bool.eq_true_of_not_eq_false opening)).1
        rw [stopped] at started
        cases started
    constructor
    · apply owned_setStop called (Nat.lt_succ_self _)
      · exact fun unsettled => absurd rfl unsettled
      · intros
        contradiction
      · simp
      · intro holding
        rw [show ({ s with nextStop := s.nextStop + 1 } : State).stops s.nextStop = .settled from fresh] at holding
        cases holding
    · exact fun _ _ => ⟨quiet.producer, quiet.unopened⟩
    · exact fun _ _ => ⟨quiet.producer, quiet.unopened⟩

theorem kept_settleStop (h : Owned s) (unsettled : s.stops id ≠ .settled) (producer : s.producer = none)
    (accepting : Bool) : Kept s a { s.setStop id .settled with accepting := accepting } := by
  have unopened := (apart_of_unsettled h unsettled).1
  constructor
  · have owned : Owned (s.setStop id .settled) := by
      apply owned_setStop h (h.called id unsettled)
      · exact fun changed => absurd rfl changed
      · nofun
      · nofun
      · exact fun _ => .inr producer
    exact owned_aside owned ⟨rfl, rfl, rfl, rfl, le_rfl, le_rfl⟩ (retains_same rfl)
  · exact fun _ _ => ⟨producer, unopened⟩
  · exact fun _ _ => ⟨producer, unopened⟩

theorem kept_hold (h : Owned s) {before : StopPhase} (phase : StopPhase) (here : s.stops id = before)
    (unsettled : before ≠ .settled) (found : phase.found = some p) (holding : phase.holding = true) (current : ∀ q, s.producer = some q → q = p)
    (accepting : Bool) : Kept s a { s.setStop id phase with accepting := accepting } := by
  have running : s.stops id ≠ .settled := by
    rw [here]
    exact unsettled
  have inside : phase ≠ .settled ∧ phase ≠ .disconnecting := by
    constructor
    · intro settled
      rw [settled] at found
      cases found
    · intro releasing
      rw [releasing] at found
      cases found
  constructor
  · have owned : Owned (s.setStop id phase) := by
      apply owned_setStop h (h.called id running)
      · exact fun _ => apart_of_unsettled h running
      · intro x q finds now
        rw [found] at finds
        cases finds
        exact current q now
      · exact fun releasing => absurd releasing inside.2
      · exact fun _ => .inl holding
    exact owned_aside owned ⟨rfl, rfl, rfl, rfl, le_rfl, le_rfl⟩ (retains_same rfl)
  · rintro k ⟨settled, below, changed⟩
    by_cases same : k = id
    · subst same
      exact absurd (show phase = .settled by simpa [State.setStop] using settled) inside.1
    · rcases changed with moved | above
      · exact absurd (show s.stops k = .settled by simpa [State.setStop, update_of_ne same] using settled) moved
      · exact absurd below (Nat.not_lt.mpr above)
  · exact fun _ quiet => ⟨quiet.producer, quiet.unopened⟩

theorem kept_endpointsStopped (h : Owned s) {ok : Bool} (orderly : Orderly s (.endpointsStopped id ok))
    (next : step s (.endpointsStopped id ok) = some t) : Kept s (.endpointsStopped id ok) t := by
  simp only [step, State.endpointsStopped] at next
  split at next
  · rename_i phase
    have unsettled : s.stops id ≠ .settled := by
      rw [phase]
      simp
    split at next
    · split at next
      · rename_i none
        cases next
        exact kept_settleStop h unsettled none false
      · rename_i p current
        cases next
        apply kept_hold h (.draining p) phase (by simp) rfl rfl
        intro q now
        exact Option.some.inj (now.symm.trans current)
    · rename_i rejected
      cases next
      exact kept_settleStop h unsettled (orderly (Bool.eq_false_of_not_eq_true rejected)) s.accepting
  · cases next

theorem kept_replaced (h : Owned s) {r : Nat} {ok : Bool} (next : step s (.replaced r ok) = some t) :
    Kept s (.replaced r ok) t := by
  simp only [step, State.replaced] at next
  split at next
  · split at next
    · split at next
      · cases next
        refine kept_aside h ⟨rfl, rfl, rfl, rfl, le_rfl, le_rfl⟩ rfl ?_
        intro q connected
        by_cases here : q = (s.recoveries r).replacement
        · subst here
          refine .inl ?_
          simp [State.setRecovery, State.disconnect, State.setProducer]
        · refine .inr ⟨?_, ?_⟩
          · simpa [State.setRecovery, State.disconnect, State.connect, State.setProducer, update_of_ne here] using connected
          · simp [State.setRecovery, State.disconnect, State.connect, State.setProducer, update_of_ne here]
      · rename_i current
        cases next
        have started : s.started = true := by
          by_contra stopped
          exact current (.inl (Bool.eq_false_of_not_eq_true stopped))
        have producer : s.producer = some (s.recoveries r).failed := by
          by_contra other
          exact current (.inr other)
        have unopened : ∀ k, (s.starts k).opening = false := by
          intro k
          by_contra opening
          have none := (h.opening k (Bool.eq_true_of_not_eq_false opening)).2.1
          rw [producer] at none
          cases none
        have unstopped : ∀ k, s.stops k = .settled := by
          intro k
          by_contra unsettled
          have none := h.stopping k unsettled started
          rw [producer] at none
          cases none
        refine kept_of ?_ rfl rfl ?_
        · refine owned_take h started unopened unstopped rfl rfl rfl rfl rfl ?_
          intro q other connected
          by_cases failed : q = (s.recoveries r).failed
          · subst failed
            refine .inl ?_
            simp [State.setRecovery, State.disconnect, State.setProducer]
          · refine .inr ⟨?_, ?_, ?_⟩
            · rw [producer]
              intro same
              exact failed (Option.some.inj same).symm
            · simpa [State.setRecovery, State.disconnect, State.connect, State.setProducer, update_of_ne failed,
                update_of_ne other] using connected
            · simp [State.setRecovery, State.disconnect, State.connect, State.setProducer, update_of_ne failed,
                update_of_ne other]
        · intro _ quiet
          have none := quiet.producer
          rw [producer] at none
          cases none
    · cases next
      exact kept_aside h ⟨rfl, rfl, rfl, rfl, le_rfl, le_rfl⟩ rfl (retains_same rfl)
  · cases next

theorem kept_recoverProducer (h : Owned s) {i : Nat} {makes : Bool} : Kept s a (s.recoverProducer i p makes) := by
  unfold State.recoverProducer
  split
  · exact kept_aside h ⟨rfl, rfl, rfl, rfl, le_rfl, le_rfl⟩ rfl (retains_same rfl)
  · split
    · exact kept_aside h ⟨rfl, rfl, rfl, rfl, le_rfl, le_rfl⟩ rfl (retains_same rfl)
    · cases makes with
      | true => exact kept_aside h ⟨rfl, rfl, rfl, rfl, le_rfl, le_rfl⟩ rfl retains_makeProducer
      | false => exact kept_aside h ⟨rfl, rfl, rfl, rfl, le_rfl, le_rfl⟩ rfl (retains_same rfl)

theorem kept_step (h : Owned s) (orderly : Orderly s a) (next : step s a = some t) : Kept s a t := by
  by_cases delivery : a.delivery = true
  · have same := delivery_producers delivery next
    exact kept_aside h ⟨same.started, same.producer, same.starts, same.stops, le_of_eq same.nextStart.symm,
      le_of_eq same.nextStop.symm⟩ same.nextStop (retains_same same.producers)
  · cases a with
    | start setup =>
      cases next
      exact kept_start h orderly
    | prepared id outcome => exact kept_prepared h next
    | connected id ok => exact kept_connected h next
    | activated id ok => exact kept_activated h orderly next
    | endpointsLeft id =>
      simp only [step, State.endpointsLeft] at next
      split at next
      · rename_i p phase
        cases next
        refine kept_of ?_ rfl rfl (fun _ quiet => ?_)
        · have disconnected : Owned (s.disconnect p) :=
            owned_aside h ⟨rfl, rfl, rfl, rfl, le_rfl, le_rfl⟩ (retains_disconnect p)
          apply owned_setStart disconnected
          · exact begun_of disconnected phase (by simp)
          · intros
            contradiction
          · intro q failing
            have here : s.starts id = .failing q := failing
            rw [phase] at here
            cases here
            simp [State.disconnect, State.setProducer]
        · exact quiet_setStart quiet (.disconnecting p) rfl rfl (.inl rfl)
      · cases next
    | startDisconnected id =>
      simp only [step, State.startDisconnected] at next
      split at next
      · rename_i p phase
        cases next
        refine kept_of (owned_goesOn h phase (by simp) (by simp) rfl) rfl rfl (fun _ quiet => ?_)
        exact quiet_setStart quiet (.settled false) rfl rfl (.inl rfl)
      · cases next
    | stop =>
      cases next
      exact kept_stop h orderly
    | endpointsStopped id ok => exact kept_endpointsStopped h orderly next
    | drained id ok =>
      simp only [step, State.drained] at next
      split at next
      · rename_i p phase
        split at next
        · split at next
          · cases next
            apply kept_hold h (.flushing p) phase (by simp) rfl rfl _ s.accepting
            intro q current
            exact h.found id p q (by rw [phase]; rfl) current
          · cases next
        · cases next
          exact kept_release h phase rfl
      · cases next
    | flushed id =>
      simp only [step, State.flushed] at next
      split at next
      · rename_i p phase
        cases next
        exact kept_release h phase rfl
      · cases next
    | stopDisconnected id =>
      simp only [step, State.stopDisconnected] at next
      split at next
      · rename_i phase
        cases next
        exact kept_settleStop h (by rw [phase]; simp) (h.released id phase) s.accepting
      · cases next
    | sent i ok makes =>
      simp only [step, State.sent] at next
      split at next
      · cases next
        split
        · exact kept_aside h ⟨rfl, rfl, rfl, rfl, le_rfl, le_rfl⟩ rfl (retains_same rfl)
        · exact kept_recoverProducer h
      · cases next
    | replaced r ok => exact kept_replaced h next
    | recoveryDisconnected r =>
      simp only [step, State.recoveryDisconnected] at next
      split at next
      · cases next
        exact kept_aside h ⟨rfl, rfl, rfl, rfl, le_rfl, le_rfl⟩ rfl (retains_same rfl)
      · cases next
    | _ => exact absurd rfl delivery

theorem owned_initial : Owned {} := by
  constructor
  · nofun
  · nofun
  · nofun
  · nofun
  · exact fun k unsettled => absurd rfl unsettled
  · nofun
  · exact fun current => absurd rfl current
  · exact fun k unsettled => absurd rfl unsettled
  · exact fun k unsettled => absurd rfl unsettled

theorem owned_reachable (reach : ReachableWith Orderly s) : Owned s := by
  apply steps_invariant Owned _ reach owned_initial
  intro s a t h orderly next
  exact (kept_step h orderly next).owned

/-- What is quiet stays so until a start is called. -/
theorem quiet_steps (h : Owned s) (quiet : Quiet s)
    (run : Steps step (fun s a => Orderly s a ∧ ∀ setup, a ≠ .start setup) s u) : Quiet u := by
  have both : Owned u ∧ Quiet u := by
    apply steps_invariant (fun s => Owned s ∧ Quiet s) _ run ⟨h, quiet⟩
    rintro s a t ⟨h, quiet⟩ ⟨orderly, noStart⟩ next
    have kept := kept_step h orderly next
    exact ⟨kept.owned, kept.quiet noStart quiet⟩
  exact both.2

end Steps

/- In an orderly run. A producer is replaced at most once, and one is current at most;
   a producer that has connected is the current one, or has had `disconnect` called, or
   is that of a failed start which stops its endpoints before it does; and when a call
   of `stop` settles none is current, nor later on until `start` is called. -/
theorem producers_owned {s : State} (reach : ReachableWith Orderly s) :
    (∀ p, (s.producers p).replacements ≤ 1) ∧
    (∀ p q, s.producer = some p → s.producer = some q → p = q) ∧
    (∀ p, (s.producers p).connected = true →
      s.producer = some p ∨ 0 < (s.producers p).disconnects ∨ ∃ id, s.starts id = .failing p) ∧
    ∀ id a t, Orderly s a → step s a = some t → Settles id s t →
      ∀ u, Steps step (fun s a => Orderly s a ∧ ∀ setup, a ≠ .start setup) t u → u.producer = none := by
  have h := owned_reachable reach
  refine ⟨(replaceable_reachable reach).once, ?_, h.owner, ?_⟩
  · intro p q first second
    exact Option.some.inj (first.symm.trans second)
  · intro id a t orderly next settles u run
    have kept := kept_step h orderly next
    exact (quiet_steps kept.owned (kept.settles id settles) run).producer

/-- A check that only orderly actions pass, whatever the state. -/
def untroubled : Action → Bool
  | .start _ => false
  | .stop => false
  | .endpointsStopped _ ok => ok
  | .activated _ ok => ok
  | _ => true

theorem untroubled_orderly (s : State) (a : Action) (passed : untroubled a = true) : Orderly s a := by
  cases a with
  | start setup => cases passed
  | stop => cases passed
  | endpointsStopped id ok =>
    intro rejected
    rw [show ok = true from passed] at rejected
    cases rejected
  | activated id ok =>
    intro failed
    rw [show ok = true from passed] at failed
    cases failed
  | _ => trivial

theorem orderly_stop {s : State} (started : s.started = true) (unopened : ∀ id, (s.starts id).opening = false) :
    Orderly s .stop := by
  simp only [Orderly]
  rw [if_pos started]
  exact unopened

/-- A producer fails a send and is replaced, and the sink is stopped. -/
theorem producers_owned_replaced :
    ∃ s t, ReachableWith Orderly s ∧ step s (.stopDisconnected 0) = some t ∧ Settles 0 s t ∧
      (s.producers 0).replacements = 1 ∧ (s.producers 1).disconnects = 1 ∧ t.producer = none := by
  have begun : ReachableWith Orderly (State.start {} .complete) :=
    steps_single (a := .start .complete) (fun _ _ _ => rfl) rfl
  have running := steps_trans begun (execWhere_steps untroubled_orderly
    (show execWhere step (fun _ => untroubled) _ [.prepared 0 .made, .connected 0 true, .activated 0 true,
      .send false false, .partitioned 0 true, .sent 0 false true, .replaced 0 true, .recoveryDisconnected 0,
      .recovered 0, .fails 0, .delivered 0] = some _ from rfl))
  have called := Steps.tail running (orderly_stop rfl fun id => by cases id <;> rfl) rfl
  have stopped := steps_trans called (execWhere_steps untroubled_orderly
    (show execWhere step (fun _ => untroubled) _ [.endpointsStopped 0 true, .drained 0 true, .flushed 0] = some _ from rfl))
  refine ⟨_, _, stopped, rfl, ⟨rfl, Nat.zero_lt_one, .inl nofun⟩, rfl, rfl, ?_⟩
  exact (producers_owned stopped).2.2.2 0 (.stopDisconnected 0) _ trivial rfl ⟨rfl, Nat.zero_lt_one, .inl nofun⟩
    _ (.refl _)

/-- A stop comes while the producer of the start connects. It settles, the producer
    becomes current, and every later stop leaves it so. -/
theorem stopped_while_connecting :
    ∃ s t, ReachableWith Any s ∧ step s .stop = some t ∧ s.stops 0 = .settled ∧ Settles 1 s t ∧
      t.producer = some 0 ∧ (t.producers 0).connected = true ∧ (t.producers 0).disconnects = 0 := by
  have run : exec step {} [.start .complete, .prepared 0 .made, .stop, .endpointsStopped 0 true, .connected 0 true,
      .activated 0 true] = some _ := rfl
  exact ⟨_, _, exec_steps run, rfl, rfl, ⟨rfl, by decide, .inr (by decide)⟩, rfl, rfl, rfl⟩

end KafkaSinks
