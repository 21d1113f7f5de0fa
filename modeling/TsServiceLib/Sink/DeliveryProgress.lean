import Mathlib.Data.Prod.Lex
import TsServiceLib.Sink.KafkaDeliveries

/-!
The delivery of an admitted send. Its rank is the stage it is in and the steps that
the recovery it waits for still takes; what a fair environment owes it is its own
next operation, or the next one of that recovery. So `onDelivery` is called in every
fair run, and a run as a whole answers a send exactly when the registry admitted it.
-/
namespace KafkaSinks
open Transitions Function

/-- The partitioner, the producer, and what follows a recovery, take a send on; the
    producers take a recovery on. -/
inductive Duty where
  | send (i : Nat)
  | recovery (r : Nat)
  deriving DecidableEq

def Performs : Duty → Action → Prop
  | .send i, .partitioned j _ => j = i
  | .send i, .sent j _ _ => j = i
  | .send i, .recovered j => j = i
  | .send i, .fails j => j = i
  | .recovery r, .replaced r' _ => r' = r
  | .recovery r, .recoveryDisconnected r' => r' = r
  | _, _ => False

def SendPhase.awaited : SendPhase → Option Nat
  | .recovering recovery _ => recovery
  | _ => none

namespace State

/-- What the recovery that the send waits for still has to do. -/
def left (s : State) (i : Nat) : Nat :=
  match (s.sends i).phase.awaited with
  | some r => (s.recoveries r).phase.left
  | none => 0

def rank (s : State) (i : Nat) : Nat ×ₗ Nat := toLex ((s.sends i).phase.stage, s.left i)

def duty (s : State) (i : Nat) : Duty :=
  match (s.sends i).phase.awaited with
  | some r => if (s.recoveries r).phase = .settled then .send i else .recovery r
  | none => .send i

end State

/-- The send has been made and is not answered yet. -/
structure Underway (i : Nat) (s : State) : Prop where
  made : i < s.nextSend
  known : ∀ r, s.producerRecovery = some r → r < s.nextRecovery
  awaits : ∀ r, (s.sends i).phase.awaited = some r → r < s.nextRecovery

/-- The operations of the send have settled. -/
def Settled (i : Nat) (s : State) : Prop := (s.sends i).phase.operating = false

section Progress
variable {s t : State} {a : Action} {i : Nat}

/-- A step leaves the phase of an unsettled send alone, moves it to a later stage, or
    settles it. -/
theorem phase_goes {x y : Send} {bound : Nat} (operating : x.phase.operating = true) (goes : x.Goes bound y) :
    y.phase = x.phase ∨ (y.phase.stage < x.phase.stage ∧ ∀ r, y.phase.awaited = some r → r < bound) ∨
    y.phase.operating = false := by
  cases goes with
  | stays => exact .inl rfl
  | @operates phase _ _ later known =>
    refine .inr (.inl ⟨later, ?_⟩)
    intro r awaited
    cases phase with
    | recovering recovery owner =>
      have same : recovery = some r := awaited
      exact known r owner (by rw [same])
    | _ => cases awaited
  | delivers => exact .inr (.inr rfl)
  | finishes before =>
    rw [before] at operating
    cases operating
  | settles => exact .inl rfl

theorem underway_step (h : Underway i s) (unsettled : ¬Settled i s) (next : step s a = some t) :
    Settled i t ∨ Underway i t := by
  have onward := onward_step h.known next
  have made := Nat.lt_of_lt_of_le h.made onward.made
  rcases phase_goes (Bool.of_not_eq_false unsettled) (onward.goes i h.made) with same | ⟨-, awaits⟩ | settled
  · refine .inr ⟨made, onward.known, ?_⟩
    rw [same]
    intro r awaited
    exact Nat.lt_of_lt_of_le (h.awaits r awaited) onward.begun
  · exact .inr ⟨made, onward.known, awaits⟩
  · exact .inl settled

/-- The recovery that a send waits for goes on under it. -/
theorem rank_of_phase (h : Underway i s) (onward : Onward s t) (same : (t.sends i).phase = (s.sends i).phase) :
    t.rank i < s.rank i ∨ (t.rank i = s.rank i ∧ t.duty i = s.duty i) := by
  cases awaited : (s.sends i).phase.awaited with
  | none =>
    refine .inr ⟨?_, ?_⟩
    · simp only [State.rank, State.left, same, awaited]
    · simp only [State.duty, same, awaited]
  | some r =>
    rcases onward.recoveries r (h.awaits r awaited) with stays | lower
    · refine .inr ⟨?_, ?_⟩
      · simp only [State.rank, State.left, same, awaited, stays]
      · simp only [State.duty, same, awaited, stays]
    · refine .inl (Prod.Lex.toLex_lt_toLex.mpr (.inr ⟨?_, ?_⟩))
      · rw [same]
      · simpa only [State.left, same, awaited] using lower

theorem rank_step (h : Underway i s) (unsettled : ¬Settled i s) (next : step s a = some t) :
    Settled i t ∨ t.rank i < s.rank i ∨ (t.rank i = s.rank i ∧ t.duty i = s.duty i) := by
  have onward := onward_step h.known next
  rcases phase_goes (Bool.of_not_eq_false unsettled) (onward.goes i h.made) with same | ⟨later, -⟩ | settled
  · exact .inr (rank_of_phase h onward same)
  · exact .inr (.inl (Prod.Lex.toLex_lt_toLex.mpr (.inl later)))
  · exact .inl settled

theorem send_moves (performs : Performs (.send i) a) (next : step s a = some t) :
    (t.sends i).phase ≠ (s.sends i).phase := by
  cases a with
  | partitioned j ok =>
    cases (performs : j = i)
    simp only [step, State.partitioned] at next
    split at next
    · rename_i phase
      rw [phase]
      split at next
      · split at next
        · cases next
          simp [State.setPhase, State.setSend]
        · cases next
          simp [State.setSend, Send.deliver]
      · cases next
        simp [State.setSend, Send.deliver]
    · cases next
  | sent j ok makes =>
    cases (performs : j = i)
    simp only [step, State.sent] at next
    split at next
    · rename_i p phase
      rw [phase]
      cases next
      split
      · simp [State.setSend, Send.deliver]
      · unfold State.recoverProducer
        split
        · simp [State.setPhase, State.setSend]
        · split
          · simp [State.setPhase, State.setSend]
          · simp [State.setPhase, State.setSend]
    · cases next
  | recovered j =>
    cases (performs : j = i)
    simp only [step, State.recovered] at next
    split at next
    · rename_i phase
      rw [phase]
      cases next
      simp [State.setPhase, State.setSend]
    · rename_i phase
      rw [phase]
      split at next
      · cases next
        simp [State.setPhase, State.setSend]
      · cases next
    · cases next
  | fails j =>
    cases (performs : j = i)
    simp only [step, State.fails] at next
    split at next
    · rename_i phase
      rw [phase]
      cases next
      simp [State.setSend, Send.deliver]
    · cases next
  | _ => exact performs.elim

theorem recovery_moves {r : Nat} (performs : Performs (.recovery r) a) (next : step s a = some t) :
    (t.recoveries r).phase ≠ (s.recoveries r).phase := by
  cases a with
  | replaced r' ok =>
    cases (performs : r' = r)
    simp only [step, State.replaced] at next
    split at next
    · rename_i phase
      rw [phase]
      split at next
      · split at next
        · cases next
          simp [State.setRecovery]
        · cases next
          simp [State.setRecovery]
      · cases next
        simp [State.setRecovery]
    · cases next
  | recoveryDisconnected r' =>
    cases (performs : r' = r)
    simp only [step, State.recoveryDisconnected] at next
    split at next
    · rename_i phase
      rw [phase]
      cases next
      simp [State.setRecovery]
    · cases next
  | _ => exact performs.elim

/-- What the environment owes the send brings it nearer to its callback. -/
theorem duty_lowers (h : Underway i s) (unsettled : ¬Settled i s) (next : step s a = some t)
    (performs : Performs (s.duty i) a) : Settled i t ∨ t.rank i < s.rank i := by
  have onward := onward_step h.known next
  rcases phase_goes (Bool.of_not_eq_false unsettled) (onward.goes i h.made) with same | ⟨later, -⟩ | settled
  · unfold State.duty at performs
    split at performs
    · rename_i r awaited
      split at performs
      · exact absurd same (send_moves performs next)
      · rcases onward.recoveries r (h.awaits r awaited) with stays | lower
        · exact absurd stays (recovery_moves performs next)
        · refine .inr (Prod.Lex.toLex_lt_toLex.mpr (.inr ⟨?_, ?_⟩))
          · rw [same]
          · simpa only [State.left, same, awaited] using lower
    · exact absurd same (send_moves performs next)
  · exact .inr (Prod.Lex.toLex_lt_toLex.mpr (.inl later))
  · exact .inl settled

theorem duty_enabled (unsettled : ¬Settled i s) : Enabled step Performs s (s.duty i) := by
  have operating := Bool.of_not_eq_false unsettled
  unfold State.duty
  cases phase : (s.sends i).phase with
  | selecting =>
    apply enabled_of_isSome (a := .partitioned i false)
    · rfl
    simp [step, State.partitioned, phase]
  | sending p =>
    apply enabled_of_isSome (a := .sent i true false)
    · rfl
    simp [step, State.sent, phase]
  | recovering recovery owner =>
    cases recovery with
    | none =>
      apply enabled_of_isSome (a := .recovered i)
      · rfl
      simp [step, State.recovered, phase]
    | some r =>
      simp only [SendPhase.awaited]
      cases progress : (s.recoveries r).phase with
      | connecting =>
        apply enabled_of_isSome (a := .replaced r false)
        · rfl
        simp [step, State.replaced, progress]
      | disconnecting =>
        apply enabled_of_isSome (a := .recoveryDisconnected r)
        · rfl
        simp [step, State.recoveryDisconnected, progress]
      | settled =>
        apply enabled_of_isSome (a := .recovered i)
        · rfl
        simp [step, State.recovered, phase, progress]
  | failing =>
    apply enabled_of_isSome (a := .fails i)
    · rfl
    simp [step, State.fails, phase]
  | dropped =>
    rw [phase] at operating
    cases operating
  | delivering =>
    rw [phase] at operating
    cases operating
  | finished =>
    rw [phase] at operating
    cases operating

theorem send_settles (run : Transitions.Run step Any) (fair : run.Fair Performs) (start : Underway i (run.state 0)) :
    ∃ n, Settled i (run.state n) := by
  apply fair_reaches (Underway i) (Settled i) (fun s => s.rank i) (fun s => s.duty i) _ _ _ _ run fair start
  · intro s a t h unsettled _ next
    exact underway_step h unsettled next
  · intro s _ unsettled
    exact duty_enabled unsettled
  · intro s a t h unsettled _ next performs
    exact duty_lowers h unsettled next performs
  · intro s a t h unsettled _ next
    exact rank_step h unsettled next

end Progress

/-- `onDelivery` of the send is called once when its operations have settled, and in
    every fair run they settle, and a `sendSync` with them. -/
structure Answers (i : Nat) (t : State) : Prop where
  once : ∀ u, Steps step Any t u → (u.sends i).Answered
  comes : ∀ run : Transitions.Run step Any, run.state 0 = t → run.Fair Performs → ∃ n,
    ((run.state n).sends i).callbacks = 1 ∧
      (((run.state n).sends i).sync = true → ((run.state n).sends i).promise ≠ .pending)

section Answers
variable {s t u : State} {i : Nat} {sync aborted : Bool}

theorem known_reachable (reach : ReachableWith Any s) : ∀ r, s.producerRecovery = some r → r < s.nextRecovery := by
  apply steps_invariant (fun s => ∀ r, s.producerRecovery = some r → r < s.nextRecovery) _ reach nofun
  intro s a t known _ next
  exact (onward_step known next).known

theorem send_invariant (P : Send → Prop) (kept : ∀ x y bound, P x → x.Goes bound y → P y)
    (known : ∀ r, s.producerRecovery = some r → r < s.nextRecovery) (made : i < s.nextSend) (holds : P (s.sends i))
    (run : Steps step Any s u) : P (u.sends i) := by
  have all : i < u.nextSend ∧ (∀ r, u.producerRecovery = some r → r < u.nextRecovery) ∧ P (u.sends i) := by
    apply steps_invariant (fun s => i < s.nextSend ∧ (∀ r, s.producerRecovery = some r → r < s.nextRecovery) ∧
      P (s.sends i)) _ run ⟨made, known, holds⟩
    intro s a t held _ next
    have onward := onward_step held.2.1 next
    exact ⟨Nat.lt_of_lt_of_le held.1 onward.made, onward.known, kept _ _ _ held.2.2 (onward.goes i held.1)⟩
  exact all.2.2

theorem send_made (sends : step s (.send sync aborted) = some t) : s.nextSend < t.nextSend := by
  cases sends
  unfold State.send
  simp only
  split
  · exact Nat.lt_succ_self _
  · exact Nat.lt_succ_self _

theorem send_dropped (refuses : s.accepting = false) (sends : step s (.send sync aborted) = some t) :
    (t.sends s.nextSend).phase = .dropped ∧ (t.sends s.nextSend).callbacks = 0 := by
  cases sends
  unfold State.send
  rw [refuses]
  cases aborted <;> simp [State.setSend, Send.settle]

theorem send_admitted (accepts : s.accepting = true) (sends : step s (.send sync aborted) = some t) :
    (t.sends s.nextSend).Answered ∧ (t.sends s.nextSend).phase.awaited = none := by
  cases sends
  unfold State.send
  rw [accepts]
  have fresh : ({ sync := sync, phase := .selecting } : Send).Answered := ⟨rfl, nofun⟩
  cases aborted with
  | false =>
    constructor
    · simpa [State.setSend] using fresh
    · simp [State.setSend, SendPhase.awaited]
  | true =>
    constructor
    · simpa [State.setSend] using Send.answered_deliver fresh rfl
    · simp [State.setSend, Send.deliver, SendPhase.awaited]

theorem dropped_unanswered (reach : ReachableWith Any s) (refuses : s.accepting = false)
    (sends : step s (.send sync aborted) = some t) (run : Steps step Any t u) :
    (u.sends s.nextSend).phase = .dropped ∧ (u.sends s.nextSend).callbacks = 0 := by
  have known := (onward_step (known_reachable reach) sends).known
  exact send_invariant (fun x => x.phase = .dropped ∧ x.callbacks = 0) (fun _ _ _ => Send.dropped_goes) known
    (send_made sends) (send_dropped refuses sends) run

theorem admitted_answers (reach : ReachableWith Any s) (accepts : s.accepting = true)
    (sends : step s (.send sync aborted) = some t) : Answers s.nextSend t := by
  have known := (onward_step (known_reachable reach) sends).known
  obtain ⟨answered, awaits⟩ := send_admitted accepts sends
  have once : ∀ u, Steps step Any t u → (u.sends s.nextSend).Answered := by
    intro u run
    exact send_invariant Send.Answered (fun _ _ _ => Send.answered_goes) known (send_made sends) answered run
  refine ⟨once, ?_⟩
  intro run start fair
  have underway : Underway s.nextSend (run.state 0) := by
    rw [start]
    exact ⟨send_made sends, known, fun r waits => by rw [awaits] at waits; cases waits⟩
  obtain ⟨n, settled⟩ := send_settles run fair underway
  have answered := once (run.state n) (start ▸ run.steps n)
  refine ⟨n, ?_, fun sync => answered.promise sync settled⟩
  have callbacks := answered.callbacks
  rw [show ((run.state n).sends s.nextSend).phase.operating = false from settled] at callbacks
  exact callbacks

end Answers

/- In every run, `onDelivery` of a `send` is called once when its operations have
   settled, and the promise of a `sendSync` settles with it, if and only if the registry
   still admits when `send` is called. One that it does not admit is never answered. -/
theorem deliveries_answered {s t : State} {sync aborted : Bool} (reach : ReachableWith Any s)
    (sends : step s (.send sync aborted) = some t) :
    (Answers s.nextSend t ↔ s.accepting = true) ∧
      (s.accepting = false → ∀ u, Steps step Any t u → (u.sends s.nextSend).callbacks = 0) := by
  constructor
  · constructor
    · intro answers
      by_contra refuses
      obtain ⟨phase, callbacks⟩ := send_dropped (Bool.eq_false_of_not_eq_true refuses) sends
      have once := (answers.once t (.refl t)).callbacks
      rw [phase, callbacks] at once
      cases once
    · exact fun accepts => admitted_answers reach accepts sends
  · intro refuses u run
    exact (dropped_unanswered reach refuses sends run).2

/-- The actions of a start that goes well, and of the stop after it. -/
def started (n : Nat) : List Action := [.start .complete, .prepared n .made, .connected n true, .activated n true]

def stopped (n : Nat) : List Action :=
  [.stop, .endpointsStopped n true, .drained n true, .flushed n, .stopDisconnected n]

/-- The send of a sink that has been started is answered. -/
theorem deliveries_answered_started :
    ∃ s t, ReachableWith Any s ∧ s.started = true ∧ step s (.send true false) = some t ∧ Answers 0 t := by
  have run : exec step {} (started 0) = some _ := rfl
  exact ⟨_, _, exec_steps run, rfl, rfl, (deliveries_answered (exec_steps run) rfl).1.mpr rfl⟩

/-- A sink that was stopped and started again has a producer, and does not answer. -/
theorem restarted_unanswered :
    ∃ s t, ReachableWith Any s ∧ s.started = true ∧ s.producer = some 1 ∧ step s (.send true false) = some t ∧
      ¬Answers 0 t ∧ ∀ u, Steps step Any t u → (u.sends 0).callbacks = 0 := by
  have run : exec step {} (started 0 ++ stopped 0 ++ started 1) = some _ := rfl
  refine ⟨_, _, exec_steps run, rfl, rfl, rfl, ?_, ?_⟩
  · intro answers
    cases (answers.once _ (.refl _)).callbacks
  · intro u later
    exact (dropped_unanswered (exec_steps run) rfl rfl later).2

end KafkaSinks
