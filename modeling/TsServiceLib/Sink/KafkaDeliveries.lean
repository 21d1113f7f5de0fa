import TsServiceLib.Library.Fairness
import TsServiceLib.Sink.KafkaFrames

/-!
The delivery callbacks of a Kafka sink. A send that the registry admits goes
through its operations and calls `onDelivery` once. One that is not admitted is
dropped without a call: the registry has no error handler, and it does not admit
again after the first stop.
-/
namespace KafkaSinks
open Transitions Function

def SendPhase.operating : SendPhase → Bool
  | .selecting => true
  | .sending _ => true
  | .recovering _ _ => true
  | .failing => true
  | _ => false

/-- How far the send is from its callback. -/
def SendPhase.stage : SendPhase → Nat
  | .selecting => 4
  | .sending _ => 3
  | .recovering _ _ => 2
  | .failing => 1
  | _ => 0

def RecoveryPhase.left : RecoveryPhase → Nat
  | .connecting => 2
  | .disconnecting => 1
  | .settled => 0

namespace Send

/-- `onDelivery` is called once when the operations have settled, and not before, and
    it settles the promise of a `sendSync`. -/
structure Answered (x : Send) : Prop where
  callbacks : x.callbacks = if x.phase.operating = true then 0 else 1
  promise : x.sync = true → x.phase.operating = false → x.promise ≠ .pending

/-- What a step can do to a send, where recoveries have numbers below `bound`. -/
inductive Goes (bound : Nat) : Send → Send → Prop where
  | stays (x : Send) : Goes bound x x
  | operates {x : Send} {phase : SendPhase} (before : x.phase.operating = true) (after : phase.operating = true)
      (later : phase.stage < x.phase.stage) (known : ∀ r owner, phase = .recovering (some r) owner → r < bound) :
      Goes bound x { x with phase := phase }
  | delivers {x : Send} {ok : Bool} (before : x.phase.operating = true) : Goes bound x (x.deliver ok)
  | finishes {x : Send} (before : x.phase = .delivering) : Goes bound x { x with phase := .finished }
  | settles {x : Send} {ok : Bool} : Goes bound x (x.settle ok)

section Goes
variable {x y : Send} {bound : Nat}

theorem settle_promise (x : Send) (ok : Bool) (sync : x.sync = true) : (x.settle ok).promise ≠ .pending := by
  unfold settle
  simp only
  split
  · split <;> nofun
  · rename_i settled
    intro pending
    exact settled ⟨sync, pending⟩

theorem answered_deliver {ok : Bool} (answered : x.Answered) (operating : x.phase.operating = true) :
    (x.deliver ok).Answered := by
  have callbacks := answered.callbacks
  rw [operating] at callbacks
  constructor
  · simp [deliver, settle, SendPhase.operating, callbacks]
  · intro sync _
    exact settle_promise x ok sync

theorem answered_goes (answered : x.Answered) (goes : Goes bound x y) : y.Answered := by
  cases goes with
  | stays => exact answered
  | operates before after _ _ =>
    constructor
    · have callbacks := answered.callbacks
      rw [before] at callbacks
      rw [after]
      exact callbacks
    · intro _ settled
      rw [after] at settled
      cases settled
  | delivers before =>
    exact answered_deliver answered before
  | finishes before =>
    constructor
    · have callbacks := answered.callbacks
      rw [before] at callbacks
      exact callbacks
    · intro sync _
      exact answered.promise sync (by rw [before]; rfl)
  | settles =>
    constructor
    · exact answered.callbacks
    · intro sync _
      exact settle_promise x _ sync

theorem dropped_goes (dropped : x.phase = .dropped ∧ x.callbacks = 0) (goes : Goes bound x y) :
    y.phase = .dropped ∧ y.callbacks = 0 := by
  obtain ⟨phase, callbacks⟩ := dropped
  cases goes with
  | stays => exact ⟨phase, callbacks⟩
  | operates before _ _ _ =>
    rw [phase] at before
    cases before
  | delivers before =>
    rw [phase] at before
    cases before
  | finishes before =>
    rw [phase] at before
    cases before
  | settles => exact ⟨phase, callbacks⟩

end Goes

end Send

/-- What a step does to the sends that have been made, and to the recoveries. -/
structure Onward (s t : State) : Prop where
  made : s.nextSend ≤ t.nextSend
  goes : ∀ n, n < s.nextSend → (s.sends n).Goes t.nextRecovery (t.sends n)
  known : ∀ r, t.producerRecovery = some r → r < t.nextRecovery
  begun : s.nextRecovery ≤ t.nextRecovery
  recoveries : ∀ r, r < s.nextRecovery →
    (t.recoveries r).phase = (s.recoveries r).phase ∨ (t.recoveries r).phase.left < (s.recoveries r).phase.left

section Steps
variable {s t u : State} {a : Action} {i : Nat}

structure SameRecoveries (s t : State) : Prop where
  producerRecovery : t.producerRecovery = s.producerRecovery
  nextRecovery : t.nextRecovery = s.nextRecovery
  recoveries : t.recoveries = s.recoveries

theorem onward_sends (known : ∀ r, s.producerRecovery = some r → r < s.nextRecovery) (same : SameRecoveries s t)
    (made : s.nextSend ≤ t.nextSend) (goes : ∀ n, n < s.nextSend → (s.sends n).Goes s.nextRecovery (t.sends n)) :
    Onward s t := by
  constructor
  · exact made
  · rw [same.nextRecovery]
    exact goes
  · rw [same.producerRecovery, same.nextRecovery]
    exact known
  · exact le_of_eq same.nextRecovery.symm
  · intro r _
    rw [same.recoveries]
    exact .inl rfl

theorem onward_aside (known : ∀ r, s.producerRecovery = some r → r < s.nextRecovery) (same : SameDeliveries s t) :
    Onward s t := by
  apply onward_sends known ⟨same.producerRecovery, same.nextRecovery, same.recoveries⟩ (le_of_eq same.nextSend.symm)
  intro n _
  rw [same.sends]
  exact .stays _

theorem goes_setSend {x : Send} {bound : Nat} (goes : (s.sends i).Goes bound x) (sends : u.sends = s.sends) (n : Nat) :
    (s.sends n).Goes bound ((u.setSend i x).sends n) := by
  by_cases same : n = i
  · subst same
    simpa [State.setSend] using goes
  · simpa [State.setSend, update_of_ne same, sends] using Send.Goes.stays (s.sends n)

theorem onward_setSend (known : ∀ r, s.producerRecovery = some r → r < s.nextRecovery) {x : Send}
    (goes : (s.sends i).Goes s.nextRecovery x) : Onward s (s.setSend i x) :=
  onward_sends known ⟨rfl, rfl, rfl⟩ le_rfl (fun n _ => goes_setSend goes rfl n)

theorem onward_deliver (known : ∀ r, s.producerRecovery = some r → r < s.nextRecovery) {ok : Bool}
    (operating : (s.sends i).phase.operating = true) : Onward s (s.setSend i ((s.sends i).deliver ok)) :=
  onward_setSend known (.delivers operating)

/-- The send shares the recovery under way, or begins one, or needs none. -/
theorem onward_recoverProducer (known : ∀ r, s.producerRecovery = some r → r < s.nextRecovery) {p q : Nat} {makes : Bool}
    (sending : (s.sends i).phase = .sending q) : Onward s (s.recoverProducer i p makes) := by
  have operating : (s.sends i).phase.operating = true := by
    rw [sending]
    rfl
  have later : ∀ {recovery owner}, (SendPhase.recovering recovery owner).stage < (s.sends i).phase.stage := by
    intro recovery owner
    rw [sending]
    exact Nat.lt_succ_self 2
  unfold State.recoverProducer
  split
  · exact onward_setSend known (.operates operating rfl later nofun)
  · split
    · rename_i r current
      apply onward_setSend known
      apply Send.Goes.operates operating rfl later
      intro r' owner same
      cases same
      exact known r current
    · have goes : (s.sends i).Goes (s.nextRecovery + 1)
          { s.sends i with phase := .recovering (some s.nextRecovery) true } := by
        apply Send.Goes.operates operating rfl later
        intro r owner same
        cases same
        exact Nat.lt_succ_self _
      have others : ∀ (recovery : Recovery) r, r < s.nextRecovery →
          (update s.recoveries s.nextRecovery recovery r).phase = (s.recoveries r).phase ∨
          (update s.recoveries s.nextRecovery recovery r).phase.left < (s.recoveries r).phase.left := by
        intro recovery r older
        rw [update_of_ne (Nat.ne_of_lt older)]
        exact .inl rfl
      have next : ∀ r, some s.nextRecovery = some r → r < s.nextRecovery + 1 := by
        intro r same
        cases same
        exact Nat.lt_succ_self _
      simp only
      split
      · exact ⟨le_rfl, fun n _ => goes_setSend goes rfl n, next, Nat.le_succ _, others _⟩
      · exact ⟨le_rfl, fun n _ => goes_setSend goes rfl n, next, Nat.le_succ _, others _⟩

theorem onward_setRecovery (known : ∀ r, s.producerRecovery = some r → r < s.nextRecovery) {r : Nat}
    {phase : RecoveryPhase} (later : phase.left < (s.recoveries r).phase.left) (same : SameRecoveries s u) (sends : u.sends = s.sends)
    (nextSend : u.nextSend = s.nextSend) : Onward s (u.setRecovery r phase) := by
  constructor
  · exact le_of_eq nextSend.symm
  · intro n _
    rw [show (u.setRecovery r phase).sends = u.sends from rfl, sends]
    exact .stays _
  · rw [show (u.setRecovery r phase).producerRecovery = u.producerRecovery from rfl, same.producerRecovery,
      show (u.setRecovery r phase).nextRecovery = u.nextRecovery from rfl, same.nextRecovery]
    exact known
  · exact le_of_eq same.nextRecovery.symm
  · intro r' _
    by_cases there : r' = r
    · subst there
      exact .inr (by simpa [State.setRecovery] using later)
    · refine .inl ?_
      simp [State.setRecovery, update_of_ne there, same.recoveries]

/-- A step moves a send that has been made on, or leaves it alone. -/
theorem onward_step (known : ∀ r, s.producerRecovery = some r → r < s.nextRecovery) (next : step s a = some t) :
    Onward s t := by
  by_cases lifecycle : a.lifecycle = true
  · exact onward_aside known (lifecycle_deliveries lifecycle next)
  · cases a with
    | send sync aborted =>
      cases next
      unfold State.send
      simp only
      have older : ∀ n, n < s.nextSend → n ≠ s.nextSend := fun n made => Nat.ne_of_lt made
      split
      · apply onward_sends known
        · exact ⟨rfl, rfl, rfl⟩
        · exact Nat.le_succ _
        · intro n made
          simpa [State.setSend, update_of_ne (older n made)] using Send.Goes.stays (s.sends n)
      · apply onward_sends known
        · exact ⟨rfl, rfl, rfl⟩
        · exact Nat.le_succ _
        · intro n made
          simpa [State.setSend, update_of_ne (older n made)] using Send.Goes.stays (s.sends n)
    | partitioned i ok =>
      simp only [step, State.partitioned] at next
      split at next
      · rename_i phase
        have operating : (s.sends i).phase.operating = true := by
          rw [phase]
          rfl
        split at next
        · split at next
          · cases next
            apply onward_setSend known
            apply Send.Goes.operates operating rfl
            · rw [phase]
              exact Nat.lt_succ_self 3
            · simp
          · cases next
            exact onward_deliver known operating
        · cases next
          exact onward_deliver known operating
      · cases next
    | sent i ok makes =>
      simp only [step, State.sent] at next
      split at next
      · rename_i p phase
        cases next
        split
        · exact onward_deliver known (by rw [phase]; rfl)
        · exact onward_recoverProducer known phase
      · cases next
    | replaced r ok =>
      simp only [step, State.replaced] at next
      split at next
      · rename_i phase
        have later : RecoveryPhase.disconnecting.left < (s.recoveries r).phase.left := by
          rw [phase]
          decide
        split at next
        · split at next
          · cases next
            exact onward_setRecovery known later ⟨rfl, rfl, rfl⟩ rfl rfl
          · cases next
            exact onward_setRecovery known later ⟨rfl, rfl, rfl⟩ rfl rfl
        · cases next
          apply onward_setRecovery known _ ⟨rfl, rfl, rfl⟩ rfl rfl
          rw [phase]
          decide
      · cases next
    | recoveryDisconnected r =>
      simp only [step, State.recoveryDisconnected] at next
      split at next
      · rename_i phase
        cases next
        apply onward_setRecovery known _ ⟨rfl, rfl, rfl⟩ rfl rfl
        rw [phase]
        decide
      · cases next
    | recovered i =>
      simp only [step, State.recovered] at next
      split at next
      · rename_i owner phase
        cases next
        apply onward_setSend known
        apply Send.Goes.operates
        · rw [phase]
          rfl
        · rfl
        · rw [phase]
          exact Nat.lt_succ_self 1
        · simp
      · rename_i r owner phase
        have goes : (s.sends i).Goes s.nextRecovery { s.sends i with phase := .failing } := by
          apply Send.Goes.operates
          · rw [phase]
            rfl
          · rfl
          · rw [phase]
            exact Nat.lt_succ_self 1
          · simp
        split at next
        · cases next
          split
          · exact ⟨le_rfl, fun n _ => goes_setSend goes rfl n, (by intros; contradiction), le_rfl, fun _ _ => .inl rfl⟩
          · exact onward_setSend known goes
        · cases next
      · cases next
    | fails i =>
      simp only [step, State.fails] at next
      split at next
      · rename_i phase
        cases next
        exact onward_deliver known (by rw [phase]; rfl)
      · cases next
    | delivered i =>
      simp only [step, State.delivered] at next
      split at next
      · rename_i phase
        cases next
        exact onward_sends known ⟨rfl, rfl, rfl⟩ le_rfl (fun n _ => goes_setSend (.finishes phase) rfl n)
      · cases next
    | aborts i =>
      simp only [step, State.aborts] at next
      split at next
      · cases next
        exact onward_setSend known .settles
      · cases next
    | _ => exact absurd rfl lifecycle

end Steps

end KafkaSinks
